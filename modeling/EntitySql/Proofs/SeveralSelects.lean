/-
  Several selects, one of which cannot be written.

  In a batch all selects are written before the executor is handed anything, so a bad one keeps
  everything back. One by one the selects in front of the bad one are sent before it is looked at:
  `getMultiple_refused` tells how many of them the executor is handed, and that there are none
  exactly when the bad one is the first.
-/
import EntitySql.Proofs.Batch

namespace EntitySql

/-! ## Statements one after the other -/

namespace Executor

variable {σ : Type}

/-- The rows of several statements sent one after the other, up to the first failure. -/
def rowsOfAll (x : Executor σ) : List Statement → σ → Except Error (List RowSet) × σ
  | [], s => (.ok [], s)
  | st :: sts, s =>
    match (x.rows st s).1 with
    | .error e => (.error e, (x.rows st s).2)
    | .ok rows =>
      let rest := rowsOfAll x sts (x.rows st s).2
      (rest.1.map (rows :: ·), rest.2)

theorem rowsOfAll_of_error {x : Executor σ} {st : Statement} {s : σ} {e : Error}
    (h : (x.rows st s).1 = .error e) (sts : List Statement) :
    x.rowsOfAll (st :: sts) s = (.error e, (x.rows st s).2) := by
  rw [rowsOfAll, h]

theorem rowsOfAll_of_ok {x : Executor σ} {st : Statement} {s : σ} {rows : RowSet}
    (h : (x.rows st s).1 = .ok rows) (sts : List Statement) :
    x.rowsOfAll (st :: sts) s =
      ((x.rowsOfAll sts (x.rows st s).2).1.map (rows :: ·),
        (x.rowsOfAll sts (x.rows st s).2).2) := by
  rw [rowsOfAll, h]

/-- A watched executor lists the statements up to the first failure: the first one at least, and
    all of them when there is no failure. -/
theorem rowsOfAll_watched (x : Executor σ) (sts : List Statement) (s : σ × List Request) :
    ∃ n, n ≤ sts.length ∧ (n = 0 ↔ sts = []) ∧
      ((x.rowsOfAll sts s.1).1.isOk = true → n = sts.length) ∧
      x.watched.rowsOfAll sts s = ((x.rowsOfAll sts s.1).1,
        ((x.rowsOfAll sts s.1).2, s.2 ++ (sts.take n).map .rows)) := by
  induction sts generalizing s with
  | nil => exact ⟨0, Nat.le_refl 0, by simp, fun _ => rfl, by simp [rowsOfAll]⟩
  | cons st sts ih =>
    unfold rowsOfAll
    rw [rows_watched]
    unfold listing
    dsimp only
    cases hrows : (x.rows st s.1).1 with
    | error e =>
      refine ⟨1, by simp, by simp, fun h => ?_, by simp⟩
      cases h
    | ok rows =>
      obtain ⟨n, hn, -, hall, hrest⟩ := ih ((x.rows st s.1).2, s.2 ++ [.rows st])
      dsimp only at hrest hall ⊢
      rw [hrest]
      refine ⟨n + 1, by simpa using hn, by simp, fun h => ?_, by simp⟩
      rw [hall ?_, List.length_cons]
      cases hr : (x.rowsOfAll sts (x.rows st s.1).2).1 with
      | error e =>
        rw [hr] at h
        cases h
      | ok sets => rfl

end Executor

/-! ## Selects one by one -/

/-- The plans of the selections in front of the first one without a plan. -/
def Work.plansInFront (d : Dialect) (v : View) : List Selection → List Plan
  | [] => []
  | x :: xs =>
    match x.plan d v with
    | .error _ => []
    | .ok p => p :: plansInFront d v xs

/-- There is nothing in front of a bad selection when it is the first one. -/
theorem Work.plansInFront_eq_nil_iff {d : Dialect} {v : View} {xs : List Selection} {e : Error}
    (h : plans d v xs = .error e) :
    plansInFront d v xs = [] ↔ ∃ x rest, xs = x :: rest ∧ x.plan d v = .error e := by
  cases xs with
  | nil => cases h
  | cons x xs =>
    rw [plans_cons] at h
    unfold plansInFront
    cases hx : x.plan d v with
    | error e' =>
      rw [hx] at h
      cases h
      exact ⟨fun _ => ⟨x, xs, rfl, hx⟩, fun _ => rfl⟩
    | ok p =>
      constructor
      · intro hp
        cases hp
      · rintro ⟨x', rest, heq, hx'⟩
        cases heq
        rw [hx] at hx'
        cases hx'

namespace Database

variable {σ : Type} (db : Database σ)

/-- One by one the selects are sent up to the first failure of the executor or the first one
    without a plan. -/
theorem fetchOneByOne_run (xs : List Selection) (a : Session σ) {v : View}
    (hv : db.setting.view a.workspace.catalog = v) {sts : List Statement}
    (hsts : sts = (Work.plansInFront db.setting.dialect v xs).map (·.statement db.setting.dialect)) :
    ∃ w, db.fetchOneByOne xs a =
      ended ((db.executor.rowsOfAll sts a.executor).1 >>= fun sets =>
          (Work.plans db.setting.dialect v xs).map fun _ => sets)
        ⟨w, a.drawn, (db.executor.rowsOfAll sts a.executor).2⟩ := by
  induction xs generalizing a sts with
  | nil =>
    subst hsts
    exact ⟨a.workspace, rfl⟩
  | cons x xs ih =>
    obtain ⟨w₁, hw₁, hg₁⟩ := Act.checks_statement (Work.selection_follows db.setting x _)
      (Work.extends_selection db.setting x) (a := a)
    have hw₁ : Act.statement (Work.selection db.setting x) a =
        ended ((x.plan db.setting.dialect v).map (·.statement db.setting.dialect))
          { a with workspace := w₁ } := by
      rw [hw₁, ← hv]
    rw [Work.plansInFront] at hsts
    rw [fetchOneByOne, bind_run, hw₁, Work.plans_cons]
    cases hx : x.plan db.setting.dialect v with
    | error e =>
      rw [hx] at hsts
      subst hsts
      exact ⟨w₁, rfl⟩
    | ok p =>
      rw [hx] at hsts
      change sts = p.statement db.setting.dialect :: List.map _ _ at hsts
      subst hsts
      have hv₁ : db.setting.view w₁.catalog = v := (Setting.view_of_grows hg₁).trans hv
      obtain ⟨w₂, hc₂, hw₂⟩ := Act.asks_fetch db.executor (p.statement db.setting.dialect)
        { a with workspace := w₁ }
      dsimp only [Except.map, ended] at hc₂ hw₂ ⊢
      rw [bind_run, hw₂]
      cases hrows : (db.executor.rows (p.statement db.setting.dialect) a.executor).1 with
      | error e =>
        rw [Executor.rowsOfAll_of_error hrows]
        exact ⟨w₂, rfl⟩
      | ok rows =>
        obtain ⟨w₃, hw₃⟩ := ih
          ⟨w₂, a.drawn, (db.executor.rows (p.statement db.setting.dialect) a.executor).2⟩
          (by rw [hc₂, hv₁]) rfl
        rw [Executor.rowsOfAll_of_ok hrows]
        refine ⟨w₃, ?_⟩
        dsimp only at hw₃ ⊢
        rw [bind_run, hw₃]
        cases (db.executor.rowsOfAll _ _).1 with
        | error e => rfl
        | ok sets => cases Work.plans db.setting.dialect v xs <;> rfl

/-- In a batch a selection without a plan keeps everything back. -/
theorem fetchAtOnce_refused {xs : List Selection} {a : Session σ} {e : Error}
    (h : Work.plans db.setting.dialect (db.setting.view a.workspace.catalog) xs = .error e) :
    ∃ w, db.fetchAtOnce xs a = .error e { a with workspace := w } := by
  obtain ⟨w, hw, -, -⟩ :=
    Work.selections_write db.setting xs { a.workspace with parameters := {} }
  rw [h] at hw
  have hstatement : Act.statement (do
      return db.setting.dialect.separator.intercalate (← Work.selections db.setting xs)) a =
      .error e { a with workspace := w } := by
    unfold Act.statement
    rw [bind_run]
    change ((Act.work _) >>= fun sql => _) _ = _
    rw [bind_run, Act.work, bind_run, hw]
    rfl
  refine ⟨w, ?_⟩
  refine (bind_run (Act.statement _) _ a).trans ?_
  rw [hstatement]

theorem getMultiple_of_batches {xs : List Selection} (hxs : xs.isEmpty = false)
    (hb : db.setting.dialect.batches = true) :
    db.getMultiple xs = (db.fetchAtOnce xs >>= fun
      | some sets => pure ⟨(xs.map (·.entity)).zip sets⟩
      | none => do return ⟨(xs.map (·.entity)).zip (← db.fetchOneByOne xs)⟩) := by
  unfold getMultiple
  rw [hxs, hb]
  rfl

theorem getMultiple_of_not_batches {xs : List Selection} (hxs : xs.isEmpty = false)
    (hb : db.setting.dialect.batches = false) :
    db.getMultiple xs = (do return ⟨(xs.map (·.entity)).zip (← db.fetchOneByOne xs)⟩) := by
  unfold getMultiple
  rw [hxs, hb]
  rfl

end Database

/-- When one of several selects cannot be written, the call fails with the first reason why, or
    with an error that the executor raises before that. In a batch the executor is handed nothing.
    One by one it is handed the selects in front of the bad one, up to its first failure: none of
    them exactly when the bad one is the first. -/
theorem getMultiple_refused {σ : Type} (db : Database σ) (xs : List Selection)
    (a : Session (σ × List Request)) {e : Error}
    (h : Work.plans db.setting.dialect (db.setting.view a.workspace.catalog) xs = .error e) :
    (∃ q, e = .query q) ∧
    (db.setting.dialect.batches = true →
      ∃ w, db.watched.getMultiple xs a = .error e { a with workspace := w }) ∧
    (db.setting.dialect.batches = false →
      ∃ (sts : List Statement) (n : Nat) (w : Workspace),
        sts = (Work.plansInFront db.setting.dialect (db.setting.view a.workspace.catalog) xs).map
          (·.statement db.setting.dialect) ∧
        db.watched.getMultiple xs a =
          .error
            (match (db.executor.rowsOfAll sts a.executor.1).1 with
             | .error raised => raised
             | .ok _ => e)
            ⟨w, a.drawn, (db.executor.rowsOfAll sts a.executor.1).2,
              a.executor.2 ++ (sts.take n).map .rows⟩ ∧
        n ≤ sts.length ∧
        ((db.executor.rowsOfAll sts a.executor.1).1.isOk = true → n = sts.length) ∧
        (n = 0 ↔ ∃ x rest, xs = x :: rest ∧
          x.plan db.setting.dialect (db.setting.view a.workspace.catalog) = .error e)) := by
  have hne : xs.isEmpty = false := by
    cases xs with
    | nil => cases h
    | cons x xs => rfl
  refine ⟨?_, fun hb => ?_, fun hb => ?_⟩
  · exact Refuses.selectionPlans (db.setting.refuses_view _) xs e h
  · obtain ⟨w, hw⟩ := db.watched.fetchAtOnce_refused (a := a) h
    refine ⟨w, ?_⟩
    rw [db.watched.getMultiple_of_batches hne hb, bind_run, hw]
  · generalize hsts : (Work.plansInFront db.setting.dialect
      (db.setting.view a.workspace.catalog) xs).map (·.statement db.setting.dialect) = sts
    obtain ⟨w, hw⟩ := db.watched.fetchOneByOne_run xs a rfl hsts.symm
    obtain ⟨n, hn, hzero, hall, hlist⟩ := db.executor.rowsOfAll_watched sts a.executor
    rw [db.executor_watched, hlist, db.setting_watched, h] at hw
    refine ⟨sts, n, w, rfl, ?_, hn, hall, ?_⟩
    · rw [db.watched.getMultiple_of_not_batches hne hb, bind_run, hw]
      cases (db.executor.rowsOfAll sts a.executor.1).1 <;> rfl
    · rw [hzero, ← hsts, List.map_eq_nil_iff]
      exact Work.plansInFront_eq_nil_iff h

/-! ## A sample -/

namespace Samples

/-- People in a database that takes one statement at a time. -/
def peopleOneByOne : Database Recorder where
  setting := { people with dialect := .mysql }
  identifiers _ := Uuid.nil
  executor := Recorder.executor

/-- All people, and the people of a name, which is not a property of theirs. -/
def allThenNamed : List Selection :=
  [{ entity := ⟨"Person"⟩ },
   { entity := ⟨"Person"⟩
     condition := some (.field ⟨⟨"Person"⟩, "name"⟩ .eq (.text "Ada") false) }]

end Samples

/-- The first select is handed over, and the second one has no plan. -/
theorem getMultiple_refused_people :
    Work.plans .mysql (Samples.peopleOneByOne.setting.view {}) Samples.allThenNamed =
      .error (.query (.unknownProperty "Person" "name")) ∧
    ∃ st w r, Samples.peopleOneByOne.watched.getMultiple Samples.allThenNamed Samples.fresh =
      .error (.query (.unknownProperty "Person" "name")) ⟨w, 0, r, [.rows st]⟩ := by
  have h : Work.plans .mysql (Samples.peopleOneByOne.setting.view {}) Samples.allThenNamed =
      .error (.query (.unknownProperty "Person" "name")) := rfl
  obtain ⟨-, -, hone⟩ := getMultiple_refused Samples.peopleOneByOne Samples.allThenNamed
    Samples.fresh h
  obtain ⟨sts, n, w, hsts, hrun, -, hall, -⟩ := hone rfl
  obtain ⟨st, rfl⟩ := List.length_eq_one_iff.mp (show sts.length = 1 by rw [hsts]; rfl)
  obtain rfl := hall rfl
  exact ⟨h, st, w, _, hrun⟩

/-- A select that cannot be written does not keep the one in front of it back. -/
theorem getMultiple_sends_before_bad_select :
    Work.plans .mysql (Samples.peopleOneByOne.setting.view {}) Samples.allThenNamed =
      .error (.query (.unknownProperty "Person" "name")) ∧
    ¬ ∃ w, Samples.peopleOneByOne.watched.getMultiple Samples.allThenNamed Samples.fresh =
      .error (.query (.unknownProperty "Person" "name")) { Samples.fresh with workspace := w } := by
  refine ⟨rfl, ?_⟩
  rintro ⟨w, hw⟩
  obtain ⟨w', hw'⟩ := Samples.peopleOneByOne.watched.fetchOneByOne_run Samples.allThenNamed
    Samples.fresh rfl rfl
  rw [Database.getMultiple_of_not_batches _ rfl rfl, bind_run, hw'] at hw
  have hexecutor := congrArg (fun r => (lastState r).executor.2.length) hw
  cases hexecutor

end EntitySql
