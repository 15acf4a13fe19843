/-
  Several selects, all of which can be written: what the executor is handed for them, and which
  rows go with which select.

  `AnswersEach` tells what happens to selects that are sent one after the other, and
  `AnswersSeveral` what happens to several selects, with the batch in front where there is one.
  Both tell the requests, the answer and the state that the executor is left in, so a run has no
  other request than these. The rows are paired with the entities of the selects at the end only;
  `getMultiple_pairs_rows` says that there are as many of the one as of the other.
-/
import EntitySql.Proofs.SeveralSelects

namespace EntitySql

/-! ## Answers to several selects -/

namespace Executor

variable {σ : Type}

/-- Selects are sent one after the other up to the first failure. The answer is that failure, or
    else the rows of each select in their order. -/
inductive AnswersEach (x : Executor σ) :
    List Statement → σ → List Request → Except Error (List RowSet) → σ → Prop
  /-- There is no select left. -/
  | done (s : σ) : AnswersEach x [] s [] (.ok []) s
  /-- The first select fails, and the others are not sent. -/
  | failed {st : Statement} {sts : List Statement} {s s' : σ} {cause : Error}
      (h : x.rows st s = (.error cause, s')) :
      AnswersEach x (st :: sts) s [.rows st] (.error cause) s'
  /-- The first select answers its rows, and the others are sent. -/
  | answered {st : Statement} {sts : List Statement} {s s' s'' : σ} {rows : RowSet}
      {requests : List Request} {answer : Except Error (List RowSet)}
      (h : x.rows st s = (.ok rows, s')) (rest : AnswersEach x sts s' requests answer s'') :
      AnswersEach x (st :: sts) s (.rows st :: requests) (answer.map (rows :: ·)) s''

/-- Several selects are sent in one batch, or one after the other where the dialect has no batches
    or the executor does not support the batch. The answer is the first failure, or else the rows
    of each select in their order. -/
inductive AnswersSeveral (x : Executor σ) (d : Dialect) (batch : Statement)
    (selects : List Statement) : σ → List Request → Except Error (List RowSet) → σ → Prop
  /-- There is no select. -/
  | nothing (h : selects = []) (s : σ) : AnswersSeveral x d batch selects s [] (.ok []) s
  /-- The batch answers one set for each select. -/
  | together {s s' : σ} {sets : List RowSet} (h : selects ≠ []) (hd : d.batches = true)
      (hrun : x.runBatch batch s = (.ok sets, s')) (hlength : sets.length = selects.length) :
      AnswersSeveral x d batch selects s [.batch batch] (.ok sets) s'
  /-- The batch answers another number of sets. -/
  | miscounted {s s' : σ} {sets : List RowSet} (h : selects ≠ []) (hd : d.batches = true)
      (hrun : x.runBatch batch s = (.ok sets, s')) (hlength : sets.length ≠ selects.length) :
      AnswersSeveral x d batch selects s [.batch batch]
        (.error (.setCount selects.length sets.length)) s'
  /-- The batch fails, and it is not that it is unsupported. -/
  | failed {s s' : σ} {cause : Error} (h : selects ≠ []) (hd : d.batches = true)
      (hrun : x.runBatch batch s = (.error cause, s'))
      (hcause : ∀ what, cause.query? ≠ some (.unsupported what)) :
      AnswersSeveral x d batch selects s [.batch batch] (.error cause) s'
  /-- The batch is unsupported, and the selects are sent one after the other. -/
  | unsupported {s s' s'' : σ} {cause : Error} {what : Unsupported} {requests : List Request}
      {answer : Except Error (List RowSet)} (h : selects ≠ []) (hd : d.batches = true)
      (hrun : x.runBatch batch s = (.error cause, s'))
      (hcause : cause.query? = some (.unsupported what))
      (heach : x.AnswersEach selects s' requests answer s'') :
      AnswersSeveral x d batch selects s (.batch batch :: requests) answer s''
  /-- The dialect has no batches, and the selects are sent one after the other. -/
  | apart {s s' : σ} {requests : List Request} {answer : Except Error (List RowSet)}
      (h : selects ≠ []) (hd : d.batches = false)
      (heach : x.AnswersEach selects s requests answer s') :
      AnswersSeveral x d batch selects s requests answer s'

variable {x : Executor σ} {d : Dialect} {batch : Statement} {sts selects : List Statement}
  {s s' : σ} {requests : List Request} {answer : Except Error (List RowSet)}

/-- Without a failure each select has been sent and has a set. -/
theorem AnswersEach.of_ok (h : x.AnswersEach sts s requests answer s') {sets : List RowSet}
    (hsets : answer = .ok sets) :
    requests = sts.map .rows ∧ sets.length = sts.length := by
  induction h generalizing sets with
  | done =>
    cases hsets
    exact ⟨rfl, rfl⟩
  | failed => cases hsets
  | answered _ _ ih =>
    obtain ⟨rest, hrest, rfl⟩ := map_eq_ok_iff.mp hsets
    obtain ⟨hrequests, hlength⟩ := ih hrest
    rw [hrequests, List.length_cons, hlength]
    exact ⟨rfl, rfl⟩

/-- Without a failure there is one set for each select. -/
theorem AnswersSeveral.length_eq (h : x.AnswersSeveral d batch selects s requests answer s')
    {sets : List RowSet} (hsets : answer = .ok sets) : sets.length = selects.length := by
  cases h with
  | nothing hnone =>
    cases hsets
    rw [hnone]
    rfl
  | together _ _ _ hlength =>
    cases hsets
    exact hlength
  | miscounted => cases hsets
  | failed => cases hsets
  | unsupported _ _ _ _ heach => exact (heach.of_ok hsets).2
  | apart _ _ heach => exact (heach.of_ok hsets).2

/-- Each request of selects that are sent one after the other is that of one of them. -/
theorem AnswersEach.mem_requests (h : x.AnswersEach selects s requests answer s') {r : Request}
    (hr : r ∈ requests) : ∃ st ∈ selects, r = .rows st := by
  induction h with
  | done => cases hr
  | failed => exact ⟨_, List.mem_cons_self, List.mem_singleton.mp hr⟩
  | answered _ _ ih =>
    rcases List.mem_cons.mp hr with rfl | hr
    · exact ⟨_, List.mem_cons_self, rfl⟩
    · obtain ⟨st, hst, hrows⟩ := ih hr
      exact ⟨st, List.mem_cons_of_mem _ hst, hrows⟩

/-- Each request of several selects is the batch, or that of one of them. -/
theorem AnswersSeveral.mem_requests (h : x.AnswersSeveral d batch selects s requests answer s')
    {r : Request} (hr : r ∈ requests) : r = .batch batch ∨ ∃ st ∈ selects, r = .rows st := by
  cases h with
  | nothing => cases hr
  | together => exact .inl (List.mem_singleton.mp hr)
  | miscounted => exact .inl (List.mem_singleton.mp hr)
  | failed => exact .inl (List.mem_singleton.mp hr)
  | unsupported _ _ _ _ heach =>
    rcases List.mem_cons.mp hr with rfl | hr
    · exact .inl rfl
    · exact .inr (heach.mem_requests hr)
  | apart _ _ heach => exact .inr (heach.mem_requests hr)

/-- A watched executor lists the requests of selects that are sent one after the other. -/
theorem answersEach_rowsOfAll (x : Executor σ) (sts : List Statement) (s : σ × List Request) :
    ∃ requests,
      x.AnswersEach sts s.1 requests (x.rowsOfAll sts s.1).1 (x.rowsOfAll sts s.1).2 ∧
      x.watched.rowsOfAll sts s =
        ((x.rowsOfAll sts s.1).1, ((x.rowsOfAll sts s.1).2, s.2 ++ requests)) := by
  induction sts generalizing s with
  | nil => exact ⟨[], .done s.1, by simp [rowsOfAll]⟩
  | cons st sts ih =>
    cases hrows : (x.rows st s.1).1 with
    | error cause =>
      have hwatched : (x.watched.rows st s).1 = .error cause := hrows
      rw [rowsOfAll_of_error hrows, rowsOfAll_of_error hwatched]
      exact ⟨[.rows st], .failed (Prod.ext hrows rfl), rfl⟩
    | ok rows =>
      have hwatched : (x.watched.rows st s).1 = .ok rows := hrows
      obtain ⟨requests, heach, hrest⟩ := ih (x.watched.rows st s).2
      rw [rowsOfAll_of_ok hrows, rowsOfAll_of_ok hwatched, hrest]
      refine ⟨.rows st :: requests, .answered (Prod.ext hrows rfl) heach, ?_⟩
      rw [rows_watched]
      simp [listing]

end Executor

/-! ## Selects that can be written -/

/-- When every selection has a plan, all of them stand in front. -/
theorem Work.plansInFront_of_plans {d : Dialect} {v : View} {xs : List Selection}
    {ps : List Plan} (h : plans d v xs = .ok ps) : plansInFront d v xs = ps := by
  induction xs generalizing ps with
  | nil =>
    cases h
    rfl
  | cons x xs ih =>
    rw [plans_cons] at h
    obtain ⟨p, hp, h⟩ := bind_eq_ok_iff.mp h
    obtain ⟨rest, hrest, h⟩ := bind_eq_ok_iff.mp h
    cases h
    rw [plansInFront, hp]
    dsimp only
    rw [ih hrest]

/-- The plans in front of a selection without one are those of selections. -/
theorem Work.mem_plansInFront {d : Dialect} {v : View} {xs : List Selection} {p : Plan}
    (hp : p ∈ plansInFront d v xs) : ∃ x ∈ xs, x.plan d v = .ok p := by
  induction xs with
  | nil => cases hp
  | cons x xs ih =>
    rw [plansInFront] at hp
    cases hx : x.plan d v with
    | error e =>
      rw [hx] at hp
      cases hp
    | ok q =>
      rw [hx] at hp
      rcases List.mem_cons.mp hp with rfl | hp
      · exact ⟨x, List.mem_cons_self, hx⟩
      · obtain ⟨x', hx', hplan⟩ := ih hp
        exact ⟨x', List.mem_cons_of_mem x hx', hplan⟩

/-- Selects that can be written each have a plan. -/
theorem Act.plans_of_separately {σ : Type} {s : Setting} {xs : List Selection} {a a' : Session σ}
    {selects : List Statement} (h : separately s xs a = .ok selects a') :
    ∃ ps, Work.plans s.dialect (s.view a.workspace.catalog) xs = .ok ps ∧
      selects = ps.map (·.statement s.dialect) := by
  obtain ⟨w, -, hw⟩ := separately_run s xs a
  rw [h] at hw
  cases hps : Work.plans s.dialect (s.view a.workspace.catalog) xs with
  | error e =>
    rw [hps] at hw
    cases hw
  | ok ps =>
    rw [hps] at hw
    cases hw
    exact ⟨ps, rfl, rfl⟩

/-- Several selections have as many plans. -/
theorem Work.length_plans {d : Dialect} {v : View} {xs : List Selection} {ps : List Plan}
    (h : plans d v xs = .ok ps) : ps.length = xs.length := by
  induction xs generalizing ps with
  | nil =>
    cases h
    rfl
  | cons x xs ih =>
    rw [plans_cons] at h
    obtain ⟨p, -, h⟩ := bind_eq_ok_iff.mp h
    obtain ⟨rest, hrest, h⟩ := bind_eq_ok_iff.mp h
    cases h
    rw [List.length_cons, List.length_cons, ih hrest]

/-! ## Runs -/

namespace Database

variable {σ : Type} (db : Database σ)

/-- What becomes of the answer to a batch: sets as many as there are selects, nothing when the
    batch is unsupported, or a failure. -/
def batchAnswer (n : Nat) : Except Error (List RowSet) → Except Error (Option (List RowSet))
  | .ok sets => if sets.length = n then .ok (some sets) else .error (.setCount n sets.length)
  | .error cause =>
    match cause.query? with
    | some (.unsupported _) => .ok none
    | _ => .error cause

theorem batchAnswer_of_unsupported {n : Nat} {cause : Error} {what : Unsupported}
    (h : cause.query? = some (.unsupported what)) : batchAnswer n (.error cause) = .ok none := by
  unfold batchAnswer
  dsimp only
  rw [h]

theorem batchAnswer_of_error {n : Nat} {cause : Error}
    (h : ∀ what, cause.query? ≠ some (.unsupported what)) :
    batchAnswer n (.error cause) = .error cause := by
  unfold batchAnswer
  dsimp only
  split
  · exact absurd ‹_› (h _)
  · rfl

/-- The sending of a batch, with what becomes of its answer. -/
def sendBatch (n : Nat) (batch : Statement) : Act σ (Option (List RowSet)) := fun s =>
  match Act.fetchBatch db.executor batch s with
  | .ok sets s =>
    if sets.length = n then .ok (some sets) s else .error (.setCount n sets.length) s
  | .error e s =>
    match e.query? with
    | some (.unsupported _) =>
      (do Act.note .debug (e.fullMessage ++ ", sending the selects one by one")
          return none : Act σ (Option (List RowSet))) s
    | _ => .error e s

theorem fetchAtOnce_eq (xs : List Selection) :
    db.fetchAtOnce xs = (do
      let batch ← Act.statement do
        return db.setting.dialect.separator.intercalate (← Work.selections db.setting xs)
      db.sendBatch xs.length batch) := rfl

theorem asks_sendBatch (n : Nat) (batch : Statement) :
    Act.Asks (db.sendBatch n batch) fun s =>
      (batchAnswer n (db.executor.runBatch batch s).1, (db.executor.runBatch batch s).2) := by
  intro a
  obtain ⟨w₁, hc₁, hw₁⟩ := Act.asks_fetchBatch db.executor batch a
  unfold sendBatch batchAnswer
  rw [hw₁]
  dsimp only
  generalize db.executor.runBatch batch a.executor = r
  obtain ⟨answer, s⟩ := r
  cases answer with
  | ok sets =>
    refine ⟨w₁, hc₁, ?_⟩
    dsimp only [ended]
    split <;> rfl
  | error cause =>
    dsimp only [ended]
    split
    · obtain ⟨w₂, hc₂, hw₂⟩ := (Act.answers_note .debug
        (cause.fullMessage ++ ", sending the selects one by one")).map (fun _ => none)
        ⟨w₁, a.drawn, s⟩
      exact ⟨w₂, hc₂.trans hc₁, hw₂⟩
    · exact ⟨w₁, hc₁, rfl⟩

/-- The batch of selections that can be written. -/
theorem batch_run {s : Setting} {xs : List Selection} {a : Session σ} {texts : List String}
    {w : Workspace}
    (h : Work.selections s xs { a.workspace with parameters := {} } = .ok texts w) :
    Act.statement (do return s.dialect.separator.intercalate (← Work.selections s xs)) a =
      .ok ⟨s.dialect.separator.intercalate texts, w.parameters⟩ { a with workspace := w } := by
  unfold Act.statement
  rw [bind_run]
  change ((Act.work _) >>= fun sql => _) _ = _
  rw [bind_run, Act.work, bind_run, h]
  rfl

/-- The selections are written, and their batch is sent. -/
theorem fetchAtOnce_watched {xs : List Selection} {a : Session (σ × List Request)}
    {texts : List String} {w : Workspace} {batch : Statement}
    (h : Work.selections db.setting xs { a.workspace with parameters := {} } = .ok texts w)
    (hbatch : batch = ⟨db.setting.dialect.separator.intercalate texts, w.parameters⟩) :
    ∃ w', w'.catalog = w.catalog ∧
      db.watched.fetchAtOnce xs a =
        ended (batchAnswer xs.length (db.executor.runBatch batch a.executor.1).1)
          ⟨w', a.drawn, (db.executor.runBatch batch a.executor.1).2,
            a.executor.2 ++ [.batch batch]⟩ := by
  obtain ⟨w', hc', hw'⟩ := db.watched.asks_sendBatch xs.length batch { a with workspace := w }
  refine ⟨w', hc', ?_⟩
  rw [fetchAtOnce_eq, bind_run, db.setting_watched, batch_run h, ← hbatch]
  exact hw'

/-- Selects with plans are sent one after the other. -/
theorem fetchOneByOne_of_plans {xs : List Selection} {a : Session (σ × List Request)}
    {ps : List Plan}
    (h : Work.plans db.setting.dialect (db.setting.view a.workspace.catalog) xs = .ok ps) :
    ∃ w requests answer s,
      db.executor.AnswersEach (ps.map (·.statement db.setting.dialect)) a.executor.1 requests
        answer s ∧
      db.watched.fetchOneByOne xs a =
        ended answer ⟨w, a.drawn, s, a.executor.2 ++ requests⟩ := by
  obtain ⟨w, hw⟩ := db.watched.fetchOneByOne_run xs a rfl rfl
  rw [db.setting_watched, h, Work.plansInFront_of_plans h] at hw
  obtain ⟨requests, heach, hlist⟩ := Executor.answersEach_rowsOfAll db.executor
    (ps.map (·.statement db.setting.dialect)) a.executor
  rw [db.executor_watched, hlist] at hw
  refine ⟨w, requests, _, _, heach, ?_⟩
  rw [hw]
  cases (db.executor.rowsOfAll _ a.executor.1).1 <;> rfl

/-- Several selects with plans are sent as told, and the reader pairs their entities with the
    sets. -/
theorem getMultiple_of_plans {xs : List Selection} {a : Session (σ × List Request)}
    {ps : List Plan}
    (h : Work.plans db.setting.dialect (db.setting.view a.workspace.catalog) xs = .ok ps)
    {texts : List String} {w : Workspace}
    (hw : Work.selections db.setting xs { a.workspace with parameters := {} } = .ok texts w)
    {batch : Statement}
    (hbatch : batch = ⟨db.setting.dialect.separator.intercalate texts, w.parameters⟩) :
    ∃ w' requests answer s,
      db.executor.AnswersSeveral db.setting.dialect batch
        (ps.map (·.statement db.setting.dialect)) a.executor.1 requests answer s ∧
      db.watched.getMultiple xs a =
        ended (answer.map fun sets => ⟨(xs.map (·.entity)).zip sets⟩)
          ⟨w', a.drawn, s, a.executor.2 ++ requests⟩ := by
  have hlength := Work.length_plans h
  have hview : db.setting.view w.catalog = db.setting.view a.workspace.catalog := by
    obtain ⟨w', hw', hv', -⟩ :=
      Work.selections_write db.setting xs { a.workspace with parameters := {} }
    rw [hw, h] at hw'
    cases hw'
    exact hv'
  cases hxs : xs.isEmpty with
  | true =>
    rw [List.isEmpty_iff] at hxs
    subst hxs
    cases h
    refine ⟨a.workspace, [], .ok [], a.executor.1, .nothing rfl _, ?_⟩
    rw [List.append_nil]
    rfl
  | false =>
    have hsome : ps.map (·.statement db.setting.dialect) ≠ [] := by
      rintro hnone
      rw [List.map_eq_nil_iff.mp hnone] at hlength
      rw [List.length_eq_zero_iff.mp hlength.symm] at hxs
      cases hxs
    cases hb : db.setting.dialect.batches with
    | false =>
      obtain ⟨w', requests, answer, s, heach, hrun⟩ := db.fetchOneByOne_of_plans h
      refine ⟨w', requests, answer, s, .apart hsome hb heach, ?_⟩
      rw [db.watched.getMultiple_of_not_batches hxs hb, bind_run, hrun]
      cases answer <;> rfl
    | true =>
      obtain ⟨w₁, hc₁, hw₁⟩ := db.fetchAtOnce_watched hw hbatch
      rw [← List.length_map (·.statement db.setting.dialect)] at hlength
      rw [db.watched.getMultiple_of_batches hxs hb, bind_run, hw₁]
      cases hanswer : (db.executor.runBatch batch a.executor.1).1 with
      | ok sets =>
        by_cases hsets : sets.length = xs.length
        · rw [batchAnswer, if_pos hsets]
          exact ⟨w₁, [.batch batch], .ok sets, _,
            .together hsome hb (Prod.ext hanswer rfl) (hsets.trans hlength.symm), rfl⟩
        · rw [batchAnswer, if_neg hsets, ← hlength]
          exact ⟨w₁, [.batch batch], _, _,
            .miscounted hsome hb (Prod.ext hanswer rfl) (fun h => hsets (h.trans hlength)), rfl⟩
      | error cause =>
        by_cases hcause : ∃ what, cause.query? = some (.unsupported what)
        · -- the selects are sent to the executor as the batch has left it
          obtain ⟨what, hwhat⟩ := hcause
          have hplans : Work.plans db.setting.dialect (db.setting.view w₁.catalog) xs = .ok ps := by
            rw [hc₁, hview, h]
          obtain ⟨w₂, requests, answer, s, heach, hrun⟩ := db.fetchOneByOne_of_plans
            (a := ⟨w₁, a.drawn, (db.executor.runBatch batch a.executor.1).2,
              a.executor.2 ++ [.batch batch]⟩) hplans
          rw [batchAnswer_of_unsupported hwhat]
          refine ⟨w₂, .batch batch :: requests, answer, s,
            .unsupported hsome hb (Prod.ext hanswer rfl) hwhat heach, ?_⟩
          dsimp only [ended] at hrun ⊢
          rw [bind_run, hrun, List.append_assoc, List.singleton_append]
          cases answer <;> rfl
        · rw [not_exists] at hcause
          rw [batchAnswer_of_error hcause]
          exact ⟨w₁, [.batch batch], _, _, .failed hsome hb (Prod.ext hanswer rfl) hcause, rfl⟩

end Database

/-- Several selects that can be written are sent as `AnswersSeveral` says, with the batch of their
    texts and with each of them alone. The executor is handed nothing else, and a failure is the
    answer. Otherwise the reader has as many sets as there are selects, the rows of each one in
    order with its entity. -/
theorem getMultiple_pairs_rows {σ : Type} (db : Database σ) (xs : List Selection)
    (a : Session (σ × List Request)) {selects : List Statement} {a₁ : Session (σ × List Request)}
    (h : Act.separately db.setting xs a = .ok selects a₁) :
    selects.length = xs.length ∧
    ∃ texts w batch requests answer s w' a',
      Work.selections db.setting xs { a.workspace with parameters := {} } = .ok texts w ∧
      batch = ⟨db.setting.dialect.separator.intercalate texts, w.parameters⟩ ∧
      db.executor.AnswersSeveral db.setting.dialect batch selects a.executor.1 requests answer s ∧
      a' = ⟨w', a.drawn, s, a.executor.2 ++ requests⟩ ∧
      (∀ cause, answer = .error cause → db.watched.getMultiple xs a = .error cause a') ∧
      ∀ sets, answer = .ok sets → ∃ reader,
        db.watched.getMultiple xs a = .ok reader a' ∧ reader.remaining = xs.length ∧
        reader.sets.map (·.1) = xs.map (·.entity) ∧ reader.sets.map (·.2) = sets := by
  obtain ⟨ps, hps, rfl⟩ := Act.plans_of_separately h
  have hlength : (ps.map (·.statement db.setting.dialect)).length = xs.length := by
    rw [List.length_map, Work.length_plans hps]
  obtain ⟨w, hw, -, -⟩ :=
    Work.selections_write db.setting xs { a.workspace with parameters := {} }
  rw [hps] at hw
  obtain ⟨w', requests, answer, s, hseveral, hrun⟩ := db.getMultiple_of_plans hps hw rfl
  refine ⟨hlength, _, w, _, requests, answer, s, w', _, hw, rfl, hseveral, rfl, ?_, ?_⟩
  · rintro cause rfl
    exact hrun
  · rintro sets rfl
    have hsets : (xs.map (·.entity)).length = sets.length := by
      rw [List.length_map, hseveral.length_eq rfl, hlength]
    refine ⟨⟨(xs.map (·.entity)).zip sets⟩, ?_, ?_, ?_, ?_⟩
    · exact hrun
    · unfold ResultReader.remaining
      rw [List.length_zip, ← hsets, Nat.min_self, List.length_map]
    · exact List.map_fst_zip (Nat.le_of_eq hsets)
    · exact List.map_snd_zip (Nat.le_of_eq hsets.symm)

/-! ## A sample -/

namespace Samples

/-- People in a database with batches, behind a connection that does not support them. -/
def peopleUnsplit : Database Recorder where
  setting := { people with dialect := .generic }
  identifiers _ := Uuid.nil
  executor := Recorder.plainExecutor

/-- All people, twice. -/
def allTwice : List Selection := [{ entity := ⟨"Person"⟩ }, { entity := ⟨"Person"⟩ }]

/-- A person of three years. -/
def child : Row := ⟨["age"], [.int32 3]⟩

/-- A connection that answers with the child first and then with nobody. -/
def childThenNobody : Session (Recorder × List Request) where
  executor := ({ responses := [.items [.row child], .items []] }, [])

/-- The select of all people. -/
def everyone : Statement := ⟨"SELECT \"Person\".\"age\" FROM \"Person\"", {}⟩

end Samples

/-- The batch is unsupported, and the child goes with the first of the two selects. -/
theorem getMultiple_pairs_rows_people :
    (∃ a₁, Act.separately Samples.peopleUnsplit.setting Samples.allTwice Samples.childThenNobody =
      .ok [Samples.everyone, Samples.everyone] a₁) ∧
    ∃ batch reader a', Samples.peopleUnsplit.watched.getMultiple Samples.allTwice
        Samples.childThenNobody = .ok reader a' ∧
      a'.executor.2 = [.batch batch, .rows Samples.everyone, .rows Samples.everyone] ∧
      reader.sets.map (·.2) = [[Samples.child], []] := by
  have hselects : ∃ a₁, Act.separately Samples.peopleUnsplit.setting Samples.allTwice
      Samples.childThenNobody = .ok [Samples.everyone, Samples.everyone] a₁ := ⟨_, rfl⟩
  obtain ⟨a₁, h⟩ := hselects
  obtain ⟨-, texts, w, batch, requests, answer, s, w', a', -, -, hseveral, rfl, -, hok⟩ :=
    getMultiple_pairs_rows Samples.peopleUnsplit Samples.allTwice Samples.childThenNobody h
  refine ⟨⟨a₁, h⟩, batch, ?_⟩
  cases hseveral with
  | nothing hnone => cases hnone
  | together _ _ hrun => cases hrun
  | miscounted _ _ hrun => cases hrun
  | failed _ _ hrun hcause =>
    cases hrun
    exact absurd rfl (hcause .resultSets)
  | apart _ hd => cases hd
  | unsupported _ _ hrun _ heach =>
    cases hrun
    cases heach with
    | failed hrows => cases hrows
    | answered hrows hrest =>
      cases hrows
      cases hrest with
      | failed hrows => cases hrows
      | answered hrows hrest =>
        cases hrows
        cases hrest
        obtain ⟨reader, hrun, -, -, hsets⟩ := hok _ rfl
        exact ⟨reader, _, hrun, rfl, hsets⟩

end EntitySql
