/-
  Statements follow their plans.

  A window is written as the clause of its pieces (`draft_writeWindow`), so that selects, counts
  and deletions are resolutions of mappings and clauses in sequence. `selection_follows`,
  `count_follows` and `deleteWhere_follows` say that each fails for the reason that its plan
  gives, or else writes and binds what the plan says.
-/
import EntitySql.Proofs.StatementPlan

namespace EntitySql

/-! ## Windows -/

/-- The fragment of a piece. -/
def WindowPiece.fragment : WindowPiece → Fragment
  | .text s => .text s
  | .bound base n =>
    match Dialect.windowValue n with
    | .ok v => .operand base v
    | .error e => .refuse e

namespace Work

theorem writeWindow_eq (s : Setting) (pieces : List WindowPiece) (w : Workspace) (text : String) :
    Writing.all s (pieces.map (·.fragment)) ⟨w, text⟩ =
      ended ((s.dialect.writeWindow pieces ⟨text, w.parameters⟩).2.mapError .query)
        ⟨{ w with parameters := (s.dialect.writeWindow pieces ⟨text, w.parameters⟩).1.parameters },
          (s.dialect.writeWindow pieces ⟨text, w.parameters⟩).1.text⟩ := by
  induction pieces generalizing w text with
  | nil => rfl
  | cons piece pieces ih =>
    rw [List.map_cons, Writing.all, bind_run]
    cases piece with
    | text t => exact ih w (text ++ t)
    | bound base n =>
      rw [WindowPiece.fragment, Dialect.writeWindow]
      cases Dialect.windowValue n with
      | error e => rfl
      | ok v =>
        exact ih { w with parameters := w.parameters.bind base (s.dialect.bindValue v) }
          (text ++ (s.dialect.bindParameter w.parameters base v).1)

/-- A draft of pieces is the clause of their fragments. -/
theorem draft_writeWindow (s : Setting) (pieces : List WindowPiece) :
    draft (s.dialect.writeWindow pieces) = clause s (pieces.map (·.fragment)) := by
  funext w
  unfold draft clause
  rw [writeWindow_eq]
  dsimp only
  cases (s.dialect.writeWindow pieces ⟨"", w.parameters⟩).2 <;> rfl

end Work

namespace SelectPlan

theorem checkAll_window (d : Dialect) (ms : Mappings) (parts : SelectParts) (skip take : UInt64) :
    Fragment.checkAll ms ((d.window parts skip take).map (·.fragment)) =
      (boundOperands (bounds d skip take)).map fun _ => () := by
  unfold Dialect.window bounds
  cases d.windowForm <;>
    cases hs : Dialect.windowValue skip <;> cases ht : Dialect.windowValue take <;>
    simp [WindowPiece.fragment, Fragment.checkAll, Fragment.check, boundOperands, hs, ht, Except.map]

/-- Two bounds have operands when both have a value. -/
theorem boundOperands_pair_eq_ok {b b' : String} {n n' : UInt64} {ops : List (String × Value)}
    (h : boundOperands [(b, n), (b', n')] = .ok ops) :
    ∃ v v', Dialect.windowValue n = .ok v ∧ Dialect.windowValue n' = .ok v' ∧
      ops = [(b, v), (b', v')] := by
  cases hn : Dialect.windowValue n with
  | error e => simp [boundOperands, hn] at h
  | ok v =>
    cases hn' : Dialect.windowValue n' with
    | error e => simp [boundOperands, hn, hn', Except.map] at h
    | ok v' =>
      refine ⟨v, v', rfl, rfl, ?_⟩
      simpa [boundOperands, hn, hn', Except.map] using h.symm

theorem operands_window (d : Dialect) (parts : SelectParts) {skip take : UInt64}
    {ops : List (String × Value)} (h : boundOperands (bounds d skip take) = .ok ops) :
    Fragment.operands ((d.window parts skip take).map (·.fragment)) = ops := by
  unfold bounds at h
  unfold Dialect.window
  cases hf : d.windowForm <;> rw [hf] at h <;>
    obtain ⟨v, v', hv, hv', rfl⟩ := boundOperands_pair_eq_ok h <;>
    simp [WindowPiece.fragment, Fragment.binds, hv, hv']

/-- The pieces of a window, written behind the condition, come to its layout. -/
theorem fill_layout_window (d : Dialect) (ms : Mappings) (ps : Parameters) {x : SelectPlan}
    (hx : x.IsComplete) {skip take : UInt64} {ops : List (String × Value)}
    (h : boundOperands (bounds d skip take) = .ok ops) :
    (Fragment.layout d ms 0 ((d.window (x.parts d ps) skip take).map (·.fragment))).fill
        (d.content (ps.bindAll (d.bound x.operands)) ops) =
      (x.windowLayout d).fill (d.content ps (x.operands ++ ops)) := by
  obtain ⟨hfirst, hsecond⟩ := x.content_bounds d ps ops
  have hselect := fill_layout d ps hx ops
  have hwhere := fill_whereLayout d ps hx ops
  unfold bounds at h
  unfold Dialect.window windowLayout
  cases hf : d.windowForm <;> rw [hf] at h <;>
    obtain ⟨v, v', hv, hv', -⟩ := boundOperands_pair_eq_ok h <;>
    simp [WindowPiece.fragment, Fragment.layout, Fragment.parts, Fragment.binds, hv, hv', hfirst,
      hsecond, hselect, hwhere]

end SelectPlan

/-! ## Parts of statements -/

namespace Work

/-- A condition that can be written is, as its plan says. -/
theorem clause_of_compiles (s : Setting) {p : Predicate} {w : Workspace}
    (h : p.Compiles (s.view w.catalog).mapping) :
    ∃ w', clause s p.fragments w =
        .ok ((p.plan s.dialect (s.view w.catalog).mapping).text s.dialect w.parameters) w' ∧
      w'.parameters =
        (p.plan s.dialect (s.view w.catalog).mapping).parameters s.dialect w.parameters := by
  obtain ⟨w', hw', -, hp'⟩ := clause_follows s p.fragments w
  have hplan := (p.plan?_eq_ok_iff s.dialect (s.view w.catalog).mapping _).mpr ⟨h, rfl⟩
  rw [Predicate.plan?_eq_clausePlan, hplan] at hw' hp'
  exact ⟨w', hw', hp' _ rfl⟩

/-- Only a condition that can be written is. -/
theorem compiles_of_clause {s : Setting} {p : Predicate} {w w' : Workspace} {text : String}
    (h : clause s p.fragments w = .ok text w') : p.Compiles (s.view w.catalog).mapping := by
  obtain ⟨w₁, hw₁, -, -⟩ := clause_follows s p.fragments w
  rw [h, Predicate.plan?_eq_clausePlan] at hw₁
  cases hplan : p.plan? s.dialect (s.view w.catalog).mapping with
  | error e => rw [hplan] at hw₁; cases hw₁
  | ok plan => exact ((p.plan?_eq_ok_iff s.dialect _ plan).mp hplan).1

theorem condition_writes (s : Setting) (p : Option Predicate) (w : Workspace) :
    Writes s (condition s p) w (p.mapM (Predicate.plan? s.dialect (s.view w.catalog).mapping))
      (fun c => c.map (·.text s.dialect w.parameters)) (fun c => (c.map (·.operands)).getD []) := by
  cases p with
  | none => exact ⟨w, rfl, rfl, fun _ h => by cases h; rfl⟩
  | some p =>
    obtain ⟨w', hw, hv, hp⟩ := clause_follows s p.fragments w
    rw [Predicate.plan?_eq_clausePlan] at hw hp
    refine ⟨w', ?_, hv, ?_⟩
    · rw [condition, bind_run, hw, Option.mapM_some]
      cases p.plan? s.dialect (s.view w.catalog).mapping <;> rfl
    · intro c hc
      rw [Option.mapM_some] at hc
      cases hplan : p.plan? s.dialect (s.view w.catalog).mapping with
      | error e => rw [hplan] at hc; cases hc
      | ok plan =>
        rw [hplan] at hc
        cases hc
        exact hp plan hplan

theorem order_writes (s : Setting) (terms : List OrderTerm) (w : Workspace) :
    Writes s (order s terms) w (OrderTerm.allText? s.dialect (s.view w.catalog).mapping terms)
      id (fun _ => []) := by
  obtain ⟨w', hw, hv, hp⟩ := clause_follows s (OrderTerm.allFragments terms) w
  refine ⟨w', ?_, hv, ?_⟩
  · rw [order, hw]
    unfold OrderTerm.allText? clausePlan
    cases Fragment.checkAll (s.view w.catalog).mapping (OrderTerm.allFragments terms) with
    | error e => rfl
    | ok _ =>
      simp only [Except.map, Plan.text, Fragment.plan, OrderTerm.fill_layout_allFragments]
      rfl
  · intro text ht
    unfold OrderTerm.allText? at ht
    unfold clausePlan at hp
    cases hc : Fragment.checkAll (s.view w.catalog).mapping (OrderTerm.allFragments terms) with
    | error e => rw [hc] at ht; cases ht
    | ok _ =>
      rw [hc] at hp
      have hplan := hp _ rfl
      dsimp only [Fragment.plan] at hplan
      rw [hplan, OrderTerm.operands_allFragments]

/-- The parts of a select whose mapping is known. -/
def partsOf (s : Setting) (e : EntityType) (m : Mapping) (p : Option Predicate)
    (terms : List OrderTerm) : Work SelectParts := do
  let columns ← columns s e
  let condition ← condition s p
  let order ← order s terms
  return { mapping := m, columns, condition, order }

theorem partsOf_writes (s : Setting) (e : EntityType) {m : Mapping} (p : Option Predicate)
    (terms : List OrderTerm) (w : Workspace) (hm : (s.view w.catalog).mapping e = .ok m) :
    Writes s (partsOf s e m p terms) w (SelectPlan.of s.dialect (s.view w.catalog) e p terms)
      (fun x => x.parts s.dialect w.parameters) (·.operands) := by
  unfold Writes partsOf SelectPlan.of
  rw [hm]
  obtain ⟨w₁, hw₁, hv₁, hp₁⟩ := answers_columns s e w
  rw [bind_run, hw₁]
  cases hcols : (s.view w.catalog).columns e with
  | error cause => exact ⟨w₁, rfl, hv₁, fun x hx => by cases hx⟩
  | ok cols =>
    obtain ⟨w₂, hw₂, hv₂, hp₂⟩ := condition_writes s p w₁
    rw [hv₁] at hw₂ hp₂ hv₂
    rw [hp₁] at hw₂ hp₂
    dsimp only [ended]
    rw [bind_run, hw₂]
    cases hc : p.mapM (Predicate.plan? s.dialect (s.view w.catalog).mapping) with
    | error cause => exact ⟨w₂, rfl, hv₂, fun x hx => by cases hx⟩
    | ok c =>
      obtain ⟨w₃, hw₃, hv₃, hp₃⟩ := order_writes s terms w₂
      rw [hv₂] at hw₃ hp₃ hv₃
      dsimp only [ended, Except.map]
      rw [bind_run, hw₃]
      cases ho : OrderTerm.allText? s.dialect (s.view w.catalog).mapping terms with
      | error cause => exact ⟨w₃, rfl, hv₃, fun x hx => by cases hx⟩
      | ok order =>
        refine ⟨w₃, rfl, hv₃, fun x hx => ?_⟩
        cases hx
        exact (hp₃ order ho).trans (hp₂ c hc)

theorem select_eq (s : Setting) (e : EntityType) (p : Option Predicate) (terms : List OrderTerm) :
    select s e p terms = (do
      let m ← mapping s e
      let parts ← partsOf s e m p terms
      return s.dialect.select parts) := by
  simp only [select, partsOf, bind_assoc, pure_bind]

theorem windowParts_eq (s : Setting) (e : EntityType) (p : Option Predicate)
    (terms : List OrderTerm) :
    windowParts s e p terms = (do
      let m ← mapping s e
      if terms.isEmpty then
        note .warn ("Refused to page `" ++ m.entity ++ "` without a sort")
        refuse (.missingSort m.entity)
      else partsOf s e m p terms) := rfl

theorem select_follows (s : Setting) (e : EntityType) (p : Option Predicate)
    (terms : List OrderTerm) (w : Workspace) :
    Follows s (select s e p terms) w
      ((SelectPlan.of s.dialect (s.view w.catalog) e p terms).map (·.plan s.dialect)) := by
  unfold Follows Writes
  rw [select_eq, bind_run]
  obtain ⟨w₁, hw₁, hv₁, hp₁⟩ := answers_mapping s e w
  rw [hw₁]
  cases hm : (s.view w.catalog).mapping e with
  | error cause =>
    have hx : SelectPlan.of s.dialect (s.view w.catalog) e p terms = .error cause := by
      rw [SelectPlan.of, hm]
      rfl
    rw [hx]
    exact ⟨w₁, rfl, hv₁, fun x hx => by cases hx⟩
  | ok m =>
    obtain ⟨w₂, hw₂, hv₂, hp₂⟩ := partsOf_writes s e p terms w₁ (hv₁ ▸ hm)
    rw [hv₁] at hw₂ hv₂ hp₂
    rw [hp₁] at hw₂ hp₂
    dsimp only [ended]
    rw [bind_run, hw₂]
    cases hx : SelectPlan.of s.dialect (s.view w.catalog) e p terms with
    | error cause => exact ⟨w₂, rfl, hv₂, fun x hx => by cases hx⟩
    | ok x =>
      refine ⟨w₂, ?_, hv₂, fun plan hplan => ?_⟩
      · simp only [ended, Except.map, SelectPlan.text_plan _ _ (SelectPlan.isComplete_of hx)]
        rfl
      · cases hplan
        exact hp₂ x hx

theorem windowParts_writes (s : Setting) (e : EntityType) (p : Option Predicate)
    (terms : List OrderTerm) (w : Workspace) :
    Writes s (windowParts s e p terms) w
      (SelectPlan.ofWindow s.dialect (s.view w.catalog) e p terms)
      (fun x => x.parts s.dialect w.parameters) (·.operands) := by
  unfold Writes SelectPlan.ofWindow
  rw [windowParts_eq, bind_run]
  obtain ⟨w₁, hw₁, hv₁, hp₁⟩ := answers_mapping s e w
  rw [hw₁]
  cases hm : (s.view w.catalog).mapping e with
  | error cause => exact ⟨w₁, rfl, hv₁, fun x hx => by cases hx⟩
  | ok m =>
    cases terms with
    | nil => exact ⟨_, rfl, hv₁, fun x hx => by cases hx⟩
    | cons t terms =>
      obtain ⟨w₂, hw₂, hv₂, hp₂⟩ := partsOf_writes s e p (t :: terms) w₁ (hv₁ ▸ hm)
      rw [hv₁] at hw₂ hv₂ hp₂
      rw [hp₁] at hw₂ hp₂
      exact ⟨w₂, hw₂, hv₂, hp₂⟩

/-- A window is written behind its condition as its plan says. -/
theorem writeSet_run (s : Setting) (ps : Parameters) {x : SelectPlan} (hx : x.IsComplete)
    (skip take : UInt64) (w : Workspace)
    (hw : w.parameters = ps.bindAll (s.dialect.bound x.operands)) :
    ∃ w', draft (s.dialect.writeSet (x.parts s.dialect ps) skip take) w =
        ended ((x.windowPlan s.dialect skip take).map (·.text s.dialect ps)) w' ∧
      s.view w'.catalog = s.view w.catalog ∧
      ∀ plan, x.windowPlan s.dialect skip take = .ok plan →
        w'.parameters = plan.parameters s.dialect ps := by
  have hdraft : draft (s.dialect.writeSet (x.parts s.dialect ps) skip take) =
      clause s ((s.dialect.window (x.parts s.dialect ps) skip take).map (·.fragment)) :=
    draft_writeWindow s _
  obtain ⟨w', hw', hv', hp'⟩ := clause_follows s
    ((s.dialect.window (x.parts s.dialect ps) skip take).map (·.fragment)) w
  unfold clausePlan at hw' hp'
  rw [SelectPlan.checkAll_window] at hw' hp'
  rw [hdraft, hw']
  unfold SelectPlan.windowPlan
  cases hops : SelectPlan.boundOperands (SelectPlan.bounds s.dialect skip take) with
  | error e => exact ⟨w', rfl, hv', fun plan hplan => by cases hplan⟩
  | ok ops =>
    have hoperands := SelectPlan.operands_window s.dialect (x.parts s.dialect ps) hops
    refine ⟨w', ?_, hv', fun plan hplan => ?_⟩
    · have htext := SelectPlan.fill_layout_window s.dialect (s.view w.catalog).mapping ps hx hops
      simp only [Except.map, Plan.text, Fragment.plan, hoperands, hw, htext]
    · cases hplan
      rw [hops] at hp'
      have hbound := hp' _ rfl
      dsimp only [Fragment.plan] at hbound
      rw [hbound, hoperands, hw, Plan.parameters, s.dialect.bound_append,
        Parameters.bindAll_append]

theorem selectSet_follows (s : Setting) (e : EntityType) (p : Option Predicate)
    (terms : List OrderTerm) (first count : UInt64) (w : Workspace) :
    Follows s (selectSet s e p terms first count) w
      (setPlan s.dialect (s.view w.catalog) e p terms first count) := by
  unfold Follows Writes selectSet setPlan
  by_cases hc : count = 0
  · rw [if_pos hc, if_pos hc]
    exact ⟨w, rfl, rfl, fun x hx => by cases hx⟩
  · rw [if_neg hc, if_neg hc, bind_run]
    obtain ⟨w₁, hw₁, hv₁, hp₁⟩ := windowParts_writes s e p terms w
    rw [hw₁]
    cases hx : SelectPlan.ofWindow s.dialect (s.view w.catalog) e p terms with
    | error cause => exact ⟨w₁, rfl, hv₁, fun x hx => by cases hx⟩
    | ok x =>
      obtain ⟨w₂, hw₂, hv₂, hp₂⟩ := writeSet_run s w.parameters (SelectPlan.isComplete_ofWindow hx) first
        count w₁ (hp₁ x hx)
      exact ⟨w₂, hw₂, hv₂.trans hv₁, hp₂⟩

theorem selectPage_follows (s : Setting) (e : EntityType) (p : Option Predicate)
    (terms : List OrderTerm) (page rows : UInt64) (w : Workspace) :
    Follows s (selectPage s e p terms page rows) w
      (pagePlan s.dialect (s.view w.catalog) e p terms page rows) := by
  unfold Follows Writes selectPage pagePlan
  by_cases hc : page = 0 ∨ rows = 0
  · rw [if_pos hc, if_pos hc]
    exact ⟨w, rfl, rfl, fun x hx => by cases hx⟩
  · rw [if_neg hc, if_neg hc, bind_run]
    obtain ⟨w₁, hw₁, hv₁, hp₁⟩ := windowParts_writes s e p terms w
    rw [hw₁]
    cases hx : SelectPlan.ofWindow s.dialect (s.view w.catalog) e p terms with
    | error cause => exact ⟨w₁, rfl, hv₁, fun x hx => by cases hx⟩
    | ok x =>
      cases hskip : Dialect.pageStart page rows with
      | error cause =>
        refine ⟨w₁, ?_, hv₁, fun x hx => by cases hx⟩
        simp only [ended, Except.map, draft, Dialect.writePage, hskip]
        rfl
      | ok skip =>
        have hdraft : draft (s.dialect.writePage (x.parts s.dialect w.parameters) page rows) =
            draft (s.dialect.writeSet (x.parts s.dialect w.parameters) skip rows) := by
          unfold draft Dialect.writePage
          rw [hskip]
        obtain ⟨w₂, hw₂, hv₂, hp₂⟩ := writeSet_run s w.parameters (SelectPlan.isComplete_ofWindow hx) skip
          rows w₁ (hp₁ x hx)
        rw [← hdraft] at hw₂
        exact ⟨w₂, hw₂, hv₂.trans hv₁, hp₂⟩

/-! ## Statements -/

/-- A selection follows its plan. -/
theorem selection_follows (s : Setting) (x : Selection) (w : Workspace) :
    Follows s (selection s x) w (x.plan s.dialect (s.view w.catalog)) := by
  unfold selection Selection.plan
  match x.window with
  | none => exact select_follows s x.entity x.condition x.order w
  | some (.page page rows) =>
    exact selectPage_follows s x.entity x.condition x.order page rows w
  | some (.set first count) =>
    exact selectSet_follows s x.entity x.condition x.order first count w

/-- A count follows its plan. -/
theorem count_follows (s : Setting) (e : EntityType) (p : Option Predicate) (w : Workspace) :
    Follows s (count s e p) w (countPlan s.dialect (s.view w.catalog) e p) := by
  unfold Follows Writes count countPlan
  obtain ⟨w₁, hw₁, hv₁, hp₁⟩ := answers_mapping s e w
  rw [bind_run, hw₁]
  cases hm : (s.view w.catalog).mapping e with
  | error cause => exact ⟨w₁, rfl, hv₁, fun x hx => by cases hx⟩
  | ok m =>
    obtain ⟨w₂, hw₂, hv₂, hp₂⟩ := condition_writes s p w₁
    rw [hv₁] at hw₂ hp₂ hv₂
    rw [hp₁] at hw₂ hp₂
    dsimp only [ended]
    rw [bind_run, hw₂]
    cases hc : p.mapM (Predicate.plan? s.dialect (s.view w.catalog).mapping) with
    | error cause => exact ⟨w₂, rfl, hv₂, fun x hx => by cases hx⟩
    | ok c =>
      refine ⟨w₂, ?_, hv₂, fun plan hplan => ?_⟩
      · have hcomplete : SelectPlan.IsComplete
            { mapping := m, columns := "COUNT(*) AS " ++ s.dialect.quote "Total", condition := c } :=
          fun plan hplan => SelectPlan.isComplete_condition hc hplan
        have htext := SelectPlan.text_plan s.dialect w.parameters hcomplete
        change EStateM.Result.ok _ w₂ = EStateM.Result.ok _ w₂
        exact congrArg (EStateM.Result.ok · w₂) htext.symm
      · cases hplan
        exact hp₂ c hc

/-- A deletion follows its plan. -/
theorem deleteWhere_follows (s : Setting) (e : EntityType) (p : Option Predicate)
    (w : Workspace) :
    Follows s (deleteWhere s e p) w (deletionPlan s.dialect (s.view w.catalog) e p) := by
  unfold Follows Writes deleteWhere deletionPlan
  obtain ⟨w₁, hw₁, hv₁, hp₁⟩ := answers_mapping s e w
  rw [bind_run, hw₁]
  cases hm : (s.view w.catalog).mapping e with
  | error cause => exact ⟨w₁, rfl, hv₁, fun x hx => by cases hx⟩
  | ok m =>
    dsimp only [ended]
    cases hc : p.filter (!·.isEmpty) with
    | none => exact ⟨_, rfl, hv₁, fun x hx => by cases hx⟩
    | some p =>
      obtain ⟨w₂, hw₂, hv₂, hp₂⟩ := clause_follows s p.fragments w₁
      rw [hv₁, Predicate.plan?_eq_clausePlan] at hw₂ hp₂
      rw [hp₁] at hw₂ hp₂
      dsimp only
      rw [bind_run, hw₂]
      cases hplan : p.plan? s.dialect (s.view w.catalog).mapping with
      | error cause => exact ⟨w₂, rfl, hv₂.trans hv₁, fun x hx => by cases hx⟩
      | ok plan =>
        refine ⟨w₂, ?_, hv₂.trans hv₁, fun x hx => ?_⟩
        · change EStateM.Result.ok _ w₂ = EStateM.Result.ok _ w₂
          congr 1
          simp [Plan.text, String.append_assoc]
        · cases hx
          exact hp₂ plan hplan

end Work

end EntitySql
