/-
  Selects in one batch, with shared parameters, and the same selects one by one, each with
  parameters of its own.

  Both follow the same plans (`selections_write`, `separately_run`), so they fail for the same
  first reason. A plan is written twice, behind different parameters, and the names of the one
  writing go over into those of the other (`renamed`).
-/
import EntitySql.Proofs.Placeholders
import EntitySql.Proofs.Sending

namespace EntitySql

/-! ## Renamings -/

/-- The name in the second list that stands where the given one stands in the first. -/
def renamed (names names' : List String) (name : String) : String :=
  names'.getD (names.idxOf name) name

theorem renamed_getElem {names names' : List String} (hnd : names.Nodup)
    (hlen : names.length = names'.length) {i : Nat} (hi : i < names.length) :
    renamed names names' names[i] = names'[i] := by
  unfold renamed
  rw [hnd.idxOf_getElem i hi, List.getD_eq_getElem?_getD, List.getElem?_eq_getElem (hlen ▸ hi),
    Option.getD_some]

theorem map_renamed {names names' : List String} (hnd : names.Nodup)
    (hlen : names.length = names'.length) : names.map (renamed names names') = names' := by
  refine List.ext_getElem (by rw [List.length_map, hlen]) fun i hi hi' => ?_
  rw [List.length_map] at hi
  rw [List.getElem_map, renamed_getElem hnd hlen hi]

theorem renamed_injective {names names' : List String} (hnd : names.Nodup) (hnd' : names'.Nodup)
    (hlen : names.length = names'.length) {n n' : String} (hn : n ∈ names) (hn' : n' ∈ names)
    (h : renamed names names' n = renamed names names' n') : n = n' := by
  obtain ⟨i, hi, rfl⟩ := List.getElem_of_mem hn
  obtain ⟨j, hj, rfl⟩ := List.getElem_of_mem hn'
  rw [renamed_getElem hnd hlen hi, renamed_getElem hnd hlen hj] at h
  have hij := (List.getElem_inj hnd').mp h
  subst hij
  rfl

/-! ## Several selections -/

namespace Work

/-- The texts of plans that are written in sequence. -/
def batchTexts (d : Dialect) (ps : Parameters) : List Plan → List String
  | [] => []
  | p :: plans => p.text d ps :: batchTexts d (p.parameters d ps) plans

/-- The plans of several selections, or the first reason why there are none. -/
def plans (d : Dialect) (v : View) (xs : List Selection) : Except Error (List Plan) :=
  xs.mapM (Selection.plan d v)

theorem plans_cons (d : Dialect) (v : View) (x : Selection) (xs : List Selection) :
    plans d v (x :: xs) = do
      let p ← x.plan d v
      let ps ← plans d v xs
      return p :: ps := List.mapM_cons

/-- Selections that share their parameters follow their plans in sequence. -/
theorem selections_write (s : Setting) (xs : List Selection) (w : Workspace) :
    Writes s (selections s xs) w (plans s.dialect (s.view w.catalog) xs)
      (batchTexts s.dialect w.parameters) (fun ps => ps.flatMap (·.operands)) := by
  induction xs generalizing w with
  | nil => exact ⟨w, rfl, rfl, fun ps hps => by cases hps; rfl⟩
  | cons x xs ih =>
    unfold Writes selections
    obtain ⟨w₁, hw₁, hv₁, hp₁⟩ := selection_follows s x w
    rw [plans_cons, bind_run, hw₁]
    cases hx : x.plan s.dialect (s.view w.catalog) with
    | error e => exact ⟨w₁, rfl, hv₁, fun ps hps => by cases hps⟩
    | ok p =>
      -- the first selection has left the view as it was, and so the plans of the others
      obtain ⟨w₂, hw₂, hv₂, hp₂⟩ := ih w₁
      rw [hv₁] at hw₂ hv₂ hp₂
      dsimp only [ended, Except.map]
      rw [bind_run, hw₂]
      cases hxs : plans s.dialect (s.view w.catalog) xs with
      | error e => exact ⟨w₂, rfl, hv₂, fun ps hps => by cases hps⟩
      | ok ps =>
        have hparameters := hp₁ p hx
        refine ⟨w₂, ?_, hv₂, fun ps' hps' => ?_⟩
        · rw [hparameters]
          rfl
        · cases hps'
          rw [hp₂ ps hxs, hparameters, List.flatMap_cons, s.dialect.bound_append,
            Parameters.bindAll_append]

end Work

namespace Act

variable {σ : Type}

/-- Several selections, each with parameters of its own. -/
def separately (s : Setting) (xs : List Selection) : Act σ (List Statement) :=
  xs.mapM fun x => statement (Work.selection s x)

/-- A statement with parameters of its own follows its plan. -/
theorem statement_run (s : Setting) (x : Selection) (a : Session σ) :
    ∃ w, s.view w.catalog = s.view a.workspace.catalog ∧
      statement (Work.selection s x) a =
        match x.plan s.dialect (s.view a.workspace.catalog) with
        | .ok p => .ok ⟨p.text s.dialect {}, p.parameters s.dialect {}⟩ { a with workspace := w }
        | .error e => .error e { a with workspace := w } := by
  obtain ⟨w, hw, hg⟩ := checks_statement (Work.selection_follows s x _)
    (Work.extends_selection s x) (a := a)
  refine ⟨w, Setting.view_of_grows hg, ?_⟩
  rw [hw]
  change ended ((x.plan s.dialect (s.view a.workspace.catalog)).map _) _ = _
  cases x.plan s.dialect (s.view a.workspace.catalog) <;> rfl

/-- Selections with parameters of their own follow their plans. -/
theorem separately_run (s : Setting) (xs : List Selection) (a : Session σ) :
    ∃ w, s.view w.catalog = s.view a.workspace.catalog ∧
      separately s xs a =
        match Work.plans s.dialect (s.view a.workspace.catalog) xs with
        | .ok ps =>
          .ok (ps.map fun p => ⟨p.text s.dialect {}, p.parameters s.dialect {}⟩)
            { a with workspace := w }
        | .error e => .error e { a with workspace := w } := by
  induction xs generalizing a with
  | nil => exact ⟨a.workspace, rfl, rfl⟩
  | cons x xs ih =>
    obtain ⟨w₁, hv₁, hw₁⟩ := statement_run s x a
    unfold separately at ih ⊢
    rw [List.mapM_cons, bind_run, hw₁, Work.plans_cons]
    cases hx : x.plan s.dialect (s.view a.workspace.catalog) with
    | error e => exact ⟨w₁, hv₁, rfl⟩
    | ok p =>
      obtain ⟨w₂, hv₂, hw₂⟩ := ih { a with workspace := w₁ }
      dsimp only at hv₂ hw₂ ⊢
      rw [hv₁] at hv₂ hw₂
      refine ⟨w₂, hv₂, ?_⟩
      rw [bind_run, hw₂]
      cases Work.plans s.dialect (s.view a.workspace.catalog) xs <;> rfl

end Act

/-! ## The two writings of a plan -/

/-- A select, as it is sent alone and as a part of a batch. -/
structure BatchItem where
  /-- The plan of the select. -/
  plan : Plan
  /-- The statement with parameters of its own. -/
  alone : Statement
  /-- The text in the batch. -/
  sql : String
  /-- The names in the batch, from those of the statement alone. -/
  rename : String → String

namespace BatchItem

/-- The parameters of the item in the batch. -/
def entries (i : BatchItem) : List (String × Value) :=
  i.alone.parameters.entries.map fun entry => (i.rename entry.1, entry.2)

/-- The names of the item in the batch. -/
def names (i : BatchItem) : List String := i.alone.parameters.names.map i.rename

/-- The two texts differ in the names alone. -/
structure Agrees (d : Dialect) (i : BatchItem) : Prop where
  /-- The statement alone is the plan with the placeholders of its parameters. -/
  alone : i.plan.IsWritten d i.alone.sql i.alone.parameters
  /-- The text in the batch is the same plan with the placeholders renamed. -/
  sql : i.sql = i.plan.layout.fill (d.placeholders i.names)
  /-- Different names stay different. -/
  injective : ∀ n ∈ i.alone.parameters.names, ∀ n' ∈ i.alone.parameters.names,
    i.rename n = i.rename n' → n = n'

/-- The item of a plan that is written behind the given parameters. -/
def ofPlan (d : Dialect) (ps : Parameters) (p : Plan) : BatchItem where
  plan := p
  alone := ⟨p.text d {}, p.parameters d {}⟩
  sql := p.text d ps
  rename := renamed (({} : Parameters).newNames (d.bound p.operands))
    (ps.newNames (d.bound p.operands))

theorem names_alone (d : Dialect) (ps : Parameters) (p : Plan) :
    (ofPlan d ps p).alone.parameters.names =
      ({} : Parameters).newNames (d.bound p.operands) := Plan.names_parameters d p

theorem names_ofPlan (d : Dialect) (ps : Parameters) (p : Plan) :
    (ofPlan d ps p).names = ps.newNames (d.bound p.operands) := by
  unfold names
  rw [names_alone]
  exact map_renamed (Parameters.isNew_newNames {} _).nodup
    (by rw [Parameters.length_newNames, Parameters.length_newNames])

/-- What an item adds to the parameters of the batch. -/
theorem entries_ofPlan (d : Dialect) (ps : Parameters) (p : Plan) :
    (p.parameters d ps).entries = ps.entries ++ (ofPlan d ps p).entries := by
  have hnames := names_ofPlan d ps p
  unfold names at hnames
  rw [names_alone] at hnames
  have halone : (ofPlan d ps p).alone.parameters.entries =
      (({} : Parameters).newNames (d.bound p.operands)).zip ((d.bound p.operands).map (·.2)) := by
    change (({} : Parameters).bindAll (d.bound p.operands)).entries = _
    rw [Parameters.entries_bindAll, List.nil_append]
  unfold Plan.parameters entries
  rw [Parameters.entries_bindAll, halone, ← hnames, List.zip_map_left]
  rfl

theorem agrees_ofPlan (d : Dialect) (ps : Parameters) {p : Plan} (h : p.IsComplete) :
    (ofPlan d ps p).Agrees d := by
  refine ⟨p.isWritten d h, ?_, ?_⟩
  · rw [names_ofPlan]
    rfl
  · intro n hn n' hn' heq
    rw [names_alone] at hn hn'
    exact renamed_injective (Parameters.isNew_newNames {} _).nodup
      (Parameters.isNew_newNames ps _).nodup
      (by rw [Parameters.length_newNames, Parameters.length_newNames]) hn hn' heq

/-- The items of plans that are written in sequence. -/
def ofPlans (d : Dialect) (ps : Parameters) : List Plan → List BatchItem
  | [] => []
  | p :: plans => ofPlan d ps p :: ofPlans d (p.parameters d ps) plans

theorem map_plan_ofPlans (d : Dialect) (ps : Parameters) (plans : List Plan) :
    (ofPlans d ps plans).map (·.plan) = plans := by
  induction plans generalizing ps with
  | nil => rfl
  | cons p plans ih => rw [ofPlans, List.map_cons, ih]; rfl

theorem map_alone_ofPlans (d : Dialect) (ps : Parameters) (plans : List Plan) :
    (ofPlans d ps plans).map (·.alone) =
      plans.map fun p => ⟨p.text d {}, p.parameters d {}⟩ := by
  induction plans generalizing ps with
  | nil => rfl
  | cons p plans ih => rw [ofPlans, List.map_cons, ih]; rfl

theorem map_sql_ofPlans (d : Dialect) (ps : Parameters) (plans : List Plan) :
    (ofPlans d ps plans).map (·.sql) = Work.batchTexts d ps plans := by
  induction plans generalizing ps with
  | nil => rfl
  | cons p plans ih => rw [ofPlans, List.map_cons, ih]; rfl

theorem agrees_ofPlans (d : Dialect) (ps : Parameters) {plans : List Plan}
    (h : ∀ p ∈ plans, p.IsComplete) : ∀ i ∈ ofPlans d ps plans, i.Agrees d := by
  induction plans generalizing ps with
  | nil => exact fun i hi => absurd hi List.not_mem_nil
  | cons p plans ih =>
    rw [ofPlans, List.forall_mem_cons]
    rw [List.forall_mem_cons] at h
    exact ⟨agrees_ofPlan d ps h.1, ih _ h.2⟩

/-- The parameters of a batch are those of its items in order, behind the ones that are
    there. -/
theorem entries_ofPlans (d : Dialect) (ps : Parameters) (plans : List Plan) :
    (ps.bindAll (d.bound (plans.flatMap (·.operands)))).entries =
      ps.entries ++ (ofPlans d ps plans).flatMap entries := by
  induction plans generalizing ps with
  | nil => exact (List.append_nil _).symm
  | cons p plans ih =>
    rw [List.flatMap_cons, d.bound_append, Parameters.bindAll_append, ih, ofPlans,
      List.flatMap_cons, ← List.append_assoc]
    congr 1
    exact entries_ofPlan d ps p

/-- No name of an item is that of another or one that is there. -/
theorem isNew_ofPlans (d : Dialect) (ps : Parameters) (plans : List Plan) :
    ps.IsNew ((ofPlans d ps plans).flatMap names) := by
  have hnames : (ofPlans d ps plans).flatMap names =
      ps.newNames (d.bound (plans.flatMap (·.operands))) := by
    induction plans generalizing ps with
    | nil => rfl
    | cons p plans ih =>
      rw [ofPlans, List.flatMap_cons, ih, names_ofPlan, List.flatMap_cons, d.bound_append,
        Parameters.newNames_append]
      rfl
  rw [hnames]
  exact ps.isNew_newNames _

end BatchItem

/-! ## The batch and the statements alone -/

theorem isComplete_plans {d : Dialect} {v : View} {xs : List Selection} {ps : List Plan}
    (h : Work.plans d v xs = .ok ps) : ∀ p ∈ ps, p.IsComplete := by
  induction xs generalizing ps with
  | nil => cases h; exact fun p hp => absurd hp List.not_mem_nil
  | cons x xs ih =>
    rw [Work.plans_cons] at h
    obtain ⟨p, hp, h⟩ := bind_eq_ok_iff.mp h
    obtain ⟨ps', hps', h⟩ := bind_eq_ok_iff.mp h
    obtain rfl := Except.ok.inj h
    rw [List.forall_mem_cons]
    exact ⟨x.isComplete_plan hp, ih hps'⟩

/-- Selects with shared parameters and the same selects with parameters of their own fail for the
    same first reason, or else agree one by one. -/
theorem batch_agrees_with_statements {σ : Type} (s : Setting) (xs : List Selection)
    (a : Session σ) :
    (∃ e w a', Work.selections s xs a.workspace = .error e w ∧
      Act.separately s xs a = .error e a') ∨
    ∃ (items : List BatchItem) (w : Workspace) (a' : Session σ),
      Work.selections s xs a.workspace = .ok (items.map (·.sql)) w ∧
      Act.separately s xs a = .ok (items.map (·.alone)) a' ∧
      Work.plans s.dialect (s.view a.workspace.catalog) xs = .ok (items.map (·.plan)) ∧
      (∀ i ∈ items, i.Agrees s.dialect) ∧
      w.parameters.entries = a.workspace.parameters.entries ++ items.flatMap (·.entries) ∧
      a.workspace.parameters.IsNew (items.flatMap (·.names)) := by
  obtain ⟨w, hw, -, hp⟩ := Work.selections_write s xs a.workspace
  obtain ⟨w', -, ha⟩ := Act.separately_run s xs a
  cases hplans : Work.plans s.dialect (s.view a.workspace.catalog) xs with
  | error e =>
    rw [hplans] at hw ha
    exact .inl ⟨e, w, _, hw, ha⟩
  | ok ps =>
    rw [hplans] at hw ha
    refine .inr ⟨BatchItem.ofPlans s.dialect a.workspace.parameters ps, w,
      { a with workspace := w' }, ?_, ?_, ?_, ?_, ?_, ?_⟩
    · rw [BatchItem.map_sql_ofPlans]
      exact hw
    · rw [BatchItem.map_alone_ofPlans]
      exact ha
    · rw [BatchItem.map_plan_ofPlans]
    · exact BatchItem.agrees_ofPlans s.dialect _ (isComplete_plans hplans)
    · rw [hp ps hplans, BatchItem.entries_ofPlans]
    · exact BatchItem.isNew_ofPlans s.dialect _ ps

end EntitySql
