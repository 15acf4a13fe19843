/-
  Placeholders and parameters fit each other.

  A condition adds one parameter for each of its operands behind those that are there, under
  names that are new, and its text has the placeholder of the i-th new name in the i-th place.
  In a statement written from no parameters, every parameter has one place and every place one
  parameter.
-/
import EntitySql.Proofs.StatementRuns

namespace EntitySql

/-- The text and the parameters of a plan, written from no parameters. -/
structure Plan.IsWritten (p : Plan) (d : Dialect) (sql : String) (ps : Parameters) : Prop where
  /-- Each operand is the value of one parameter, in the order of the operands. -/
  values : ps.entries.map (·.2) = p.operands.map fun op => d.bindValue op.2
  /-- The names differ. -/
  nodup : ps.names.Nodup
  /-- Each place holds the placeholder of the parameter with its number. -/
  text : sql = p.layout.fill (d.placeholders ps.names)
  /-- Each parameter has one place. -/
  places : p.layout.places.Perm (List.range ps.size)

namespace Plan

theorem values_bound (d : Dialect) (ops : List (String × Value)) :
    (d.bound ops).map (·.2) = ops.map fun op => d.bindValue op.2 := by
  unfold Dialect.bound
  rw [List.map_map]
  rfl

theorem names_parameters (d : Dialect) (p : Plan) :
    (p.parameters d {}).names = ({} : Parameters).newNames (d.bound p.operands) :=
  Parameters.names_bindAll {} (d.bound p.operands)

/-- What a plan writes and binds from no parameters. -/
theorem isWritten (d : Dialect) {p : Plan} (h : p.IsComplete) :
    p.IsWritten d (p.text d {}) (p.parameters d {}) := by
  have hentries := Parameters.entries_bindAll {} (d.bound p.operands)
  rw [List.nil_append] at hentries
  have hlength : (({} : Parameters).newNames (d.bound p.operands)).length =
      ((d.bound p.operands).map (·.2)).length := by
    rw [Parameters.length_newNames, List.length_map]
  have hnames := names_parameters d p
  refine ⟨?_, ?_, ?_, ?_⟩
  · unfold parameters
    rw [hentries, List.map_snd_zip (Nat.le_of_eq hlength.symm), values_bound]
  · rw [hnames]
    exact (Parameters.isNew_newNames {} _).nodup
  · rw [hnames]
    rfl
  · rw [← Parameters.names_length, hnames, d.length_newNames_bound]
    exact h

end Plan

namespace Work

/-- What is written and bound when the plan is known. -/
theorem Follows.of_ok {s : Setting} {work : Work String} {w w' : Workspace}
    {r : Except Error Plan} {p : Plan} {sql : String} (h : Follows s work w r) (hr : r = .ok p)
    (hrun : work w = .ok sql w') :
    sql = p.text s.dialect w.parameters ∧
      w'.parameters = p.parameters s.dialect w.parameters := by
  obtain ⟨w₁, hw₁, -, hparameters⟩ := h
  rw [hrun, hr] at hw₁
  obtain ⟨rfl, rfl⟩ := EStateM.Result.ok.inj hw₁
  exact ⟨rfl, hparameters p hr⟩

/-- Work that follows a plan writes and binds what the plan says. -/
theorem Follows.isWritten {s : Setting} {work : Work String} {w w' : Workspace}
    {r : Except Error Plan} {sql : String} (h : Follows s work w r)
    (hr : ∀ p, r = .ok p → p.IsComplete) (hw : w.parameters = {}) (hrun : work w = .ok sql w') :
    ∃ p, r = .ok p ∧ p.IsWritten s.dialect sql w'.parameters := by
  cases hr' : r with
  | error e =>
    obtain ⟨w₁, hw₁, -, -⟩ := h
    rw [hrun, hr'] at hw₁
    cases hw₁
  | ok p =>
    obtain ⟨rfl, hp⟩ := h.of_ok hr' hrun
    refine ⟨p, rfl, ?_⟩
    rw [hp, hw]
    exact p.isWritten s.dialect (hr p hr')

/-- Work that follows a plan succeeds when there is one. -/
theorem Follows.succeeds {s : Setting} {work : Work String} {w : Workspace}
    {r : Except Error Plan} (h : Follows s work w r) (hr : r.isOk = true) :
    ∃ sql w', work w = .ok sql w' := by
  obtain ⟨w', hw', -, -⟩ := h
  cases r with
  | error e => cases hr
  | ok p => exact ⟨_, w', hw'⟩

end Work

/-- What a condition adds to the text and the parameters, and how the parameters of a statement
    written from none fit its text. -/
theorem placeholders_fit_parameters (s : Setting) :
    (∀ (p : Predicate) (w : Workspace) (out : String) (m : Manuscript),
      Writing.all s p.fragments ⟨w, out⟩ = .ok () m →
        ∃ names : List String, names.length = p.operands.length ∧ w.parameters.IsNew names ∧
          m.workspace.parameters.entries = w.parameters.entries ++
            names.zip (p.operands.map fun op => s.dialect.bindValue op.2) ∧
          m.text = out ++ (p.rendering s.dialect (s.view w.catalog).mapping 0).fill
            (s.dialect.placeholders names) ∧
          (p.rendering s.dialect (s.view w.catalog).mapping 0).places =
            List.range p.operands.length) ∧
    (∀ (x : Selection) (w w' : Workspace) (sql : String), w.parameters = {} →
      Work.selection s x w = .ok sql w' →
        ∃ plan, x.plan s.dialect (s.view w.catalog) = .ok plan ∧
          plan.IsWritten s.dialect sql w'.parameters) ∧
    (∀ (e : EntityType) (p : Option Predicate) (w w' : Workspace) (sql : String),
      w.parameters = {} → Work.count s e p w = .ok sql w' →
        ∃ plan, countPlan s.dialect (s.view w.catalog) e p = .ok plan ∧
          plan.IsWritten s.dialect sql w'.parameters) ∧
    ∀ (e : EntityType) (p : Option Predicate) (w w' : Workspace) (sql : String),
      w.parameters = {} → Work.deleteWhere s e p w = .ok sql w' →
        ∃ plan, deletionPlan s.dialect (s.view w.catalog) e p = .ok plan ∧
          plan.IsWritten s.dialect sql w'.parameters := by
  refine ⟨?_, ?_, ?_, ?_⟩
  · intro p w out m hrun
    obtain ⟨m', hm', -, hok⟩ := Writing.all_run s p.fragments ⟨w, out⟩
    rw [hrun] at hm'
    cases hcheck : Fragment.checkAll (s.view w.catalog).mapping p.fragments with
    | error e => rw [hcheck] at hm'; cases hm'
    | ok _ =>
      rw [hcheck] at hm'
      cases hm'
      obtain ⟨htext, hparameters⟩ := hok hcheck
      have hc := (p.checkAll_fragments _).mp hcheck
      simp only [Plan.text, Plan.parameters, Fragment.plan, Predicate.layout_fragments _ 0 hc,
        Predicate.operands_fragments hc] at htext hparameters
      refine ⟨w.parameters.newNames (s.dialect.bound p.operands), ?_, ?_, ?_, htext, ?_⟩
      · exact s.dialect.length_newNames_bound w.parameters p.operands
      · exact Parameters.isNew_newNames w.parameters _
      · rw [hparameters, Parameters.entries_bindAll, Plan.values_bound]
      · rw [p.places_rendering s.dialect 0 hc, List.range_eq_range']
  · intro x w w' sql hw hrun
    exact (Work.selection_follows s x w).isWritten (fun _ h => x.isComplete_plan h) hw hrun
  · intro e p w w' sql hw hrun
    exact (Work.count_follows s e p w).isWritten (fun _ h => isComplete_countPlan h) hw hrun
  · intro e p w w' sql hw hrun
    exact (Work.deleteWhere_follows s e p w).isWritten (fun _ h => isComplete_deletionPlan h) hw hrun

/-! ## A sample -/

namespace Samples

/-- People with an age, in a database that numbers rows. -/
def people : Setting where
  dialect := .mssqlRowNumber
  model e := (Mapping.ofTable e.name).insert { name := "age" }

/-- The age of a person. -/
def age : ColumnRef := ⟨⟨"Person"⟩, "age"⟩

/-- Operands of the same column, alone and in a list. -/
def ages : Predicate :=
  .group .and
    [.field age .gt (.int32 3) false, .field age .eq (.list [.int32 5, .int32 8]) true,
     .group .or [], .between age (.int32 1) (.int32 9) false]

/-- People of these ages behind the first three. -/
def someAges : Selection where
  entity := ⟨"Person"⟩
  condition := some ages
  order := [⟨age, true⟩]
  window := some (.set 3 4)

end Samples

/-- A name that is taken, and places that are not in the order of the binding. -/
theorem placeholders_fit_parameters_people :
    (∃ m, Writing.all Samples.people Samples.ages.fragments
        ⟨{ parameters := ⟨[("age_1", .null)]⟩ }, "("⟩ = .ok () m ∧
      ∃ names : List String, names.length = 5 ∧
        Parameters.IsNew ⟨[("age_1", .null)]⟩ names ∧
        m.text = "(" ++ (Samples.ages.rendering Samples.people.dialect
          (Samples.people.view {}).mapping 0).fill (Samples.people.dialect.placeholders names)) ∧
    (∃ sql w, Work.selection Samples.people Samples.someAges {} = .ok sql w ∧
      ∃ plan, Samples.someAges.plan Samples.people.dialect (Samples.people.view {}) = .ok plan ∧
        plan.IsWritten Samples.people.dialect sql w.parameters) ∧
    (∃ sql w, Work.count Samples.people ⟨"Person"⟩ (some Samples.ages) {} = .ok sql w ∧
      ∃ plan, countPlan Samples.people.dialect (Samples.people.view {}) ⟨"Person"⟩
        (some Samples.ages) = .ok plan ∧ plan.IsWritten Samples.people.dialect sql w.parameters) ∧
    ∃ sql w, Work.deleteWhere Samples.people ⟨"Person"⟩ (some Samples.ages) {} = .ok sql w ∧
      ∃ plan, deletionPlan Samples.people.dialect (Samples.people.view {}) ⟨"Person"⟩
        (some Samples.ages) = .ok plan ∧ plan.IsWritten Samples.people.dialect sql w.parameters := by
  obtain ⟨hcondition, hselection, hcount, hdeletion⟩ := placeholders_fit_parameters Samples.people
  refine ⟨?_, ?_, ?_, ?_⟩
  · have hcheck : Fragment.checkAll (Samples.people.view {}).mapping Samples.ages.fragments =
        .ok () := rfl
    obtain ⟨m, hm, -, -⟩ := Writing.all_run Samples.people Samples.ages.fragments
      ⟨{ parameters := ⟨[("age_1", .null)]⟩ }, "("⟩
    change _ = ended (Fragment.checkAll (Samples.people.view {}).mapping _) m at hm
    rw [hcheck] at hm
    obtain ⟨names, hlength, hnew, -, htext, -⟩ := hcondition _ _ _ _ hm
    exact ⟨m, hm, names, hlength, hnew, htext⟩
  · obtain ⟨sql, w, hw⟩ := (Work.selection_follows Samples.people Samples.someAges {}).succeeds
      (by decide +kernel)
    exact ⟨sql, w, hw, hselection Samples.someAges {} w sql rfl hw⟩
  · obtain ⟨sql, w, hw⟩ := (Work.count_follows Samples.people ⟨"Person"⟩ (some Samples.ages)
      {}).succeeds (by decide +kernel)
    exact ⟨sql, w, hw, hcount ⟨"Person"⟩ (some Samples.ages) {} w sql rfl hw⟩
  · obtain ⟨sql, w, hw⟩ := (Work.deleteWhere_follows Samples.people ⟨"Person"⟩ (some Samples.ages)
      {}).succeeds (by decide +kernel)
    exact ⟨sql, w, hw, hdeletion ⟨"Person"⟩ (some Samples.ages) {} w sql rfl hw⟩

end EntitySql
