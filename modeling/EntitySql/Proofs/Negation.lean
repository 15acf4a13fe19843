/-
  The opposite of a condition is true where the condition is not.

  The negation is driven into the leaves, and a group becomes one of the other kind.
  `truth_negate` says that the three truth values go over into the opposite ones, by induction
  over the tree: a leaf has its flag turned, and a group goes by De Morgan over the members that
  hold a condition. A condition and its opposite bind the same operands, and an empty condition
  is its own opposite.
-/
import EntitySql.Proofs.ReadBack
import Mathlib.Data.List.Basic

namespace EntitySql

open Sql

namespace Predicate

/-! ## What a condition has in common with its opposite -/

/-- The opposite binds the same operands. -/
@[simp] theorem operands_negate (p : Predicate) : p.negate.operands = p.operands := by
  induction p using treeInduction with
  | field c op v negated => rfl
  | property c op other negated => rfl
  | between c low high negated => rfl
  | group k members ih =>
    rw [negate, operands, operands, negateAll_eq_map, allOperands_eq_flatMap,
      allOperands_eq_flatMap, List.flatMap_map]
    exact List.flatMap_congr ih
  | anyRow e p negated ih => rfl

/-- The opposite can be written when the condition can. -/
theorem compiles_negate {ms : Mappings} {p : Predicate} (h : p.Compiles ms) :
    p.negate.Compiles ms := by
  induction p using treeInduction with
  | field c op v negated => exact h
  | property c op other negated => exact h
  | between c low high negated => exact h
  | group k members ih =>
    rw [Compiles, allCompile_iff] at h
    rw [negate, Compiles, allCompile_iff, negateAll_eq_map, List.forall_mem_map]
    exact fun p hp => ih p hp (h p hp)
  | anyRow e p negated ih => exact h

/-- An empty condition is written as the one that is always true. -/
theorem fragments_of_isEmpty {p : Predicate} (h : p.isEmpty = true) :
    p.fragments = [.everything] := by
  cases p with
  | group k members =>
    rw [isEmpty] at h
    rw [fragments, memberFragments_eq_map, (inhabited_eq_nil_iff members).mpr h]
    rfl
  | _ => cases h

/-! ## Truth of the opposite -/

/-- A leaf with its flag turned. -/
theorem fieldTruth_not (W : World) (d : Dialect) (a : Value) (op : Operator) (negated : Bool)
    (v : Value) : fieldTruth W d a op (!negated) v = (fieldTruth W d a op negated v).not := by
  cases v <;> exact (Truth.not_negatedIf negated _).symm

/-- A group of the other kind, with opposite members, of which there is one. -/
theorem truth_dual (k : Connective) {ts : List Truth} (h : ts ≠ []) :
    k.dual.truth (ts.map Truth.not) = (k.truth ts).not := by
  cases ts with
  | nil => exact absurd rfl h
  | cons t ts =>
    cases k with
    | and => exact (Truth.not_all (t :: ts)).symm
    | or => exact (Truth.not_any (t :: ts)).symm

/-- The opposite of a condition that is not empty has the opposite truth value. -/
theorem truth_negate (W : World) (d : Dialect) (ms : Mappings) (scope : Scope) {p : Predicate}
    (h : p.isEmpty = false) :
    p.negate.truth W d ms scope = (p.truth W d ms scope).not := by
  induction p using treeInduction generalizing scope with
  | field c op v negated => exact fieldTruth_not W d _ op negated v
  | property c op other negated => exact (Truth.not_negatedIf negated _).symm
  | between c low high negated => exact (Truth.not_negatedIf negated _).symm
  | group k members ih =>
    have hmembers : (inhabited members).map (fun p => p.negate.truth W d ms scope) =
        (inhabited members).map (fun p => (p.truth W d ms scope).not) := by
      refine List.map_congr_left fun p hp => ?_
      obtain ⟨hmem, hne⟩ := mem_inhabited.mp hp
      exact ih p hmem scope hne
    have hsome : (inhabited members).map (truth W d ms scope) ≠ [] := by
      intro hnil
      rw [List.map_eq_nil_iff, inhabited_eq_nil_iff] at hnil
      rw [isEmpty, hnil] at h
      cases h
    -- the members of the opposite that hold a condition are the opposites of those that do
    rw [negate, truth, truth, memberTruths_eq_map, memberTruths_eq_map, negateAll_eq_map,
      inhabited_map_negate, List.map_map, ← truth_dual k hsome, List.map_map]
    exact congrArg k.dual.truth hmembers
  | anyRow e p negated ih => exact (Truth.not_negatedIf negated _).symm

end Predicate

/-! ## The opposite in SQL -/

theorem clause_everything (s : Setting) (w : Workspace) :
    Work.clause s [.everything] w = .ok s.dialect.everything w := by
  change EStateM.Result.ok ("" ++ s.dialect.everything) w = _
  rw [String.empty_append]

/-- An empty condition and its opposite are written as the condition of the dialect that is always
    true. Any other condition that can be written has an opposite with the same parameters, and
    the one expression that this is read as has the opposite truth value in every database and
    for all current rows. -/
theorem negate_means_not (s : Setting) :
    (∀ (p : Predicate) (w : Workspace), p.isEmpty = true →
      Work.clause s p.fragments w = .ok s.dialect.everything w ∧
        Work.clause s p.negate.fragments w = .ok s.dialect.everything w) ∧
    (IsReadable s.dialect → ∀ (p : Predicate) (w w' : Workspace) (text : String),
      p.isEmpty = false → Work.clause s p.fragments w = .ok text w' →
        ∃ (text' : String) (w'' : Workspace) (e e' : Expr),
          Work.clause s p.negate.fragments w = .ok text' w'' ∧
          w''.parameters = w'.parameters ∧
          (p.plan s.dialect (s.view w.catalog).mapping).IsReadAs s.dialect w.parameters text e ∧
          (p.negate.plan s.dialect (s.view w.catalog).mapping).IsReadAs s.dialect w.parameters
            text' e' ∧
          ∀ (W : World) (scope : Scope), e'.value W w''.parameters scope =
            (e.value W w'.parameters scope).not) := by
  refine ⟨fun p w hp => ?_, fun hd p w w' text hp hrun => ?_⟩
  · rw [Predicate.fragments_of_isEmpty hp,
      Predicate.fragments_of_isEmpty (p.isEmpty_negate.trans hp)]
    exact ⟨clause_everything s w, clause_everything s w⟩
  · have hc := Work.compiles_of_clause hrun
    have hc' := p.compiles_negate hc
    obtain ⟨w₁, hw₁, hparameters⟩ := Work.clause_of_compiles s hc
    obtain ⟨w'', hw'', hparameters'⟩ := Work.clause_of_compiles s hc'
    rw [hrun] at hw₁
    cases hw₁
    have hsame : w''.parameters = w'.parameters := by
      rw [hparameters', hparameters]
      unfold Plan.parameters Predicate.plan
      rw [p.operands_negate]
    refine ⟨_, w'', _, _, hw'', hsame, p.isReadAs_expression hd hc w.parameters,
      p.negate.isReadAs_expression hd hc' w.parameters, fun W scope => ?_⟩
    rw [hparameters', hparameters, p.value_expression W scope hc,
      p.negate.value_expression W scope hc', p.truth_negate W _ _ scope hp]

/-- A group without a condition, and one with a list and a range. -/
theorem negate_means_not_ages :
    (Work.clause Samples.people (Predicate.group .or []).fragments {} =
        .ok Samples.people.dialect.everything {} ∧
      Work.clause Samples.people (Predicate.group .or []).negate.fragments {} =
        .ok Samples.people.dialect.everything {}) ∧
    ∃ text w, Work.clause Samples.people Samples.ages.fragments {} = .ok text w ∧
      ∃ (text' : String) (w' : Workspace) (e e' : Expr),
        Work.clause Samples.people Samples.ages.negate.fragments {} = .ok text' w' ∧
        w'.parameters = w.parameters ∧
        (Samples.ages.plan Samples.people.dialect (Samples.people.view {}).mapping).IsReadAs
          Samples.people.dialect {} text e ∧
        (Samples.ages.negate.plan Samples.people.dialect
          (Samples.people.view {}).mapping).IsReadAs Samples.people.dialect {} text' e' ∧
        ∀ (W : World) (scope : Scope), e'.value W w'.parameters scope =
          (e.value W w.parameters scope).not := by
  obtain ⟨hempty, hsome⟩ := negate_means_not Samples.people
  obtain ⟨w, hw, -⟩ := Work.clause_of_compiles (w := {}) Samples.people Samples.compiles_ages
  exact ⟨hempty (.group .or []) {} rfl, _, w, hw,
    hsome (isReadable_of_mem_all Samples.dialect_mem_all) Samples.ages {} w _ rfl hw⟩

end EntitySql
