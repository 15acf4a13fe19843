/-
  Conditions as trees: induction over them, and their functions on lists of members in terms of
  the library's.
-/
import EntitySql.Clause

namespace EntitySql.Predicate

/-- Induction over a condition: the members of a group all have what the group is to have. -/
@[elab_as_elim]
theorem treeInduction {motive : Predicate → Prop}
    (field : ∀ c op v negated, motive (.field c op v negated))
    (property : ∀ c op other negated, motive (.property c op other negated))
    (between : ∀ c low high negated, motive (.between c low high negated))
    (group : ∀ k members, (∀ p ∈ members, motive p) → motive (.group k members))
    (anyRow : ∀ e p negated, motive p → motive (.anyRow e p negated)) (p : Predicate) :
    motive p := by
  refine Predicate.rec (motive_1 := motive) (motive_2 := fun ps => ∀ p ∈ ps, motive p)
    field property between group anyRow ?_ ?_ p
  · intro q hq
    exact absurd hq List.not_mem_nil
  · intro q qs hq hqs r hr
    rcases List.mem_cons.mp hr with rfl | hr
    · exact hq
    · exact hqs r hr

theorem allEmpty_eq_all (ps : List Predicate) : allEmpty ps = ps.all isEmpty := by
  induction ps with
  | nil => rfl
  | cons p ps ih => rw [allEmpty, ih, List.all_cons]

theorem negateAll_eq_map (ps : List Predicate) : negateAll ps = ps.map negate := by
  induction ps with
  | nil => rfl
  | cons p ps ih => rw [negateAll, ih, List.map_cons]

/-- The members of a group that hold a condition. -/
def inhabited (ps : List Predicate) : List Predicate := ps.filter fun p => !p.isEmpty

theorem memberFragments_eq_map (ps : List Predicate) :
    memberFragments ps = (inhabited ps).map fragments := by
  induction ps with
  | nil => rfl
  | cons p ps ih =>
    rw [memberFragments, ih]
    cases hp : p.isEmpty <;> simp [inhabited, hp]

theorem mem_inhabited {p : Predicate} {ps : List Predicate} :
    p ∈ inhabited ps ↔ p ∈ ps ∧ p.isEmpty = false := by
  simp [inhabited]

theorem inhabited_eq_nil_iff (ps : List Predicate) : inhabited ps = [] ↔ allEmpty ps = true := by
  simp [inhabited, allEmpty_eq_all]

theorem isEmpty_group (k : Connective) (members : List Predicate) :
    (group k members).isEmpty = members.all isEmpty := by
  rw [isEmpty, allEmpty_eq_all]

/-- The opposite of a condition is empty when the condition is. -/
@[simp] theorem isEmpty_negate (p : Predicate) : p.negate.isEmpty = p.isEmpty := by
  induction p using treeInduction with
  | field c op v negated => rfl
  | property c op other negated => rfl
  | between c low high negated => rfl
  | group k members ih =>
    rw [negate, isEmpty_group, isEmpty_group, negateAll_eq_map, Bool.eq_iff_iff, List.all_eq_true,
      List.all_eq_true, List.forall_mem_map]
    exact forall₂_congr fun p hp => by rw [ih p hp]
  | anyRow e p negated ih => rfl

theorem inhabited_map_negate (ps : List Predicate) :
    inhabited (ps.map negate) = (inhabited ps).map negate := by
  unfold inhabited
  rw [List.filter_map]
  congr 1
  exact List.filter_congr fun p _ => by simp

end EntitySql.Predicate
