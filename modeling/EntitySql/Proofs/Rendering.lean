/-
  What a condition says, told along its tree: its operands from left to right, whether it can be
  written, and its text with a numbered place for each operand.

  The three are stated without fragments; `operands_fragments`, `checkAll_fragments` and
  `layout_fragments` say that the fragments of the condition come to the same.
-/
import EntitySql.Proofs.Layout
import EntitySql.Proofs.PredicateTree

namespace EntitySql

namespace Layout

/-- Layouts with a text between any two. -/
def joined (separator : String) (ls : List Layout) : Layout :=
  [Part.text separator].intercalate ls

/-- The places with the given number and those behind it, with commas between them. -/
def placeList (i n : Nat) : Layout := joined ", " ((List.range' i n).map fun j => [.place j])

/-- Joined layouts come to the joined texts. -/
theorem fill_joined_eq_intercalate (content : Nat → String) (separator : String)
    (ls : List Layout) :
    (joined separator ls).fill content = separator.intercalate (ls.map (fill content)) := by
  unfold joined
  induction ls with
  | nil => rfl
  | cons l ls ih =>
    cases ls with
    | nil => rw [List.intercalate_singleton, List.map_singleton, String.intercalate_singleton]
    | cons l' ls =>
      rw [List.intercalate_cons_cons, fill_append, fill_append, ih, List.map_cons, List.map_cons,
        List.map_cons, String.intercalate_cons_cons, fill_text, fill_nil, String.append_empty]

end Layout

namespace Fragment

/-! ## Joined fragments -/

/-- The layouts of fragments that follow each other; `i` is the number of their first operand. -/
def layouts (d : Dialect) (ms : Mappings) (i : Nat) : List (List Fragment) → List Layout
  | [] => []
  | fs :: parts => layout d ms i fs :: layouts d ms (i + (operands fs).length) parts

theorem operands_joined (separator : String) (parts : List (List Fragment)) :
    operands (joined separator parts) = parts.flatMap operands := by
  unfold joined
  induction parts with
  | nil => rfl
  | cons fs parts ih =>
    cases parts with
    | nil => rw [List.intercalate_singleton]; simp
    | cons gs parts =>
      rw [List.intercalate_cons_cons, operands_append, operands_append, ih, List.flatMap_cons]
      simp [binds]

theorem checkAll_append_iff (ms : Mappings) (fs gs : List Fragment) :
    checkAll ms (fs ++ gs) = .ok () ↔ checkAll ms fs = .ok () ∧ checkAll ms gs = .ok () := by
  rw [checkAll_eq_ok_iff, checkAll_eq_ok_iff, checkAll_eq_ok_iff, List.forall_mem_append]

theorem checkAll_joined_iff (ms : Mappings) (separator : String) (parts : List (List Fragment)) :
    checkAll ms (joined separator parts) = .ok () ↔ ∀ fs ∈ parts, checkAll ms fs = .ok () := by
  unfold joined
  induction parts with
  | nil => simp [checkAll]
  | cons fs parts ih =>
    cases parts with
    | nil => rw [List.intercalate_singleton]; simp
    | cons gs parts =>
      rw [List.intercalate_cons_cons, checkAll_append_iff, checkAll_append_iff, ih,
        List.forall_mem_cons]
      simp [checkAll, check]

theorem layout_joined (d : Dialect) (ms : Mappings) (i : Nat) (separator : String)
    (parts : List (List Fragment)) :
    layout d ms i (joined separator parts) = Layout.joined separator (layouts d ms i parts) := by
  unfold joined Layout.joined
  induction parts generalizing i with
  | nil => rfl
  | cons fs parts ih =>
    cases parts with
    | nil => rw [List.intercalate_singleton, layouts, layouts, List.intercalate_singleton]
    | cons gs parts =>
      rw [List.intercalate_cons_cons, layout_append, layout_append, operands_append]
      have hseparator : operands [.text separator] = [] := rfl
      rw [hseparator, List.append_nil, ih]
      exact List.intercalate_cons_cons.symm

end Fragment

namespace Predicate

/-! ## Operands -/

/-- What a comparison with a value binds: the value, or each value of a list, but not nothing. -/
def fieldOperands (c : ColumnRef) : Value → List (String × Value)
  | .null => []
  | .list items => items.map fun v => (c.property, v)
  | v => [(c.property, v)]

mutual

/-- The operands of a condition from left to right, each with the base of its name. -/
def operands : Predicate → List (String × Value)
  | .field c _ v _ => fieldOperands c v
  | .property _ _ _ _ => []
  | .between c low high _ => [(c.property, low), (c.property, high)]
  | .group _ members => allOperands members
  | .anyRow _ p _ => p.operands

/-- The operands of several conditions. -/
def allOperands : List Predicate → List (String × Value)
  | [] => []
  | p :: ps => p.operands ++ allOperands ps

end

/-! ## Whether a condition can be written -/

mutual

/-- Every column of the condition is one, every entity in it has a table, and a list is compared
    by equality only. -/
def Compiles (ms : Mappings) : Predicate → Prop
  | .field c op v _ => (∃ x, ms.column c = .ok x) ∧ (v.isList = true → op = .eq)
  | .property c _ other _ => (∃ x, ms.column c = .ok x) ∧ ∃ x, ms.column other = .ok x
  | .between c _ _ _ => ∃ x, ms.column c = .ok x
  | .group _ members => AllCompile ms members
  | .anyRow e p _ => (∃ m, ms e = .ok m) ∧ p.Compiles ms

/-- Every condition can be written. -/
def AllCompile (ms : Mappings) : List Predicate → Prop
  | [] => True
  | p :: ps => p.Compiles ms ∧ AllCompile ms ps

end

/-! ## Rendering -/

/-- The text of a comparison with a value; `i` is the number of its first operand. -/
def fieldRendering (d : Dialect) (ms : Mappings) (i : Nat) (c : ColumnRef) (op : Operator)
    (negated : Bool) : Value → Layout
  | .null =>
    [.text "(", .text (d.columnText ms c),
     .text (if negated then " IS NOT NULL)" else " IS NULL)")]
  | .list [] => [.text (if negated then "(1=1)" else "(1=0)")]
  | .list items =>
    [.text "(", .text (d.columnText ms c), .text (if negated then " NOT IN (" else " IN (")] ++
      Layout.placeList i items.length ++ [.text "))"]
  | _ =>
    [.text "(", .text (d.columnText ms c), .text " ", .text (op.sql negated), .text " ", .place i,
     .text ")"]

/-- The text of a group, from the texts of the members that hold a condition. -/
def groupRendering (d : Dialect) (k : Connective) : List Layout → Layout
  | [] => [.text d.everything]
  | ls => [.text "("] ++ Layout.joined k.sql ls ++ [.text ")"]

mutual

/-- The text of a condition; `i` is the number of its first operand. -/
def rendering (d : Dialect) (ms : Mappings) (i : Nat) : Predicate → Layout
  | .field c op v negated => fieldRendering d ms i c op negated v
  | .property c op other negated =>
    [.text "(", .text (d.columnText ms c), .text " ", .text (op.sql negated), .text " ",
     .text (d.columnText ms other), .text ")"]
  | .between c _ _ negated =>
    [.text "(", .text (d.columnText ms c), .text (if negated then " NOT BETWEEN " else " BETWEEN "),
     .place i, .text " AND ", .place (i + 1), .text ")"]
  | .group k members => groupRendering d k (memberRenderings d ms i members)
  | .anyRow e p negated =>
    [.text (if negated then "(NOT EXISTS (SELECT 1 FROM " else "(EXISTS (SELECT 1 FROM "),
     .text (d.tableText ms e), .text " WHERE "] ++ p.rendering d ms i ++ [.text "))"]

/-- The texts of the members of a group that hold a condition. -/
def memberRenderings (d : Dialect) (ms : Mappings) (i : Nat) : List Predicate → List Layout
  | [] => []
  | p :: ps =>
    if p.isEmpty then memberRenderings d ms i ps
    else p.rendering d ms i :: memberRenderings d ms (i + p.operands.length) ps

end

/-! ## Lists of conditions -/

theorem allOperands_eq_flatMap (ps : List Predicate) : allOperands ps = ps.flatMap operands := by
  induction ps with
  | nil => rfl
  | cons p ps ih => rw [allOperands, ih, List.flatMap_cons]

theorem allCompile_iff (ms : Mappings) (ps : List Predicate) :
    AllCompile ms ps ↔ ∀ p ∈ ps, p.Compiles ms := by
  induction ps with
  | nil => simp [AllCompile]
  | cons p ps ih => rw [AllCompile, ih, List.forall_mem_cons]

/-! ## Empty conditions -/

theorem operands_of_isEmpty {p : Predicate} (h : p.isEmpty = true) : p.operands = [] := by
  induction p using treeInduction with
  | group k members ih =>
    rw [isEmpty_group, List.all_eq_true] at h
    rw [operands, allOperands_eq_flatMap, List.flatMap_eq_nil_iff]
    exact fun p hp => ih p hp (h p hp)
  | _ => simp [isEmpty] at h

theorem compiles_of_isEmpty (ms : Mappings) {p : Predicate} (h : p.isEmpty = true) :
    p.Compiles ms := by
  induction p using treeInduction with
  | group k members ih =>
    rw [isEmpty_group, List.all_eq_true] at h
    rw [Compiles, allCompile_iff]
    exact fun p hp => ih p hp (h p hp)
  | _ => simp [isEmpty] at h

/-- Empty members bind nothing. -/
theorem flatMap_inhabited (ps : List Predicate) :
    (inhabited ps).flatMap operands = ps.flatMap operands := by
  induction ps with
  | nil => rfl
  | cons p ps ih =>
    unfold inhabited at ih ⊢
    cases hp : p.isEmpty with
    | true => simp [hp, ih, operands_of_isEmpty hp]
    | false => simp [hp, ih]

/-- The members that hold a condition decide whether all can be written. -/
theorem forall_inhabited_compiles (ms : Mappings) (ps : List Predicate) :
    (∀ p ∈ inhabited ps, p.Compiles ms) ↔ ∀ p ∈ ps, p.Compiles ms := by
  refine ⟨fun h p hp => ?_, fun h p hp => h p (mem_inhabited.mp hp).1⟩
  cases he : p.isEmpty with
  | true => exact compiles_of_isEmpty ms he
  | false => exact h p (mem_inhabited.mpr ⟨hp, he⟩)

/-! ## The fragments of a condition -/

theorem operands_groupFragments (k : Connective) (parts : List (List Fragment)) :
    Fragment.operands (groupFragments k parts) = parts.flatMap Fragment.operands := by
  cases parts with
  | nil => rfl
  | cons fs parts =>
    unfold groupFragments
    rw [Fragment.operands_append, Fragment.operands_append, Fragment.operands_joined]
    simp [Fragment.binds]

theorem checkAll_groupFragments_iff (ms : Mappings) (k : Connective)
    (parts : List (List Fragment)) :
    Fragment.checkAll ms (groupFragments k parts) = .ok () ↔
      ∀ fs ∈ parts, Fragment.checkAll ms fs = .ok () := by
  cases parts with
  | nil => simp [groupFragments, Fragment.checkAll, Fragment.check]
  | cons fs parts =>
    unfold groupFragments
    rw [Fragment.checkAll_append_iff, Fragment.checkAll_append_iff, Fragment.checkAll_joined_iff]
    simp [Fragment.checkAll, Fragment.check]

theorem layout_groupFragments (d : Dialect) (ms : Mappings) (i : Nat) (k : Connective)
    (parts : List (List Fragment)) :
    Fragment.layout d ms i (groupFragments k parts) =
      groupRendering d k (Fragment.layouts d ms i parts) := by
  cases parts with
  | nil => rfl
  | cons fs parts =>
    unfold groupFragments
    rw [Fragment.layout_append, Fragment.layout_append, Fragment.layout_joined]
    rfl

/-- The operands of a comparison with a list. -/
theorem operands_listOperands (base : String) (items : List Value) :
    (items.map fun v => [Fragment.operand base v]).flatMap Fragment.operands =
      items.map fun v => (base, v) := by
  induction items with
  | nil => rfl
  | cons v items ih => rw [List.map_cons, List.flatMap_cons, ih]; rfl

theorem operands_listFragments (c : ColumnRef) (items : List Value) (negated : Bool) :
    Fragment.operands (listFragments c items negated) = fieldOperands c (.list items) := by
  cases items with
  | nil => rfl
  | cons v items =>
    unfold listFragments
    rw [Fragment.operands_append, Fragment.operands_append, Fragment.operands_joined,
      operands_listOperands]
    simp [Fragment.binds, fieldOperands]

theorem checkAll_listFragments_iff (ms : Mappings) (c : ColumnRef) (items : List Value)
    (negated : Bool) :
    Fragment.checkAll ms (listFragments c items negated) = .ok () ↔
      ((ms.column c).map fun _ => ()) = .ok () := by
  cases items with
  | nil => simp [listFragments, Fragment.checkAll_eq_ok_iff, Fragment.check]
  | cons v items =>
    unfold listFragments
    rw [Fragment.checkAll_append_iff, Fragment.checkAll_append_iff, Fragment.checkAll_joined_iff]
    simp [Fragment.checkAll_eq_ok_iff, Fragment.check]

theorem layouts_listOperands (d : Dialect) (ms : Mappings) (i : Nat) (base : String)
    (items : List Value) :
    Fragment.layouts d ms i (items.map fun v => [Fragment.operand base v]) =
      (List.range' i items.length).map fun j => [.place j] := by
  induction items generalizing i with
  | nil => rfl
  | cons v items ih =>
    rw [List.map_cons, Fragment.layouts, ih]
    rfl

theorem layout_listFragments (d : Dialect) (ms : Mappings) (i : Nat) (c : ColumnRef)
    (op : Operator) (items : List Value) (negated : Bool) :
    Fragment.layout d ms i (listFragments c items negated) =
      fieldRendering d ms i c op negated (.list items) := by
  cases items with
  | nil => rfl
  | cons v items =>
    unfold listFragments
    rw [Fragment.layout_append, Fragment.layout_append, Fragment.layout_joined,
      layouts_listOperands]
    rfl

/-- What is bound for the fragments of a condition is bound for its operands. -/
theorem operands_fragments {ms : Mappings} {p : Predicate} (h : p.Compiles ms) :
    Fragment.operands p.fragments = p.operands := by
  induction p using treeInduction with
  | field c op v negated =>
    cases v with
    | list items =>
      have hop : op = .eq := h.2 rfl
      rw [fragments, fieldFragments, if_pos hop, operands]
      exact operands_listFragments c items negated
    | _ => rfl
  | property c op other negated => rfl
  | between c low high negated => rfl
  | group k members ih =>
    rw [Compiles, allCompile_iff] at h
    rw [fragments, operands_groupFragments, memberFragments_eq_map, List.flatMap_map, operands,
      allOperands_eq_flatMap, ← flatMap_inhabited]
    have hmembers : ∀ p ∈ inhabited members, Fragment.operands p.fragments = p.operands := by
      intro p hp
      have hp' := (mem_inhabited.mp hp).1
      exact ih p hp' (h p hp')
    rw [List.flatMap_def, List.flatMap_def, List.map_congr_left hmembers]
  | anyRow e p negated ih =>
    rw [fragments, Fragment.operands_append, Fragment.operands_append, ih h.2]
    simp [Fragment.binds, operands]

/-- The fragments of a condition can be written when the condition can. -/
theorem checkAll_fragments (ms : Mappings) (p : Predicate) :
    Fragment.checkAll ms p.fragments = .ok () ↔ p.Compiles ms := by
  have hcolumn (c : ColumnRef) :
      ((ms.column c).map fun _ => ()) = .ok () ↔ ∃ x, ms.column c = .ok x := by
    cases ms.column c <;> simp [Except.map]
  have hmapping (e : EntityType) : ((ms e).map fun _ => ()) = .ok () ↔ ∃ m, ms e = .ok m := by
    cases ms e <;> simp [Except.map]
  induction p using treeInduction with
  | field c op v negated =>
    cases v with
    | list items =>
      rw [fragments, fieldFragments, Compiles]
      by_cases hop : op = .eq
      · rw [if_pos hop, and_iff_left fun _ => hop, checkAll_listFragments_iff, hcolumn]
      · rw [if_neg hop]
        simp [Fragment.checkAll, Fragment.check, Value.isList, hop]
    | _ =>
      simp [Fragment.checkAll_eq_ok_iff, fragments, fieldFragments, Fragment.check, Compiles,
        hcolumn, Value.isList]
  | property c op other negated =>
    simp [Fragment.checkAll_eq_ok_iff, fragments, Fragment.check, Compiles, hcolumn]
  | between c low high negated =>
    simp [Fragment.checkAll_eq_ok_iff, fragments, Fragment.check, Compiles, hcolumn]
  | group k members ih =>
    rw [fragments, checkAll_groupFragments_iff, memberFragments_eq_map, List.forall_mem_map,
      Compiles, allCompile_iff, ← forall_inhabited_compiles]
    exact forall₂_congr fun p hp => ih p (mem_inhabited.mp hp).1
  | anyRow e p negated ih =>
    rw [fragments, Fragment.checkAll_append_iff, Fragment.checkAll_append_iff]
    simp [Fragment.checkAll_eq_ok_iff _ [_], Fragment.checkAll_eq_ok_iff _ [_, _, _, _],
      Fragment.check, Compiles, hmapping, ih]

/-- The fragments of a condition write its rendering. -/
theorem layout_fragments (d : Dialect) {ms : Mappings} (i : Nat) {p : Predicate}
    (h : p.Compiles ms) : Fragment.layout d ms i p.fragments = p.rendering d ms i := by
  induction p using treeInduction generalizing i with
  | field c op v negated =>
    cases v with
    | list items =>
      have hop : op = .eq := h.2 rfl
      rw [fragments, fieldFragments, if_pos hop, rendering]
      exact layout_listFragments d ms i c op items negated
    | _ => rfl
  | property c op other negated => rfl
  | between c low high negated => rfl
  | group k members ih =>
    rw [Compiles, allCompile_iff] at h
    rw [fragments, layout_groupFragments, rendering]
    congr 1
    -- the members from left to right, each behind the operands of those in front of it
    induction members generalizing i with
    | nil => rfl
    | cons p ps ihs =>
      have hps (j : Nat) := ihs (fun q hq => ih q (List.mem_cons_of_mem p hq)) j
        (fun q hq => h q (List.mem_cons_of_mem p hq))
      rw [memberFragments, memberRenderings]
      cases hp : p.isEmpty with
      | true => exact hps i
      | false =>
        have hpc := h p List.mem_cons_self
        simp only [Bool.false_eq_true, if_false]
        rw [Fragment.layouts, ih p List.mem_cons_self i hpc, operands_fragments hpc, hps]
  | anyRow e p negated ih =>
    rw [fragments, Fragment.layout_append, Fragment.layout_append, ih _ h.2]
    simp [Fragment.layout, Fragment.parts, Fragment.binds, rendering]

end Predicate

end EntitySql
