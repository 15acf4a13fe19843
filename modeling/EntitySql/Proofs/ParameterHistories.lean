/-
  Parameters after any number of changes.

  Every change inserts names with values (`Change.apply_eq`), so parameters that were collected and
  then changed are the collection of everything that was written (`run_ofList`). Its names stand in
  the order in which they came first (`names_ofList`), and each has the last value it was given
  (`get?_ofList`).

  A binding looks for the first number whose name is free. The search ends, since a number that is
  not above the count of the names is free (`isFirstFree_freshIndex`). A base and a number are read
  back from the name that they make (`numbered_inj`). So where every name was made by a binding, the
  numbers of a base that are taken are those below the count of its bindings
  (`AreNumbered.bind`), whatever the other bases are.
-/
import EntitySql.Proofs.PropertyParameters
import Mathlib.Logic.Function.Basic

namespace EntitySql.Parameters

/-! ## What was written -/

theorem names_foldl_insert (ps : Parameters) (entries : List (String × Value)) :
    (entries.foldl (fun ps entry => ps.insert entry.1 entry.2) ps).names =
      (entries.map (·.1)).foldl Mapping.withName ps.names := by
  induction entries generalizing ps with
  | nil => rfl
  | cons entry entries ih => rw [List.foldl_cons, ih, names_insert, List.map_cons, List.foldl_cons]

/-- Names stand in the order in which they came first. -/
theorem names_ofList (entries : List (String × Value)) :
    (ofList entries).names = (entries.map (·.1)).eraseDups := by
  rw [← Mapping.foldl_withName]
  exact names_foldl_insert empty entries

theorem ofList_append (entries others : List (String × Value)) :
    ofList (entries ++ others) = (ofList entries).extend ⟨others⟩ := List.foldl_append

/-- A name has the last value that it was given. -/
theorem get?_ofList (entries : List (String × Value)) (name : String) :
    (ofList entries).get? name = entries.reverse.lookup name := by
  induction entries using List.reverseRecOn with
  | nil => rfl
  | append_singleton entries entry ih =>
    have hinsert : ofList (entries ++ [entry]) = (ofList entries).insert entry.1 entry.2 :=
      ofList_append entries [entry]
    rw [hinsert, get?_insert, ih, List.reverse_append, List.reverse_singleton,
      List.singleton_append, List.lookup_cons]
    by_cases hname : name = entry.1
    · rw [if_pos hname, beq_iff_eq.mpr hname]
    · rw [if_neg hname, beq_eq_false_iff_ne.mpr hname]

/-! ## Changes -/

/-- A change of parameters. -/
inductive Change where
  /-- A value under a fresh name. -/
  | bind (base : String) (value : Value)
  /-- A value under this name. -/
  | insert (name : String) (value : Value)
  /-- The entries of others. -/
  | extend (others : Parameters)

/-- The parameters with the change. -/
def Change.apply (ps : Parameters) : Change → Parameters
  | bind base value => ps.bind base value
  | insert name value => ps.insert name value
  | extend others => ps.extend others

/-- What the change writes, in order. -/
def Change.writes (ps : Parameters) : Change → List (String × Value)
  | bind base value => [(ps.freshName base, value)]
  | insert name value => [(name, value)]
  | extend others => others.entries

theorem Change.apply_eq (ps : Parameters) (change : Change) :
    change.apply ps = ps.extend ⟨change.writes ps⟩ := by
  cases change <;> rfl

/-- The parameters with all changes. -/
def run (ps : Parameters) (changes : List Change) : Parameters := changes.foldl Change.apply ps

/-- What changes write, in order. -/
def written (ps : Parameters) : List Change → List (String × Value)
  | [] => []
  | change :: changes => change.writes ps ++ written (change.apply ps) changes

/-- Collected parameters that are changed are the collection of all that was written. -/
theorem run_ofList (pairs : List (String × Value)) (changes : List Change) :
    (ofList pairs).run changes = ofList (pairs ++ (ofList pairs).written changes) := by
  induction changes generalizing pairs with
  | nil => rw [written, List.append_nil, run, List.foldl_nil]
  | cons change changes ih =>
    have hstep : change.apply (ofList pairs) = ofList (pairs ++ change.writes (ofList pairs)) := by
      rw [change.apply_eq, ofList_append]
    rw [written, ← List.append_assoc, hstep, ← ih, ← hstep]
    rfl

/-! ## The search of a binding -/

theorem IsFirstFree.unique {ps : Parameters} {base : String} {i j : Nat}
    (hi : ps.IsFirstFree base i) (hj : ps.IsFirstFree base j) : i = j := by
  rcases Nat.lt_trichotomy i j with hlt | heq | hlt
  · exact absurd (hj.taken i hlt) hi.free
  · exact heq
  · exact absurd (hi.taken j hlt) hj.free

/-- The search for a free name from a number on, and the number that it ends with. -/
inductive SearchEnds (ps : Parameters) (base : String) : Nat → Nat → Prop where
  /-- The name is free. -/
  | free {i : Nat} (h : numbered base i ∉ ps.names) : SearchEnds ps base i i
  /-- The name is taken, and the search goes on. -/
  | taken {i j : Nat} (h : numbered base i ∈ ps.names) (hrest : SearchEnds ps base (i + 1) j) :
      SearchEnds ps base i j

theorem SearchEnds.unique {ps : Parameters} {base : String} {i j k : Nat}
    (hj : ps.SearchEnds base i j) (hk : ps.SearchEnds base i k) : j = k := by
  induction hj with
  | free hfree =>
    cases hk with
    | free => rfl
    | taken htaken => exact absurd htaken hfree
  | taken htaken _ ih =>
    cases hk with
    | free hfree => exact absurd htaken hfree
    | taken _ hrest => exact ih hrest

/-- The search ends with the first number that is free. -/
theorem IsFirstFree.searchEnds {ps : Parameters} {base : String} {i : Nat}
    (h : ps.IsFirstFree base i) {j : Nat} (hj : j ≤ i) : ps.SearchEnds base j i := by
  obtain ⟨n, rfl⟩ := Nat.exists_eq_add_of_le hj
  induction n generalizing j with
  | zero => exact .free h.free
  | succ n ih =>
    have hnext : j + 1 + n = j + (n + 1) := by omega
    refine .taken (h.taken j (by omega)) ?_
    rw [← hnext] at h ⊢
    exact ih h (by omega)

/-! ## Bases that do not interfere -/

theorem underscore_not_mem_toDigits (i : Nat) : '_' ∉ Nat.toDigits 10 i := by
  intro h
  have hdigit := Nat.isDigit_of_mem_toDigits (by decide) (by decide) h
  exact absurd hdigit (by decide)

/-- A text ends behind its last underscore in one way. -/
theorem append_underscore_inj {front front' back back' : List Char} (h : '_' ∉ back)
    (h' : '_' ∉ back') (heq : front ++ '_' :: back = front' ++ '_' :: back') : front = front' := by
  rcases List.append_eq_append_iff.mp heq with ⟨more, hfront, hback⟩ | ⟨more, hfront, hback⟩
  · cases more with
    | nil => exact (hfront.trans (List.append_nil _)).symm
    | cons c more =>
      have hmem : '_' ∈ back := by
        rw [(List.cons.inj hback).2]
        exact List.mem_append_right more List.mem_cons_self
      exact absurd hmem h
  · cases more with
    | nil => exact hfront.trans (List.append_nil _)
    | cons c more =>
      have hmem : '_' ∈ back' := by
        rw [(List.cons.inj hback).2]
        exact List.mem_append_right more List.mem_cons_self
      exact absurd hmem h'

/-- The base and the number are read back from the name. -/
theorem numbered_inj {base base' : String} {i j : Nat} :
    numbered base i = numbered base' j ↔ base = base' ∧ i = j := by
  constructor
  · intro h
    have hchars : (numbered base i).toList = (numbered base' j).toList := by rw [h]
    rw [toList_numbered, toList_numbered] at hchars
    have hbase := append_underscore_inj (underscore_not_mem_toDigits i)
      (underscore_not_mem_toDigits j) hchars
    obtain rfl := String.toList_inj.mp hbase
    exact ⟨rfl, numbered_injective base h⟩
  · rintro ⟨rfl, rfl⟩
    rfl

/-- Of each base, the numbers below its count are taken, and no other ones. -/
def AreNumbered (ps : Parameters) (count : String → Nat) : Prop :=
  ∀ base i, numbered base i ∈ ps.names ↔ i < count base

theorem areNumbered_empty : empty.AreNumbered fun _ => 0 := by
  intro base i
  constructor
  · intro h
    cases h
  · intro h
    exact absurd h (Nat.not_lt_zero i)

variable {ps : Parameters} {count : String → Nat}

/-- The next binding of a base gets its count. -/
theorem AreNumbered.freshName (h : ps.AreNumbered count) (base : String) :
    ps.freshName base = numbered base (count base) := by
  have hfirst : ps.IsFirstFree base (count base) :=
    ⟨fun hname => Nat.lt_irrefl _ ((h base _).mp hname), fun j hj => (h base j).mpr hj⟩
  have hindex := (ps.isFirstFree_freshIndex base).1.unique hfirst
  exact congrArg (numbered base) hindex

/-- A binding adds one to the count of its base. -/
theorem AreNumbered.bind (h : ps.AreNumbered count) (base : String) (value : Value) :
    (ps.bind base value).AreNumbered (Function.update count base (count base + 1)) := by
  intro other i
  rw [names_bind, List.mem_append, List.mem_singleton, h.freshName, numbered_inj, h other i]
  by_cases hbase : other = base
  · subst hbase
    rw [Function.update_self, and_iff_right rfl]
    omega
  · rw [Function.update_of_ne hbase]
    simp [hbase]

/-- The number of a name is the count of its base, and that of the bindings of the base in front of
    it. -/
theorem AreNumbered.newNames_eq (h : ps.AreNumbered count) (ops : List (String × Value)) :
    ps.newNames ops = ops.mapIdx fun i op =>
      numbered op.1 (count op.1 + (ops.take i).countP (·.1 == op.1)) := by
  induction ops generalizing ps count with
  | nil => rfl
  | cons op ops ih =>
    rw [newNames, ih (h.bind op.1 op.2), List.mapIdx_cons, h.freshName]
    refine congrArg₂ List.cons rfl ?_
    congr 1
    funext i op'
    rw [List.take_succ_cons, List.countP_cons]
    by_cases hbase : op'.1 = op.1
    · rw [hbase, Function.update_self, beq_self_eq_true, if_pos rfl]
      congr 1
      omega
    · rw [Function.update_of_ne hbase, beq_eq_false_iff_ne.mpr (Ne.symm hbase),
        if_neg Bool.false_ne_true]
      rfl

theorem map_fst_written_bind (ps : Parameters) (ops : List (String × Value)) :
    (ps.written (ops.map fun op => .bind op.1 op.2)).map (·.1) = ps.newNames ops := by
  induction ops generalizing ps with
  | nil => rfl
  | cons op ops ih =>
    rw [List.map_cons, written, List.map_append, newNames]
    exact congrArg (ps.freshName op.1 :: ·) (ih _)

theorem run_bind (ps : Parameters) (ops : List (String × Value)) :
    ps.run (ops.map fun op => .bind op.1 op.2) = ps.bindAll ops := by
  induction ops generalizing ps with
  | nil => rfl
  | cons op ops ih => exact ih (ps.bind op.1 op.2)

/-- Parameters that were collected from any pairs and then changed in any way have names that
    differ, in the order in which they were first written, and each with the value that was written
    last. For all parameters, the search of a binding ends, with the first number whose name is
    free, which is not above the count of the names; the binding adds one entry at the end, under
    this name, and no other name has another value. Where there were bindings only, each got the
    number of bindings of the same base in front of it. -/
theorem parameters_keep_what_was_written :
    (∀ (pairs : List (String × Value)) (changes : List Change),
      ((ofList pairs).run changes).names.Nodup ∧
      ((ofList pairs).run changes).names =
        ((pairs ++ (ofList pairs).written changes).map (·.1)).eraseDups ∧
      ∀ name, ((ofList pairs).run changes).get? name =
        (pairs ++ (ofList pairs).written changes).reverse.lookup name) ∧
    (∀ (ps : Parameters) (base : String) (value : Value), ∃ i, i ≤ ps.size ∧
      (∀ j, ps.SearchEnds base 0 j ↔ j = i) ∧ ps.IsFirstFree base i ∧
      ps.freshName base = numbered base i ∧
      (ps.bind base value).entries = ps.entries ++ [(numbered base i, value)] ∧
      ∀ name, (ps.bind base value).get? name =
        if name = numbered base i then some value else ps.get? name) ∧
    ∀ ops : List (String × Value),
      let names := ops.mapIdx fun i op => numbered op.1 ((ops.take i).countP (·.1 == op.1))
      (empty.written (ops.map fun op => .bind op.1 op.2)).map (·.1) = names ∧
      (empty.run (ops.map fun op => .bind op.1 op.2)).names = names := by
  refine ⟨fun pairs changes => ?_, fun ps base value => ?_, fun ops => ?_⟩
  · rw [run_ofList, names_ofList]
    exact ⟨Mapping.nodup_eraseDups _, rfl, get?_ofList _⟩
  · obtain ⟨hfirst, hle⟩ := ps.isFirstFree_freshIndex base
    have hends := hfirst.searchEnds (Nat.zero_le _)
    refine ⟨ps.freshIndex base, hle, fun j => ?_, hfirst, rfl, ps.entries_bind base value,
      ps.get?_insert _ value⟩
    constructor
    · exact fun h => h.unique hends
    · rintro rfl
      exact hends
  · have hnames : empty.newNames ops =
        ops.mapIdx fun i op => numbered op.1 ((ops.take i).countP (·.1 == op.1)) := by
      rw [areNumbered_empty.newNames_eq]
      simp only [Nat.zero_add]
    intro names
    rw [map_fst_written_bind, run_bind, names_bindAll, hnames]
    exact ⟨rfl, List.nil_append _⟩

example :
    empty.newNames [("a", .null), ("a_0", .null), ("a", .null), ("a_1", .null), ("a_0", .null)] =
      ["a_0", "a_0_0", "a_1", "a_1_0", "a_0_1"] := by decide +kernel

end EntitySql.Parameters
