/-
  Fresh names: a binding takes a name that no parameter has, and goes behind the ones that are
  there.

  `freshIndex` looks among as many numbers as there are names, and one more. The numbered names
  of one base differ (`numbered_injective`), so one of them is free (`exists_free`), and the first
  such is found (`isFirstFree_freshIndex`). `bindAll` binds several operands in order; what it adds
  is `newNames` beside the values (`entries_bindAll`), and these names are new (`isNew_newNames`).
-/
import EntitySql.Parameters

namespace EntitySql.Parameters

/-! ## One binding -/

theorem toList_numbered (base : String) (i : Nat) :
    (numbered base i).toList = base.toList ++ '_' :: Nat.toDigits 10 i := by
  unfold numbered
  rw [Nat.toString_eq_ofList_toDigits]
  simp

theorem numbered_injective (base : String) {i j : Nat} (h : numbered base i = numbered base j) :
    i = j := by
  have hdigits : Nat.toDigits 10 i = Nat.toDigits 10 j := by
    have hc : (numbered base i).toList = (numbered base j).toList := by rw [h]
    rw [toList_numbered, toList_numbered] at hc
    exact (List.cons.inj (List.append_cancel_left hc)).2
  rw [← Nat.ofDigitChars_ten_toDigits (n := i), hdigits, Nat.ofDigitChars_ten_toDigits]

theorem names_length (ps : Parameters) : ps.names.length = ps.size := by
  simp [names, size]

theorem exists_free (ps : Parameters) (base : String) :
    ∃ i, i < ps.size + 1 ∧ numbered base i ∉ ps.names := by
  by_cases h : ∃ i, i < ps.size + 1 ∧ numbered base i ∉ ps.names
  · exact h
  · -- otherwise one more name than there are would be taken
    exfalso
    have hsub : (List.range (ps.size + 1)).map (numbered base) ⊆ ps.names := by
      intro n hn
      obtain ⟨i, hi, rfl⟩ := List.mem_map.mp hn
      have hi' := List.mem_range.mp hi
      by_cases hf : numbered base i ∈ ps.names
      · exact hf
      · exact absurd ⟨i, hi', hf⟩ h
    have hnd : ((List.range (ps.size + 1)).map (numbered base)).Nodup :=
      List.Pairwise.map (numbered base) (fun i j hne he => hne (numbered_injective base he))
        List.nodup_range
    have hle := hnd.length_le_of_subset hsub
    rw [List.length_map, List.length_range, names_length] at hle
    omega

theorem contains_eq_false_iff (ps : Parameters) (name : String) :
    ps.contains name = false ↔ name ∉ ps.names := by
  rw [contains, List.any_eq_false]
  constructor
  · intro h hname
    obtain ⟨entry, hentry, rfl⟩ := List.mem_map.mp hname
    exact h entry hentry (beq_self_eq_true _)
  · intro h entry hentry he
    exact h (List.mem_map.mpr ⟨entry, hentry, eq_of_beq he⟩)

/-- The name with the number is free, and no name with a lower number is. -/
structure IsFirstFree (ps : Parameters) (base : String) (i : Nat) : Prop where
  /-- The name is free. -/
  free : numbered base i ∉ ps.names
  /-- Those below it are taken. -/
  taken : ∀ j < i, numbered base j ∈ ps.names

/-- The number of a fresh name is the first one that is free. -/
theorem isFirstFree_freshIndex (ps : Parameters) (base : String) :
    ps.IsFirstFree base (ps.freshIndex base) ∧ ps.freshIndex base ≤ ps.size := by
  obtain ⟨i, hi, hfree⟩ := ps.exists_free base
  unfold freshIndex
  cases hfind : (List.range (ps.size + 1)).find? fun i => !ps.contains (numbered base i) with
  | none =>
    have hnone := List.find?_eq_none.mp hfind i (List.mem_range.mpr hi)
    rw [(ps.contains_eq_false_iff _).mpr hfree] at hnone
    exact absurd rfl hnone
  | some j =>
    obtain ⟨hj, hmem, htaken⟩ := List.find?_range_eq_some.mp hfind
    rw [Option.getD_some]
    refine ⟨⟨?_, fun k hk => ?_⟩, Nat.le_of_lt_succ (List.mem_range.mp hmem)⟩
    · rw [← contains_eq_false_iff]
      simpa using hj
    · have hk := htaken k hk
      by_cases hname : numbered base k ∈ ps.names
      · exact hname
      · rw [(ps.contains_eq_false_iff _).mpr hname] at hk
        cases hk

theorem freshName_not_mem (ps : Parameters) (base : String) : ps.freshName base ∉ ps.names :=
  (ps.isFirstFree_freshIndex base).1.free

theorem put_of_not_mem {name : String} {value : Value} {entries : List (String × Value)}
    (h : name ∉ entries.map (·.1)) : put name value entries = entries ++ [(name, value)] := by
  induction entries with
  | nil => rfl
  | cons e entries ih =>
    rw [List.map_cons, List.mem_cons, not_or] at h
    obtain ⟨hne, hmem⟩ := h
    rw [put, if_neg (fun he => hne he.symm), ih hmem, List.cons_append]

theorem entries_bind (ps : Parameters) (base : String) (value : Value) :
    (ps.bind base value).entries = ps.entries ++ [(ps.freshName base, value)] :=
  put_of_not_mem (ps.freshName_not_mem base)

theorem names_bind (ps : Parameters) (base : String) (value : Value) :
    (ps.bind base value).names = ps.names ++ [ps.freshName base] := by
  rw [names, entries_bind, List.map_append]
  rfl

/-! ## Several bindings -/

/-- The names that operands with the given bases and values get, in order. -/
def newNames (ps : Parameters) : List (String × Value) → List String
  | [] => []
  | op :: ops => ps.freshName op.1 :: newNames (ps.bind op.1 op.2) ops

/-- The parameters with operands bound in order. -/
def bindAll (ps : Parameters) : List (String × Value) → Parameters
  | [] => ps
  | op :: ops => bindAll (ps.bind op.1 op.2) ops

/-- Names that differ from each other and from those of the parameters. -/
structure IsNew (ps : Parameters) (ns : List String) : Prop where
  /-- They differ from each other. -/
  nodup : ns.Nodup
  /-- They differ from the names there. -/
  not_mem : ∀ n ∈ ns, n ∉ ps.names

@[simp] theorem length_newNames (ps : Parameters) (ops : List (String × Value)) :
    (ps.newNames ops).length = ops.length := by
  induction ops generalizing ps with
  | nil => rfl
  | cons op ops ih => rw [newNames, List.length_cons, ih, List.length_cons]

theorem newNames_append (ps : Parameters) (ops ops' : List (String × Value)) :
    ps.newNames (ops ++ ops') = ps.newNames ops ++ (ps.bindAll ops).newNames ops' := by
  induction ops generalizing ps with
  | nil => rfl
  | cons op ops ih => rw [List.cons_append, newNames, ih, newNames, bindAll, List.cons_append]

theorem bindAll_append (ps : Parameters) (ops ops' : List (String × Value)) :
    ps.bindAll (ops ++ ops') = (ps.bindAll ops).bindAll ops' := by
  induction ops generalizing ps with
  | nil => rfl
  | cons op ops ih => rw [List.cons_append, bindAll, ih, bindAll]

/-- What was there stays in front, and each operand adds one entry. -/
theorem entries_bindAll (ps : Parameters) (ops : List (String × Value)) :
    (ps.bindAll ops).entries = ps.entries ++ (ps.newNames ops).zip (ops.map (·.2)) := by
  induction ops generalizing ps with
  | nil => simp [bindAll, newNames]
  | cons op ops ih =>
    rw [bindAll, ih, entries_bind, List.append_assoc]
    rfl

theorem names_bindAll (ps : Parameters) (ops : List (String × Value)) :
    (ps.bindAll ops).names = ps.names ++ ps.newNames ops := by
  induction ops generalizing ps with
  | nil => simp [bindAll, newNames]
  | cons op ops ih => rw [bindAll, ih, names_bind, List.append_assoc, newNames, List.singleton_append]

theorem isNew_newNames (ps : Parameters) (ops : List (String × Value)) :
    ps.IsNew (ps.newNames ops) := by
  induction ops generalizing ps with
  | nil => exact ⟨List.nodup_nil, by simp [newNames]⟩
  | cons op ops ih =>
    obtain ⟨hnd, hnm⟩ := ih (ps.bind op.1 op.2)
    have hout : ∀ n ∈ newNames (ps.bind op.1 op.2) ops, n ∉ ps.names ∧ n ≠ ps.freshName op.1 := by
      intro n hn
      have := hnm n hn
      rw [names_bind, List.mem_append, not_or, List.mem_singleton] at this
      exact this
    refine ⟨?_, ?_⟩
    · rw [newNames, List.nodup_cons]
      exact ⟨fun hm => (hout _ hm).2 rfl, hnd⟩
    · intro n hn
      rw [newNames, List.mem_cons] at hn
      rcases hn with rfl | hn
      · exact ps.freshName_not_mem op.1
      · exact (hout n hn).1

theorem mem_newNames {ps : Parameters} {ops : List (String × Value)} {name : String}
    (h : name ∈ ps.newNames ops) : ∃ op ∈ ops, ∃ i, name = numbered op.1 i := by
  induction ops generalizing ps with
  | nil => exact absurd h List.not_mem_nil
  | cons op ops ih =>
    rw [newNames, List.mem_cons] at h
    rcases h with rfl | h
    · exact ⟨op, List.mem_cons_self, ps.freshIndex op.1, rfl⟩
    · obtain ⟨op', hop', i, hi⟩ := ih h
      exact ⟨op', List.mem_cons_of_mem op hop', i, hi⟩

/-! ## Looking up -/

theorem get?_bind (ps : Parameters) (base : String) (value : Value) (name : String) :
    (ps.bind base value).get? name =
      (ps.get? name).or (if name = ps.freshName base then some value else none) := by
  unfold get?
  rw [entries_bind, List.lookup_append, List.lookup_cons, List.lookup_nil]
  by_cases h : name = ps.freshName base
  · simp [h]
  · have hne : (name == ps.freshName base) = false := beq_eq_false_iff_ne.mpr h
    rw [hne, if_neg h]

theorem get?_eq_none_of_not_mem {ps : Parameters} {name : String} (h : name ∉ ps.names) :
    ps.get? name = none := by
  unfold get?
  rw [List.lookup_eq_none_iff]
  intro entry hentry
  rw [bne_iff_ne]
  rintro rfl
  exact h (List.mem_map_of_mem hentry)

/-- A name that has a value keeps it. -/
theorem get?_bindAll_of_eq_some {ps : Parameters} {name : String} {v : Value}
    (h : ps.get? name = some v) (ops : List (String × Value)) :
    (ps.bindAll ops).get? name = some v := by
  induction ops generalizing ps with
  | nil => exact h
  | cons op ops ih =>
    refine ih ?_
    rw [get?_bind, h]
    rfl

/-- The name of an operand has the value that was bound for it. -/
theorem get?_newNames (ps : Parameters) (ops : List (String × Value)) {i : Nat}
    (hi : i < ops.length) :
    (ps.bindAll ops).get? ((ps.newNames ops).getD i "") = some ops[i].2 := by
  induction ops generalizing ps i with
  | nil => exact absurd hi (Nat.not_lt_zero i)
  | cons op ops ih =>
    cases i with
    | zero =>
      have hfresh : (ps.bind op.1 op.2).get? (ps.freshName op.1) = some op.2 := by
        rw [get?_bind, get?_eq_none_of_not_mem (ps.freshName_not_mem op.1), if_pos rfl]
        rfl
      exact get?_bindAll_of_eq_some hfresh ops
    | succ i => exact ih (ps.bind op.1 op.2) (Nat.lt_of_succ_lt_succ hi)

end EntitySql.Parameters
