/-
  Places in a text, in bytes of its UTF-8 form. A text cannot be cut within a character, so cutting
  is a partial function.
-/

namespace EntitySql.Text

/-- The bytes at which the characters begin, where the first one begins at `byte`. -/
def beginnings (byte : Nat) : List Char → List Nat
  | [] => []
  | c :: cs => byte :: beginnings (byte + c.utf8Size) cs

/-- The characters in front of a byte. There is no answer for a byte within a character or behind
    the end of the last one. -/
def inFrontOf? (byte : Nat) : List Char → Option (List Char)
  | [] => if byte = 0 then some [] else none
  | c :: cs =>
    if byte = 0 then some []
    else if c.utf8Size ≤ byte then (inFrontOf? (byte - c.utf8Size) cs).map (c :: ·)
    else none

/-- The characters from a byte on. There is no answer for a byte within a character or behind the
    end of the last one. -/
def behind? (byte : Nat) : List Char → Option (List Char)
  | [] => if byte = 0 then some [] else none
  | c :: cs =>
    if byte = 0 then some (c :: cs)
    else if c.utf8Size ≤ byte then behind? (byte - c.utf8Size) cs
    else none

/-- The characters from one byte to another one. There is no answer if the text cannot be cut at
    both, or if the second one is in front of the first one. -/
def between? (start stop : Nat) (cs : List Char) : Option (List Char) :=
  if start ≤ stop then behind? start cs >>= inFrontOf? (stop - start) else none

/-! ## Laws -/

/-- Number of bytes of the UTF-8 form. -/
def byteCount : List Char → Nat
  | [] => 0
  | c :: cs => c.utf8Size + byteCount cs

@[simp] theorem byteCount_cons (c : Char) (cs : List Char) :
    byteCount (c :: cs) = c.utf8Size + byteCount cs := rfl

/-- A character begins behind those in front of it. -/
theorem mem_beginnings_iff {byte n : Nat} {cs : List Char} :
    n ∈ beginnings byte cs ↔
      ∃ start rest, cs = start ++ rest ∧ rest ≠ [] ∧ n = byte + byteCount start := by
  induction cs generalizing byte with
  | nil => simp [beginnings]
  | cons c cs ih =>
    rw [beginnings, List.mem_cons, ih]
    constructor
    · rintro (rfl | ⟨start, rest, rfl, hrest, rfl⟩)
      · exact ⟨[], c :: cs, rfl, List.cons_ne_nil _ _, rfl⟩
      · exact ⟨c :: start, rest, rfl, hrest, by rw [byteCount_cons]; omega⟩
    · rintro ⟨start, rest, hcs, hrest, rfl⟩
      cases start with
      | nil => exact .inl rfl
      | cons x start =>
        obtain ⟨rfl, rfl⟩ := List.cons.inj hcs
        exact .inr ⟨start, rest, rfl, hrest, by rw [byteCount_cons]; omega⟩

theorem byteCount_append (start rest : List Char) :
    byteCount (start ++ rest) = byteCount start + byteCount rest := by
  induction start with
  | nil => exact (Nat.zero_add _).symm
  | cons c start ih => rw [List.cons_append, byteCount_cons, ih, byteCount_cons, Nat.add_assoc]

/-- Characters can be cut behind any start of them. -/
theorem inFrontOf?_append (start rest : List Char) :
    inFrontOf? (byteCount start) (start ++ rest) = some start := by
  induction start with
  | nil => cases rest <;> rfl
  | cons c start ih =>
    have hsize := c.utf8Size_pos
    rw [byteCount_cons, List.cons_append, inFrontOf?, if_neg (by omega), if_pos (by omega),
      Nat.add_sub_cancel_left, ih, Option.map_some]

/-- Characters can be cut nowhere else. -/
theorem exists_of_inFrontOf? {byte : Nat} {cs start : List Char}
    (h : inFrontOf? byte cs = some start) :
    ∃ rest, cs = start ++ rest ∧ byteCount start = byte := by
  induction cs generalizing byte start with
  | nil =>
    simp only [inFrontOf?, Option.ite_none_right_eq_some, Option.some.injEq] at h
    obtain ⟨rfl, rfl⟩ := h
    exact ⟨[], rfl, rfl⟩
  | cons c cs ih =>
    simp only [inFrontOf?] at h
    split at h
    · rename_i hbyte
      cases h
      exact ⟨c :: cs, rfl, hbyte.symm⟩
    · obtain ⟨hle, hcut⟩ := Option.ite_none_right_eq_some.mp h
      obtain ⟨start, hstart, rfl⟩ := Option.map_eq_some_iff.mp hcut
      obtain ⟨rest, rfl, hcount⟩ := ih hstart
      exact ⟨rest, rfl, by rw [byteCount_cons]; omega⟩

theorem behind?_append (start rest : List Char) :
    behind? (byteCount start) (start ++ rest) = some rest := by
  induction start with
  | nil => cases rest <;> rfl
  | cons c start ih =>
    have hsize := c.utf8Size_pos
    rw [byteCount_cons, List.cons_append, behind?, if_neg (by omega), if_pos (by omega),
      Nat.add_sub_cancel_left, ih]

/-- What stands between two starts of a text can be cut out. -/
theorem between?_append (start part rest : List Char) :
    between? (byteCount start) (byteCount (start ++ part)) (start ++ part ++ rest) = some part := by
  have hle : byteCount start ≤ byteCount (start ++ part) := by rw [byteCount_append]; omega
  rw [between?, if_pos hle, List.append_assoc, behind?_append, byteCount_append,
    Nat.add_sub_cancel_left]
  exact inFrontOf?_append part rest

end EntitySql.Text
