/-
  Blank characters, as the `White_Space` property lists them, and the trimming of text at
  both ends.
-/

namespace EntitySql.Text

/-- The characters with the `White_Space` property. -/
def isBlank (c : Char) : Bool :=
  let n := c.toNat
  (0x09 ≤ n && n ≤ 0x0D) || n == 0x20 || n == 0x85 || n == 0xA0 || n == 0x1680 ||
    (0x2000 ≤ n && n ≤ 0x200A) || n == 0x2028 || n == 0x2029 || n == 0x202F || n == 0x205F ||
    n == 0x3000

/-- Characters without the blanks in front. -/
def dropBlanks (cs : List Char) : List Char := cs.dropWhile isBlank

/-- Characters without the blanks behind. -/
def dropTrailingBlanks : List Char → List Char
  | [] => []
  | c :: cs =>
    match dropTrailingBlanks cs with
    | [] => if isBlank c then [] else [c]
    | kept => c :: kept

/-- Characters without the blanks at both ends. -/
def trimBlanks (cs : List Char) : List Char := dropTrailingBlanks (dropBlanks cs)

/-- A text without the blanks behind. -/
def trimEnd (s : String) : String := String.ofList (dropTrailingBlanks s.toList)

/-! ## Laws -/

/-- What trimming takes away from the end is blank. -/
theorem exists_blanks_append_dropTrailingBlanks (cs : List Char) :
    ∃ blanks : List Char, (∀ c ∈ blanks, isBlank c = true) ∧
      cs = dropTrailingBlanks cs ++ blanks := by
  induction cs with
  | nil => exact ⟨[], by simp, rfl⟩
  | cons c cs ih =>
    obtain ⟨blanks, hblank, heq⟩ := ih
    simp only [dropTrailingBlanks]
    split
    · rename_i hnil
      rw [hnil, List.nil_append] at heq
      split
      · rename_i hc
        refine ⟨c :: cs, ?_, rfl⟩
        intro x hx
        rcases List.mem_cons.mp hx with hx | hx
        · rw [hx]; exact hc
        · rw [heq] at hx; exact hblank x hx
      · exact ⟨cs, by rw [heq]; exact hblank, rfl⟩
    · exact ⟨blanks, hblank, by rw [List.cons_append, ← heq]⟩

/-- The trimmed text does not end with a blank. -/
theorem getLast?_dropTrailingBlanks (cs : List Char) (c : Char)
    (h : (dropTrailingBlanks cs).getLast? = some c) : isBlank c = false := by
  induction cs with
  | nil => simp [dropTrailingBlanks] at h
  | cons x xs ih =>
    simp only [dropTrailingBlanks] at h
    split at h
    · split at h
      · simp at h
      · rename_i hx
        simp only [List.getLast?_singleton, Option.some.injEq] at h
        rw [← h]; simpa using hx
    · rename_i hne
      apply ih
      rwa [List.getLast?_cons_of_ne_nil hne] at h

end EntitySql.Text
