/-
  The longest start of a text that takes no more than a number of UTF-8 bytes. Its end is looked
  for among the bytes at which characters begin. Cutting is a partial function, and the definition
  of the start holds the proof that it is not asked for a cut within a character.
-/
import EntitySql.Text.Bytes

namespace EntitySql.Text

/-- The last byte that is not behind `max` and at which a character begins. -/
def lastBeginning (max : Nat) (cs : List Char) : Nat :=
  ((beginnings 0 cs).takeWhile (· ≤ max)).getLast?.getD 0

/-- A text that is longer than `max` bytes is cut at the last beginning that is not behind them. -/
def truncated? (s : String) (max : Nat) : Option String :=
  if s.utf8ByteSize ≤ max then some s
  -- The end of the text is no beginning, but it is behind the limit here.
  else (inFrontOf? (lastBeginning max s.toList) s.toList).map String.ofList

/-! ## Laws -/

/-- The place of the cut is behind some of the characters. -/
theorem exists_of_lastBeginning (max : Nat) (cs : List Char) :
    ∃ start rest, cs = start ++ rest ∧ lastBeginning max cs = byteCount start := by
  unfold lastBeginning
  cases hlast : ((beginnings 0 cs).takeWhile (· ≤ max)).getLast? with
  | none => exact ⟨[], cs, rfl, rfl⟩
  | some n =>
    have hmem : n ∈ beginnings 0 cs :=
      (List.takeWhile_prefix _).subset (List.mem_of_getLast? hlast)
    obtain ⟨start, rest, hcs, -, hn⟩ := mem_beginnings_iff.mp hmem
    exact ⟨start, rest, hcs, by rw [Option.getD_some, hn, Nat.zero_add]⟩

/-- The text can be cut at the place that is found. -/
theorem isSome_truncated? (s : String) (max : Nat) : (truncated? s max).isSome = true := by
  unfold truncated?
  split
  · rfl
  · obtain ⟨start, rest, hcs, hlast⟩ := exists_of_lastBeginning max s.toList
    rw [hlast, hcs, inFrontOf?_append]
    rfl

/-- The longest start of a text that takes at most `max` bytes in UTF-8. -/
def truncated (s : String) (max : Nat) : String := (truncated? s max).get (isSome_truncated? s max)

end EntitySql.Text
