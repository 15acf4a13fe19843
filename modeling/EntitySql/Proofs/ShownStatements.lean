/-
  What a message shows of a statement.

  A cut text is measured in bytes of UTF-8, so the places where it may end are the positions that
  are valid in the text: characters can be cut there and nowhere else (`isSome_inFrontOf?_iff`). The
  bytes at which characters begin are all of these positions but the end of the text, in increasing
  order. So those that are not behind the limit stand in front of all others, and the last one of
  them is the greatest (`isGreatest_lastBeginning`): the text in front of it is the longest start
  that fits. A statement is shown as such a start without the blanks at its end.
-/
import EntitySql.Statement
import Mathlib.Data.List.Pairwise
import Mathlib.Data.List.TakeWhile
import Mathlib.Order.Bounds.Basic

namespace EntitySql

namespace Text

/-! ## Places where a text may end -/

theorem utf8ByteSize_ofList (cs : List Char) : (String.ofList cs).utf8ByteSize = byteCount cs := by
  induction cs with
  | nil => rfl
  | cons c cs ih =>
    rw [String.ofList_cons, String.utf8ByteSize_append, String.utf8ByteSize_singleton, ih,
      byteCount_cons]

theorem byteCount_toList (s : String) : byteCount s.toList = s.utf8ByteSize := by
  rw [← utf8ByteSize_ofList, String.ofList_toList]

/-- A text whose characters are put together of two parts. -/
theorem eq_append_of_toList {s : String} {start rest : List Char} (h : s.toList = start ++ rest) :
    s = String.ofList start ++ String.ofList rest := by
  rw [← String.ofList_append, ← h, String.ofList_toList]

/-- A position is valid behind some of the characters. -/
theorem isValid_iff {s : String} {byte : Nat} :
    (String.Pos.Raw.mk byte).IsValid s ↔
      ∃ start rest, s.toList = start ++ rest ∧ byteCount start = byte := by
  rw [String.Pos.Raw.isValid_iff_exists_append]
  constructor
  · rintro ⟨start, rest, rfl, hbyte⟩
    refine ⟨start.toList, rest.toList, String.toList_append, ?_⟩
    rw [byteCount_toList]
    exact (congrArg String.Pos.Raw.byteIdx hbyte).symm
  · rintro ⟨start, rest, hs, rfl⟩
    refine ⟨String.ofList start, String.ofList rest, eq_append_of_toList hs, ?_⟩
    rw [String.Pos.Raw.ext_iff, String.byteIdx_rawEndPos, utf8ByteSize_ofList]

/-- A text can be cut at the valid positions and nowhere else. -/
theorem isSome_inFrontOf?_iff {s : String} {byte : Nat} :
    (inFrontOf? byte s.toList).isSome = true ↔ (String.Pos.Raw.mk byte).IsValid s := by
  rw [isValid_iff, Option.isSome_iff_exists]
  constructor
  · rintro ⟨start, hstart⟩
    obtain ⟨rest, hs, hbyte⟩ := exists_of_inFrontOf? hstart
    exact ⟨start, rest, hs, hbyte⟩
  · rintro ⟨start, rest, hs, rfl⟩
    exact ⟨start, by rw [hs, inFrontOf?_append]⟩

/-! ## The last character that begins early enough -/

/-- Characters begin one behind the other. -/
theorem pairwise_beginnings (byte : Nat) (cs : List Char) :
    (beginnings byte cs).Pairwise (· < ·) := by
  induction cs generalizing byte with
  | nil => exact List.Pairwise.nil
  | cons c cs ih =>
    refine List.Pairwise.cons ?_ (ih _)
    intro n hn
    obtain ⟨start, -, -, -, rfl⟩ := mem_beginnings_iff.mp hn
    have := c.utf8Size_pos
    omega

/-- Of numbers in increasing order, those that are not above a bound stand in front. -/
theorem takeWhile_le_eq_filter {ns : List Nat} (hns : ns.Pairwise (· < ·)) (max : Nat) :
    ns.takeWhile (· ≤ max) = ns.filter (· ≤ max) := by
  induction ns with
  | nil => rfl
  | cons n ns ih =>
    obtain ⟨hfirst, hrest⟩ := List.pairwise_cons.mp hns
    by_cases hn : n ≤ max
    · simp [hn, ih hrest]
    · have hnone : ns.filter (· ≤ max) = [] := by
        rw [List.filter_eq_nil_iff]
        intro m hm
        have := hfirst m hm
        simp only [decide_eq_true_eq]
        omega
      simp [hn, hnone]

/-- Where there are characters, the place of the cut is the greatest of the bytes at which one
    begins and that are not behind the limit. -/
theorem isGreatest_lastBeginning {cs : List Char} (hcs : cs ≠ []) (max : Nat) :
    IsGreatest {byte | byte ≤ max ∧ byte ∈ beginnings 0 cs} (lastBeginning max cs) := by
  have hsorted := pairwise_beginnings 0 cs
  -- The first character begins at 0, which no limit excludes, so there is a last beginning.
  have hfirst : 0 ∈ beginnings 0 cs := mem_beginnings_iff.mpr ⟨[], cs, rfl, hcs, rfl⟩
  unfold lastBeginning
  rw [takeWhile_le_eq_filter hsorted]
  have hne : (beginnings 0 cs).filter (· ≤ max) ≠ [] :=
    List.ne_nil_of_mem (List.mem_filter.mpr ⟨hfirst, by simp⟩)
  rw [List.getLast?_eq_some_getLast hne, Option.getD_some]
  constructor
  · have hlast := List.mem_filter.mp (List.getLast_mem hne)
    exact ⟨of_decide_eq_true hlast.2, hlast.1⟩
  · rintro byte ⟨hle, hbyte⟩
    have hordered : ((beginnings 0 cs).filter (· ≤ max)).Pairwise (· ≤ ·) :=
      (hsorted.filter _).imp Nat.le_of_lt
    exact hordered.rel_getLast (List.mem_filter.mpr ⟨hbyte, decide_eq_true hle⟩)

/-! ## The longest start -/

/-- The longest start of a text that takes no more than `max` bytes and does not end within a
    character. -/
structure IsLongestStart (s : String) (max : Nat) (start : String) : Prop where
  /-- It is a start of the text. -/
  isStart : ∃ rest, s = start ++ rest
  /-- Its end is the last valid position that is not behind `max` bytes. -/
  isGreatest : IsGreatest {byte | byte ≤ max ∧ (String.Pos.Raw.mk byte).IsValid s}
    start.utf8ByteSize

theorem isLongestStart_self {s : String} {max : Nat} (h : s.utf8ByteSize ≤ max) :
    IsLongestStart s max s where
  isStart := ⟨"", String.append_empty.symm⟩
  isGreatest := ⟨⟨h, String.Pos.Raw.isValid_rawEndPos⟩, fun _ hbyte => hbyte.2.le_utf8ByteSize⟩

/-- In a text that is too long, the valid positions that are not behind the limit are those at which
    a character begins. -/
theorem isValid_iff_mem_beginnings {s : String} {max byte : Nat} (h : max < s.utf8ByteSize)
    (hle : byte ≤ max) :
    (String.Pos.Raw.mk byte).IsValid s ↔ byte ∈ beginnings 0 s.toList := by
  rw [isValid_iff, mem_beginnings_iff]
  constructor
  · rintro ⟨start, rest, hs, rfl⟩
    refine ⟨start, rest, hs, ?_, (Nat.zero_add _).symm⟩
    rintro rfl
    rw [← byteCount_toList, hs, List.append_nil] at h
    omega
  · rintro ⟨start, rest, hs, -, rfl⟩
    exact ⟨start, rest, hs, (Nat.zero_add _).symm⟩

theorem isLongestStart_cut {s : String} {max : Nat} (h : max < s.utf8ByteSize)
    {start : List Char} (hstart : inFrontOf? (lastBeginning max s.toList) s.toList = some start) :
    IsLongestStart s max (String.ofList start) := by
  have hne : s.toList ≠ [] := by
    intro hnil
    rw [← byteCount_toList, hnil] at h
    exact Nat.not_lt_zero _ h
  obtain ⟨rest, hs, hcount⟩ := exists_of_inFrontOf? hstart
  have hplaces : {byte | byte ≤ max ∧ (String.Pos.Raw.mk byte).IsValid s} =
      {byte | byte ≤ max ∧ byte ∈ beginnings 0 s.toList} := by
    ext byte
    exact and_congr_right fun hle => isValid_iff_mem_beginnings h hle
  refine ⟨⟨String.ofList rest, eq_append_of_toList hs⟩, ?_⟩
  rw [utf8ByteSize_ofList, hcount, hplaces]
  exact isGreatest_lastBeginning hne max

theorem isLongestStart_of_truncated? {s start : String} {max : Nat}
    (h : truncated? s max = some start) : IsLongestStart s max start := by
  unfold truncated? at h
  split at h
  · rename_i hle
    cases h
    exact isLongestStart_self hle
  · rename_i hlong
    obtain ⟨cs, hcut, rfl⟩ := Option.map_eq_some_iff.mp h
    exact isLongestStart_cut (Nat.lt_of_not_le hlong) hcut

theorem truncated?_eq (s : String) (max : Nat) : truncated? s max = some (truncated s max) :=
  (Option.some_get _).symm

/-- A text is cut in front of the character that the limit falls into. -/
example : truncated "héllo" 2 = "h" := by decide

/-! ## Blanks at the end -/

/-- A text without the blanks at its end. -/
structure IsTrimmed (s kept : String) : Prop where
  /-- Blanks only are taken away. -/
  blanks : ∃ blanks : String, s = kept ++ blanks ∧ ∀ c ∈ blanks.toList, isBlank c = true
  /-- All of them are. -/
  last : ∀ c, kept.toList.getLast? = some c → isBlank c = false

theorem isTrimmed_trimEnd (s : String) : IsTrimmed s (trimEnd s) where
  blanks := by
    obtain ⟨blanks, hblank, hs⟩ := exists_blanks_append_dropTrailingBlanks s.toList
    exact ⟨String.ofList blanks, eq_append_of_toList hs, by rwa [String.toList_ofList]⟩
  last := by
    intro c hc
    rw [trimEnd, String.toList_ofList] at hc
    exact getLast?_dropTrailingBlanks s.toList c hc

theorem IsTrimmed.utf8ByteSize_le {s kept : String} (h : IsTrimmed s kept) :
    kept.utf8ByteSize ≤ s.utf8ByteSize := by
  obtain ⟨blanks, rfl, -⟩ := h.blanks
  rw [String.utf8ByteSize_append]
  exact Nat.le_add_right _ _

end Text

/-! ## Statements -/

theorem Statement.utf8ByteSize_display_le (st : Statement) : st.display.utf8ByteSize ≤ 500 := by
  have hstart := Text.isLongestStart_of_truncated? (Text.truncated?_eq st.sql shownBytes)
  have hfits : (Text.truncated st.sql shownBytes).utf8ByteSize ≤ 497 := hstart.isGreatest.1.1
  have hkept := (Text.isTrimmed_trimEnd (Text.truncated st.sql shownBytes)).utf8ByteSize_le
  have hdots : "...".utf8ByteSize = 3 := rfl
  unfold display
  rw [String.utf8ByteSize_append]
  split
  · rw [hdots]
    omega
  · rw [String.utf8ByteSize_empty]
    omega

/-- For every text and every number of bytes: the text can be cut at its valid positions and nowhere
    else, cutting it down to the bytes gives an answer, and that is the longest start that takes no
    more bytes and does not end within a character. Every statement is shown in at most 500 bytes:
    the longest start of its text that fits 497 bytes, without the blanks at its end, and dots
    behind it just when the text takes more than 497 bytes. -/
theorem texts_are_cut_between_characters (s : String) (max : Nat) (st : Statement) :
    (∀ byte, (Text.inFrontOf? byte s.toList).isSome = true ↔
      (String.Pos.Raw.mk byte).IsValid s) ∧
    Text.truncated? s max = some (Text.truncated s max) ∧
    Text.IsLongestStart s max (Text.truncated s max) ∧
    st.display.utf8ByteSize ≤ 500 ∧
    ∃ start kept, Text.IsLongestStart st.sql 497 start ∧ Text.IsTrimmed start kept ∧
      st.display = kept ++ if 497 < st.sql.utf8ByteSize then "..." else "" := by
  refine ⟨fun _ => Text.isSome_inFrontOf?_iff, Text.truncated?_eq s max,
    Text.isLongestStart_of_truncated? (Text.truncated?_eq s max), st.utf8ByteSize_display_le, ?_⟩
  refine ⟨Text.truncated st.sql 497, Text.trimEnd (Text.truncated st.sql 497), ?_, ?_, rfl⟩
  · exact Text.isLongestStart_of_truncated? (Text.truncated?_eq st.sql 497)
  · exact Text.isTrimmed_trimEnd _

end EntitySql
