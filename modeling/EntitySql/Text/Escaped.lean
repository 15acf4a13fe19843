/-
  Names between quote characters: inside, the closing quote is written twice.

  A text is escaped by copying the parts of it that stand between the characters to replace. The
  parts are cut out by their places in bytes, which is a partial function. The copy asks for cuts
  between characters only (`Copy.Reaches`), and it is the text with each of these characters
  replaced (`escaped?_eq`).
-/
import EntitySql.Text.Bytes

namespace EntitySql.Text

/-! ## Copies -/

/-- What is copied of a text. -/
structure Copy where
  /-- What is written. -/
  written : List Char := []
  /-- The byte from which on the text is still to be written. -/
  position : Nat := 0

/-- The copy behind a character of the text, which begins at the byte told. What is still to be
    written in front of a `search` is, and the replacement stands for the character. -/
def Copy.step (cs : List Char) (search : Char) (replacement : List Char) (k : Copy)
    (place : Nat × Char) : Option Copy :=
  if place.2 = search then do
    let part ← between? k.position place.1 cs
    return ⟨k.written ++ part ++ replacement, place.1 + place.2.utf8Size⟩
  else some k

/-- A text with every `search` replaced, copied part by part. -/
def escaped? (s : String) (search : Char) (replacement : String) : Option String := do
  let cs := s.toList
  let k ← ((beginnings 0 cs).zip cs).foldlM (Copy.step cs search replacement.toList) {}
  let rest ← behind? k.position cs
  return String.ofList (k.written ++ rest)

/-- Characters with every `search` replaced. -/
def replaceEach (search : Char) (replacement : List Char) (cs : List Char) : List Char :=
  cs.flatMap fun c => if c = search then replacement else [c]

/-! ## Laws of copies -/

section

variable {search : Char} {replacement : List Char}

@[simp] theorem replaceEach_nil :
    replaceEach search replacement [] = [] := rfl

theorem replaceEach_cons (c : Char) (cs : List Char) :
    replaceEach search replacement (c :: cs) =
      (if c = search then replacement else [c]) ++ replaceEach search replacement cs := rfl

theorem replaceEach_append (start rest : List Char) :
    replaceEach search replacement (start ++ rest) =
      replaceEach search replacement start ++ replaceEach search replacement rest :=
  List.flatMap_append

/-- Nothing is replaced where there is no `search`. -/
theorem replaceEach_of_notMem {cs : List Char} (h : search ∉ cs) :
    replaceEach search replacement cs = cs := by
  induction cs with
  | nil => rfl
  | cons c cs ih =>
    rw [List.mem_cons, not_or] at h
    rw [replaceEach_cons, if_neg (Ne.symm h.1), ih h.2, List.singleton_append]

/-- The copy has come to the end of some characters: a start of them is written with its
    replacements, the position is behind this start, and nothing is to be replaced in the rest. -/
def Copy.Reaches (search : Char) (replacement : List Char) (k : Copy) (front : List Char) : Prop :=
  ∃ start rest, front = start ++ rest ∧ search ∉ rest ∧
    k.written = replaceEach search replacement start ∧ k.position = byteCount start

namespace Copy

variable {k : Copy} {front : List Char}

/-- The parts that one character asks for can be cut out, and the copy comes to its end. -/
theorem Reaches.step (h : k.Reaches search replacement front) (c : Char) (behind : List Char) :
    ∃ k', k.step (front ++ c :: behind) search replacement (byteCount front, c) = some k' ∧
      k'.Reaches search replacement (front ++ [c]) := by
  obtain ⟨start, rest, rfl, hrest, hwritten, hposition⟩ := h
  unfold Copy.step
  by_cases hc : c = search
  · subst hc
    have hpart : between? k.position (byteCount (start ++ rest)) (start ++ rest ++ c :: behind) =
        some rest := by
      rw [hposition]
      exact between?_append start rest (c :: behind)
    refine ⟨_, (if_pos rfl).trans (by rw [hpart]; rfl), ?_⟩
    refine ⟨start ++ rest ++ [c], [], (List.append_nil _).symm, List.not_mem_nil, ?_, ?_⟩
    · rw [replaceEach_append, replaceEach_append, replaceEach_of_notMem hrest, replaceEach_cons,
        if_pos rfl, replaceEach_nil, List.append_nil, hwritten]
    · rw [byteCount_append _ [c]]
      rfl
  · refine ⟨k, if_neg hc, start, rest ++ [c], List.append_assoc _ _ _, ?_, hwritten, hposition⟩
    simp [hrest, Ne.symm hc]

/-- The copy comes to the end of the text. -/
theorem Reaches.run (h : k.Reaches search replacement front) (behind : List Char) :
    ∃ k', ((beginnings (byteCount front) behind).zip behind).foldlM
        (Copy.step (front ++ behind) search replacement) k = some k' ∧
      k'.Reaches search replacement (front ++ behind) := by
  induction behind generalizing k front with
  | nil => exact ⟨k, rfl, by rwa [List.append_nil]⟩
  | cons c behind ih =>
    obtain ⟨k₁, hstep, hreaches⟩ := h.step c behind
    obtain ⟨k₂, hrun, hend⟩ := ih hreaches
    rw [byteCount_append] at hrun
    rw [List.append_assoc] at hrun hend
    refine ⟨k₂, ?_, hend⟩
    rw [beginnings, List.zip_cons_cons, List.foldlM_cons, hstep]
    exact hrun

end Copy

end

/-- The copy never asks for a cut within a character, and it is the text with every `search`
    replaced. -/
theorem escaped?_eq (s : String) (search : Char) (replacement : String) :
    escaped? s search replacement =
      some (String.ofList (replaceEach search replacement.toList s.toList)) := by
  have hstart : ({} : Copy).Reaches search replacement.toList [] :=
    ⟨[], [], rfl, List.not_mem_nil, rfl, rfl⟩
  obtain ⟨k, hrun, start, rest, hs, hrest, hwritten, hposition⟩ := hstart.run s.toList
  have hbehind : behind? k.position s.toList = some rest := by
    rw [hposition]
    exact (congrArg _ hs).trans (behind?_append start rest)
  have hs' : s.toList = start ++ rest := hs
  have hall : k.written ++ rest = replaceEach search replacement.toList s.toList := by
    rw [hs', replaceEach_append, replaceEach_of_notMem hrest, hwritten]
  unfold escaped?
  rw [← hall]
  exact Option.bind_eq_some_iff.mpr ⟨k, hrun, Option.bind_eq_some_iff.mpr ⟨rest, hbehind, rfl⟩⟩

theorem isSome_escaped? (s : String) (search : Char) (replacement : String) :
    (escaped? s search replacement).isSome = true := by
  rw [escaped?_eq]
  rfl

/-! ## Quoted names -/

/-- A text with every `search` replaced. -/
def escaped (s : String) (search : Char) (replacement : String) : String :=
  (escaped? s search replacement).get (isSome_escaped? s search replacement)

/-- A name between an opening and a closing quote. -/
def enclosed (openQuote closeQuote : Char) (name : String) : String :=
  String.singleton openQuote ++
    escaped name closeQuote (String.ofList [closeQuote, closeQuote]) ++
    String.singleton closeQuote

/-- Reads characters up to the first closing quote that stands alone; a doubled one is read as
    one character. The answer is what was read and what follows the quote. -/
def scanEnclosed (closeQuote : Char) : List Char → Option (List Char × List Char)
  | [] => none
  | [c] => if c = closeQuote then some ([], []) else none
  | c :: d :: rest =>
    if c = closeQuote then
      if d = closeQuote then (scanEnclosed closeQuote rest).map fun r => (c :: r.1, r.2)
      else some ([], d :: rest)
    else (scanEnclosed closeQuote (d :: rest)).map fun r => (c :: r.1, r.2)

theorem toList_escaped (s : String) (search : Char) (replacement : String) :
    (escaped s search replacement).toList =
      replaceEach search replacement.toList s.toList := by
  rw [escaped, Option.get_of_eq_some _ (escaped?_eq s search replacement), String.toList_ofList]

theorem toList_enclosed (openQuote closeQuote : Char) (name : String) :
    (enclosed openQuote closeQuote name).toList =
      openQuote :: (replaceEach closeQuote [closeQuote, closeQuote] name.toList ++ [closeQuote]) := by
  simp [enclosed, toList_escaped]

/-- Scanning takes back what was enclosed, and stops behind its closing quote. -/
theorem scanEnclosed_replaceEach (closeQuote : Char) (name rest : List Char)
    (h : rest.head? ≠ some closeQuote) :
    scanEnclosed closeQuote
        (replaceEach closeQuote [closeQuote, closeQuote] name ++ closeQuote :: rest) =
      some (name, rest) := by
  induction name with
  | nil =>
    cases rest with
    | nil => simp [scanEnclosed]
    | cons d rest =>
      have hd : d ≠ closeQuote := by simpa using h
      simp [scanEnclosed, hd]
  | cons c name ih =>
    rw [replaceEach_cons]
    by_cases hc : c = closeQuote
    · subst hc
      simp [scanEnclosed, ih]
    · rw [if_neg hc, List.append_assoc, List.singleton_append]
      generalize hr : replaceEach closeQuote [closeQuote, closeQuote] name ++
        closeQuote :: rest = tail at ih ⊢
      cases tail with
      | nil => simp at hr
      | cons d tail => simp [scanEnclosed, hc, ih]

end EntitySql.Text
