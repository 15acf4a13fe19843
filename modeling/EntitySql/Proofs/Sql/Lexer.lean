/-
  The lexemes of SQL.

  Outside of quotes and placeholders a text is blanks, symbols, signs and words, and a dialect
  makes no difference (`CharClass`). A text is cut where it goes on with a blank or a symbol:
  `lex_append` says so of a text without quotes and placeholders, `lex_quote` of a quoted name
  and `lex_placeholder` of a placeholder.
-/
import EntitySql.Dialect
import EntitySql.Proofs.Sql.Expression

namespace EntitySql.Sql

/-! ## Characters -/

/-- What a character is a part of. -/
inductive CharClass where
  /-- Space between lexemes. -/
  | blank
  /-- A symbol that stands alone. -/
  | symbol
  /-- A sign of a comparison. -/
  | sign
  /-- A word or a number. -/
  | word
  /-- Something that the dialect decides. -/
  | special
deriving DecidableEq

/-- The class of a character. Letters beyond ASCII count as parts of words. -/
def classOf (c : Char) : CharClass :=
  if c.isWhitespace then .blank
  else if c = '(' ∨ c = ')' ∨ c = ',' ∨ c = '.' then .symbol
  else if c = '=' ∨ c = '<' ∨ c = '>' then .sign
  else if c.isAlphanum ∨ c = '_' ∨ 0x80 ≤ c.toNat then .word
  else .special

/-- Whether a lexeme ends in front of the character, whatever it is. -/
def isDelimiter (c : Char) : Bool := classOf c == .blank || classOf c == .symbol

/-- The text is at its end or goes on with a delimiter. -/
def IsDelimited (cs : List Char) : Prop := ∀ c ∈ cs.head?, isDelimiter c = true

/-- The text does not go on with a part of a word or a sign. -/
def IsCut (cs : List Char) : Prop := ∀ c ∈ cs.head?, classOf c ≠ .sign ∧ classOf c ≠ .word

/-- A text that can stand behind the mark of a parameter. -/
def IsWord (s : String) : Prop := s ≠ "" ∧ ∀ c ∈ s.toList, classOf c = .word

instance (s : String) : Decidable (IsWord s) :=
  decidable_of_iff (s ≠ "" ∧ s.toList.all (classOf · == .word)) (by simp [IsWord])

/-! ## Lexemes -/

/-- A word with a meaning of its own. -/
inductive Keyword where
  | AND | OR | NOT | IS | NULL | LIKE | IN | BETWEEN | EXISTS | SELECT | FROM | WHERE
deriving DecidableEq

/-- A lexeme. -/
inductive Lexeme where
  /-- `(`. -/
  | openParen
  /-- `)`. -/
  | closeParen
  /-- A comma. -/
  | comma
  /-- A dot. -/
  | dot
  /-- A sign of a comparison. -/
  | sign (s : Sign)
  /-- A word with a meaning of its own. -/
  | keyword (k : Keyword)
  /-- Another word. -/
  | word (w : String)
  /-- A number. -/
  | number (n : Nat)
  /-- A quoted name. -/
  | name (s : String)
  /-- A parameter. -/
  | parameter (s : String)
  /-- A character without meaning. -/
  | stray (c : Char)
deriving DecidableEq

/-- The words with a meaning of their own. -/
def keywords : List (String × Keyword) :=
  [("AND", .AND), ("OR", .OR), ("NOT", .NOT), ("IS", .IS), ("NULL", .NULL), ("LIKE", .LIKE),
   ("IN", .IN), ("BETWEEN", .BETWEEN), ("EXISTS", .EXISTS), ("SELECT", .SELECT), ("FROM", .FROM),
   ("WHERE", .WHERE)]

/-- The lexeme of a symbol. -/
def symbolLexeme (c : Char) : Lexeme :=
  if c = '(' then .openParen else if c = ')' then .closeParen else if c = ',' then .comma else .dot

/-- The lexeme of several signs in a row. -/
def signLexeme : List Char → Lexeme
  | ['='] => .sign .eq
  | ['<', '>'] => .sign .ne
  | ['>'] => .sign .gt
  | ['>', '='] => .sign .ge
  | ['<'] => .sign .lt
  | ['<', '='] => .sign .le
  | cs => .stray (cs.headD ' ')

/-- The lexeme of letters and digits in a row. -/
def wordLexeme (cs : List Char) : Lexeme :=
  if cs.all Char.isDigit then .number (Nat.ofDigitChars 10 cs 0)
  else
    match keywords.lookup (String.ofList cs) with
    | some k => .keyword k
    | none => .word (String.ofList cs)

/-- The lexeme that begins with `c`, if there is one, and what follows it. -/
def step (d : Dialect) (c : Char) (cs : List Char) : List Lexeme × List Char :=
  match classOf c with
  | .blank => ([], cs)
  | .symbol => ([symbolLexeme c], cs)
  | .sign =>
    ([signLexeme (c :: cs.takeWhile (classOf · == .sign))], cs.dropWhile (classOf · == .sign))
  | .word =>
    ([wordLexeme (c :: cs.takeWhile (classOf · == .word))], cs.dropWhile (classOf · == .word))
  | .special =>
    if c = d.openQuote then
      match Text.scanEnclosed d.closeQuote cs with
      | some (name, rest) => ([.name (String.ofList name)], rest)
      | none => ([.stray c], cs)
    else if c = d.parameterMark then
      match cs.takeWhile (classOf · == .word) with
      | [] => ([.stray c], cs)
      | w => ([.parameter (String.ofList w)], cs.dropWhile (classOf · == .word))
    else ([.stray c], cs)

/-- The lexemes of a text, in at most the given number of steps. -/
def lexWithin (d : Dialect) : Nat → List Char → List Lexeme
  | n + 1, c :: cs => (step d c cs).1 ++ lexWithin d n (step d c cs).2
  | _, _ => []

/-- The lexemes of a text. Each step takes at least one character. -/
def lex (d : Dialect) (cs : List Char) : List Lexeme := lexWithin d cs.length cs

/-! ## Steps -/

theorem length_scanEnclosed {q : Char} {cs name rest : List Char}
    (h : Text.scanEnclosed q cs = some (name, rest)) : rest.length ≤ cs.length := by
  induction cs using Text.scanEnclosed.induct q generalizing name with
  | case1 => cases h
  | case2 =>
    rw [Text.scanEnclosed, if_pos rfl] at h
    cases h
    exact Nat.zero_le _
  | case3 c hc =>
    rw [Text.scanEnclosed, if_neg hc] at h
    cases h
  | case4 tail ih =>
    rw [Text.scanEnclosed, if_pos rfl, if_pos rfl] at h
    obtain ⟨r, hr, heq⟩ := Option.map_eq_some_iff.mp h
    obtain ⟨-, rfl⟩ := Prod.mk.inj heq
    have hlength := ih hr
    simp only [List.length_cons]
    omega
  | case5 d tail hd =>
    rw [Text.scanEnclosed, if_pos rfl, if_neg hd] at h
    cases h
    exact Nat.le_succ _
  | case6 c d tail hc ih =>
    rw [Text.scanEnclosed, if_neg hc] at h
    obtain ⟨r, hr, heq⟩ := Option.map_eq_some_iff.mp h
    obtain ⟨-, rfl⟩ := Prod.mk.inj heq
    have hlength := ih hr
    simp only [List.length_cons] at hlength ⊢
    omega

theorem length_dropWhile_le (f : Char → Bool) (cs : List Char) :
    (cs.dropWhile f).length ≤ cs.length := (List.dropWhile_sublist f).length_le

theorem length_step_le (d : Dialect) (c : Char) (cs : List Char) :
    (step d c cs).2.length ≤ cs.length := by
  unfold step
  cases classOf c with
  | blank => exact Nat.le_refl _
  | symbol => exact Nat.le_refl _
  | sign => exact length_dropWhile_le _ cs
  | word => exact length_dropWhile_le _ cs
  | special =>
    dsimp only
    split
    · split
      · exact length_scanEnclosed (by assumption)
      · exact Nat.le_refl _
    · split
      · split
        · exact Nat.le_refl _
        · exact length_dropWhile_le _ cs
      · exact Nat.le_refl _

theorem lexWithin_eq (d : Dialect) {n m : Nat} {cs : List Char} (hn : cs.length ≤ n)
    (hm : cs.length ≤ m) : lexWithin d n cs = lexWithin d m cs := by
  induction n generalizing m cs with
  | zero =>
    obtain rfl := List.eq_nil_of_length_eq_zero (Nat.le_zero.mp hn)
    cases m <;> rfl
  | succ n ih =>
    cases cs with
    | nil => cases m <;> rfl
    | cons c cs =>
      rw [List.length_cons] at hn hm
      cases m with
      | zero => omega
      | succ m =>
        have hstep := length_step_le d c cs
        rw [lexWithin, lexWithin, ih (by omega) (m := m) (by omega)]

@[simp] theorem lex_nil (d : Dialect) : lex d [] = [] := rfl

theorem lex_cons (d : Dialect) (c : Char) (cs : List Char) :
    lex d (c :: cs) = (step d c cs).1 ++ lex d (step d c cs).2 := by
  unfold lex
  rw [List.length_cons, lexWithin, lexWithin_eq d (length_step_le d c cs) (Nat.le_refl _)]

/-! ## Texts one behind the other -/

theorem takeWhile_append_of_head {f : Char → Bool} (cs : List Char) {rest : List Char}
    (h : ∀ c ∈ rest.head?, f c = false) :
    (cs ++ rest).takeWhile f = cs.takeWhile f ∧ (cs ++ rest).dropWhile f = cs.dropWhile f ++ rest := by
  induction cs with
  | nil =>
    cases rest with
    | nil => exact ⟨rfl, rfl⟩
    | cons c rest =>
      have hc := h c (by simp)
      simp [hc]
  | cons c cs ih =>
    obtain ⟨htake, hdrop⟩ := ih
    cases hc : f c <;> simp [hc, htake, hdrop]

theorem IsDelimited.isCut {cs : List Char} (h : IsDelimited cs) : IsCut cs := by
  intro c hc
  have hd := h c hc
  rw [isDelimiter, Bool.or_eq_true, beq_iff_eq, beq_iff_eq] at hd
  rcases hd with hd | hd <;> rw [hd] <;> decide

theorem IsCut.sign_ne {cs : List Char} (h : IsCut cs) :
    ∀ c ∈ cs.head?, (classOf c == .sign) = false :=
  fun c hc => beq_eq_false_iff_ne.mpr (h c hc).1

theorem IsCut.word_ne {cs : List Char} (h : IsCut cs) :
    ∀ c ∈ cs.head?, (classOf c == .word) = false :=
  fun c hc => beq_eq_false_iff_ne.mpr (h c hc).2

/-- The next lexeme of a text ends with the text when nothing that follows goes on with it. -/
theorem step_append (d : Dialect) {c : Char} {cs rest : List Char} (hc : classOf c ≠ .special)
    (hrest : IsCut rest) :
    step d c (cs ++ rest) = ((step d c cs).1, (step d c cs).2 ++ rest) := by
  obtain ⟨hsign, hsign'⟩ := takeWhile_append_of_head cs hrest.sign_ne
  obtain ⟨hword, hword'⟩ := takeWhile_append_of_head cs hrest.word_ne
  unfold step
  cases hk : classOf c with
  | blank => rfl
  | symbol => rfl
  | sign => simp only [hsign, hsign']
  | word => simp only [hword, hword']
  | special => exact absurd hk hc

theorem mem_step (d : Dialect) {c : Char} {cs : List Char} (hc : classOf c ≠ .special) {x : Char}
    (hx : x ∈ (step d c cs).2) : x ∈ cs := by
  unfold step at hx
  cases hk : classOf c with
  | blank => rwa [hk] at hx
  | symbol => rwa [hk] at hx
  | sign => rw [hk] at hx; exact (List.dropWhile_sublist _).subset hx
  | word => rw [hk] at hx; exact (List.dropWhile_sublist _).subset hx
  | special => exact absurd hk hc

/-- A text without quotes and placeholders is cut where nothing that follows goes on with it. -/
theorem lex_append (d : Dialect) {cs rest : List Char} (hcs : ∀ c ∈ cs, classOf c ≠ .special)
    (hrest : IsCut rest) : lex d (cs ++ rest) = lex d cs ++ lex d rest := by
  generalize hn : cs.length = n
  induction n using Nat.strongRecOn generalizing cs with
  | _ n ih =>
    cases cs with
    | nil => rfl
    | cons c cs =>
      rw [List.forall_mem_cons] at hcs
      rw [List.cons_append, lex_cons, lex_cons, step_append d hcs.1 hrest]
      have hlength := length_step_le d c cs
      rw [List.length_cons] at hn
      rw [ih (step d c cs).2.length (by omega) (fun x hx => hcs.2 x (mem_step d hcs.1 hx)) rfl,
        List.append_assoc]

theorem lex_delimiter (d : Dialect) {c : Char} (hc : isDelimiter c = true) (rest : List Char) :
    lex d (c :: rest) = lex d [c] ++ lex d rest := by
  rw [lex_cons, lex_cons d c []]
  unfold isDelimiter at hc
  unfold step
  cases hk : classOf c <;> simp_all

theorem isDelimited_nil : IsDelimited [] := fun c hc => by cases hc

theorem isDelimited_cons {c : Char} (hc : isDelimiter c = true) (cs : List Char) :
    IsDelimited (c :: cs) := by
  intro x hx
  rw [List.head?_cons, Option.mem_some_iff] at hx
  exact hx ▸ hc

/-- A text without quotes and placeholders that ends with a delimiter is cut at its end,
    whatever follows. -/
theorem lex_append_of_getLast (d : Dialect) {cs : List Char}
    (hcs : ∀ c ∈ cs, classOf c ≠ .special) {c : Char} (hlast : cs.getLast? = some c)
    (hc : isDelimiter c = true) (rest : List Char) :
    lex d (cs ++ rest) = lex d cs ++ lex d rest := by
  obtain ⟨cs, rfl⟩ := List.getLast?_eq_some_iff.mp hlast
  have hfront : ∀ x ∈ cs, classOf x ≠ .special := fun x hx => hcs x (by simp [hx])
  rw [List.append_assoc, List.singleton_append, lex_append d hfront (isDelimited_cons hc rest).isCut,
    lex_append d hfront (isDelimited_cons hc []).isCut, lex_delimiter d hc rest, List.append_assoc]

/-! ## Quoted names and placeholders -/

/-- The quotes of the dialect and the mark of its parameters are told apart from all else, and
    its condition that is always true is the comparison of a number with itself. -/
structure IsReadable (d : Dialect) : Prop where
  openQuote : classOf d.openQuote = .special
  closeQuote : isDelimiter d.closeQuote = false
  parameterMark : classOf d.parameterMark = .special
  mark_ne : d.parameterMark ≠ d.openQuote
  everything : d.everything = "1=1"

theorem isReadable_of_mem_all {d : Dialect} (h : d ∈ Dialect.all.map (·.2)) : IsReadable d := by
  simp only [Dialect.all, List.map_cons, List.map_nil, List.mem_cons, List.not_mem_nil,
    or_false] at h
  rcases h with rfl | rfl | rfl | rfl | rfl | rfl <;>
    exact ⟨by decide, by decide, by decide, by decide, by decide⟩

/-- A quoted name is one lexeme. -/
theorem lex_quote {d : Dialect} (hd : IsReadable d) (name : String) {rest : List Char}
    (hrest : IsDelimited rest) :
    lex d ((d.quote name).toList ++ rest) = .name name :: lex d rest := by
  have hnext : rest.head? ≠ some d.closeQuote := by
    intro hc
    have := hrest d.closeQuote hc
    rw [hd.closeQuote] at this
    cases this
  have hscan := Text.scanEnclosed_replaceEach d.closeQuote name.toList rest hnext
  have htext : (d.quote name).toList ++ rest = d.openQuote ::
      (Text.replaceEach d.closeQuote [d.closeQuote, d.closeQuote] name.toList ++
        d.closeQuote :: rest) := by
    simp [Dialect.quote, Text.toList_enclosed]
  rw [htext, lex_cons]
  unfold step
  rw [hd.openQuote]
  simp [hscan]

/-- A placeholder of a name that is a word is one lexeme. -/
theorem lex_placeholder {d : Dialect} (hd : IsReadable d) {name : String} (hname : IsWord name)
    {rest : List Char} (hrest : IsDelimited rest) :
    lex d ((d.placeholder name).toList ++ rest) = .parameter name :: lex d rest := by
  have htext : (d.placeholder name).toList ++ rest = d.parameterMark :: (name.toList ++ rest) := by
    simp [Dialect.placeholder]
  obtain ⟨htake, hdrop⟩ := takeWhile_append_of_head []
    hrest.isCut.word_ne
  have hall : ∀ c ∈ name.toList, (classOf c == .word) = true := by
    intro c hc
    rw [hname.2 c hc]
    rfl
  have htake' : (name.toList ++ rest).takeWhile (classOf · == .word) =
      name.toList ++ rest.takeWhile (classOf · == .word) := List.takeWhile_append_of_pos hall
  have hdrop' : (name.toList ++ rest).dropWhile (classOf · == .word) =
      rest.dropWhile (classOf · == .word) := List.dropWhile_append_of_pos hall
  rw [List.nil_append] at htake hdrop
  rw [htake, List.takeWhile_nil, List.append_nil] at htake'
  rw [hdrop, List.dropWhile_nil, List.nil_append] at hdrop'
  rw [htext, lex_cons]
  unfold step
  rw [hd.parameterMark]
  simp only [htake', hdrop', if_neg hd.mark_ne]
  cases hchars : name.toList with
  | nil => exact absurd (by simpa using hchars) hname.1
  | cons c cs => simp [← hchars]

end EntitySql.Sql
