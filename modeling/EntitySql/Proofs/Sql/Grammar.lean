/-
  The grammar of conditions, and that it is unambiguous.

  `Derives` says which lexemes are which condition, level by level: `OR` binds less than `AND`,
  `AND` less than `NOT`, and the `AND` of `BETWEEN` stands between two terms. `read` reads a
  condition from left to right. It finds every derivation when what follows cannot go on with it
  (`reads_of_derives`), so that no lexemes are two conditions (`derives_unique`).
-/
import EntitySql.Proofs.Sql.Lexer

namespace EntitySql.Sql

/-! ## Spelling of terms -/

/-- The lexemes of the name of a table. -/
def TableName.lexemes (t : TableName) : List Lexeme :=
  match t.schema with
  | some s => [.name s, .dot, .name t.table]
  | none => [.name t.table]

/-- The lexemes of a term. -/
def Term.lexemes : Term → List Lexeme
  | .column t name => t.lexemes ++ [.dot, .name name]
  | .parameter name => [.parameter name]
  | .number n => [.number n]

/-- The lexemes of several terms with commas between them. -/
def itemLexemes (items : List Term) : List Lexeme := [.comma].intercalate (items.map Term.lexemes)

/-- `NOT` in front of a test, or nothing. -/
def notIf (negated : Bool) : List Lexeme := if negated then [.keyword .NOT] else []

/-! ## Derivations -/

/-- How tight a condition is bound. -/
inductive Level where
  /-- Conjunctions with `OR` between them. -/
  | condition
  /-- Factors with `AND` between them. -/
  | conjunction
  /-- A primary with any number of `NOT` in front of it. -/
  | factor
  /-- A test, or a condition in parentheses. -/
  | primary
deriving DecidableEq

/-- The lexemes are the condition. -/
inductive Derives : Level → Expr → List Lexeme → Prop where
  | or {a b : Expr} {ls ls' : List Lexeme} : Derives .conjunction a ls → Derives .condition b ls' →
      Derives .condition (.or a b) (ls ++ .keyword .OR :: ls')
  | ofConjunction {e : Expr} {ls : List Lexeme} : Derives .conjunction e ls →
      Derives .condition e ls
  | and {a b : Expr} {ls ls' : List Lexeme} : Derives .factor a ls → Derives .conjunction b ls' →
      Derives .conjunction (.and a b) (ls ++ .keyword .AND :: ls')
  | ofFactor {e : Expr} {ls : List Lexeme} : Derives .factor e ls → Derives .conjunction e ls
  | not {e : Expr} {ls : List Lexeme} : Derives .factor e ls →
      Derives .factor (.not e) (.keyword .NOT :: ls)
  | ofPrimary {e : Expr} {ls : List Lexeme} : Derives .primary e ls → Derives .factor e ls
  | parens {e : Expr} {ls : List Lexeme} : Derives .condition e ls →
      Derives .primary e (.openParen :: ls ++ [.closeParen])
  | compare (sign : Sign) (a b : Term) :
      Derives .primary (.compare sign a b) (a.lexemes ++ .sign sign :: b.lexemes)
  | like (negated : Bool) (a b : Term) :
      Derives .primary (.like negated a b)
        (a.lexemes ++ notIf negated ++ .keyword .LIKE :: b.lexemes)
  | isNull (negated : Bool) (a : Term) :
      Derives .primary (.isNull negated a)
        (a.lexemes ++ .keyword .IS :: notIf negated ++ [.keyword .NULL])
  | within (negated : Bool) (a item : Term) (items : List Term) :
      Derives .primary (.within negated a (item :: items))
        (a.lexemes ++ notIf negated ++ [.keyword .IN, .openParen] ++ itemLexemes (item :: items) ++
          [.closeParen])
  | between (negated : Bool) (a low high : Term) :
      Derives .primary (.between negated a low high)
        (a.lexemes ++ notIf negated ++ .keyword .BETWEEN :: low.lexemes ++
          .keyword .AND :: high.lexemes)
  | anyRow (t : TableName) {e : Expr} {ls : List Lexeme} : Derives .condition e ls →
      Derives .primary (.anyRow t e)
        ([.keyword .EXISTS, .openParen, .keyword .SELECT, .number 1, .keyword .FROM] ++ t.lexemes ++
          .keyword .WHERE :: ls ++ [.closeParen])

/-! ## Reading -/

/-- Reads the name of a table. -/
def readTable : List Lexeme → Option (TableName × List Lexeme)
  | .name s :: .dot :: .name t :: rest => some (⟨some s, t⟩, rest)
  | .name t :: rest => some (⟨none, t⟩, rest)
  | _ => none

/-- Reads a term. -/
def readTerm : List Lexeme → Option (Term × List Lexeme)
  | .name s :: .dot :: .name t :: .dot :: .name c :: rest => some (.column ⟨some s, t⟩ c, rest)
  | .name t :: .dot :: .name c :: rest => some (.column ⟨none, t⟩ c, rest)
  | .parameter name :: rest => some (.parameter name, rest)
  | .number n :: rest => some (.number n, rest)
  | _ => none

/-- Reads terms with commas between them. -/
def readItems : Nat → List Lexeme → Option (List Term × List Lexeme)
  | 0, _ => none
  | n + 1, ls => do
    let (item, rest) ← readTerm ls
    match rest with
    | .comma :: rest =>
      let (items, rest) ← readItems n rest
      return (item :: items, rest)
    | _ => return ([item], rest)

/-- Reads what follows the first term of a test and a `NOT`, if there is one. -/
def readNegatable (n : Nat) (negated : Bool) (a : Term) :
    List Lexeme → Option (Expr × List Lexeme)
  | .keyword .LIKE :: rest => do
    let (b, rest) ← readTerm rest
    return (.like negated a b, rest)
  | .keyword .IN :: .openParen :: rest => do
    let (items, rest) ← readItems n rest
    match rest with
    | .closeParen :: rest => return (.within negated a items, rest)
    | _ => none
  | .keyword .BETWEEN :: rest => do
    let (low, rest) ← readTerm rest
    match rest with
    | .keyword .AND :: rest =>
      let (high, rest) ← readTerm rest
      return (.between negated a low high, rest)
    | _ => none
  | _ => none

/-- Reads what follows the first term of a test. -/
def readTest (n : Nat) (a : Term) : List Lexeme → Option (Expr × List Lexeme)
  | .sign s :: rest => do
    let (b, rest) ← readTerm rest
    return (.compare s a b, rest)
  | .keyword .IS :: .keyword .NOT :: .keyword .NULL :: rest => some (.isNull true a, rest)
  | .keyword .IS :: .keyword .NULL :: rest => some (.isNull false a, rest)
  | .keyword .NOT :: rest => readNegatable n true a rest
  | rest => readNegatable n false a rest

/-- Reads a condition; `n` bounds its depth. -/
def read : Nat → Level → List Lexeme → Option (Expr × List Lexeme)
  | 0, _, _ => none
  | n + 1, .condition, ls => do
    let (a, rest) ← read n .conjunction ls
    match rest with
    | .keyword .OR :: rest =>
      let (b, rest) ← read n .condition rest
      return (.or a b, rest)
    | _ => return (a, rest)
  | n + 1, .conjunction, ls => do
    let (a, rest) ← read n .factor ls
    match rest with
    | .keyword .AND :: rest =>
      let (b, rest) ← read n .conjunction rest
      return (.and a b, rest)
    | _ => return (a, rest)
  | n + 1, .factor, .keyword .NOT :: rest => do
    let (e, rest) ← read n .factor rest
    return (.not e, rest)
  | n + 1, .factor, ls => read n .primary ls
  | n + 1, .primary, .openParen :: rest => do
    let (e, rest) ← read n .condition rest
    match rest with
    | .closeParen :: rest => return (e, rest)
    | _ => none
  | n + 1, .primary,
    .keyword .EXISTS :: .openParen :: .keyword .SELECT :: .number 1 :: .keyword .FROM :: rest => do
    let (t, rest) ← readTable rest
    match rest with
    | .keyword .WHERE :: rest =>
      let (e, rest) ← read n .condition rest
      match rest with
      | .closeParen :: rest => return (.anyRow t e, rest)
      | _ => none
    | _ => none
  | n + 1, .primary, ls => do
    let (a, rest) ← readTerm ls
    readTest n a rest

/-! ## Reading finds every derivation -/

/-- The lexemes that go on with a condition of the level. -/
def Level.goesOn : Level → List Lexeme
  | .condition => [.dot, .keyword .AND, .keyword .OR]
  | .conjunction => [.dot, .keyword .AND]
  | .factor => [.dot]
  | .primary => [.dot]

/-- What follows does not go on with a condition of the level. -/
def Level.Stops (level : Level) (rest : List Lexeme) : Prop :=
  ∀ l ∈ rest.head?, l ∉ level.goesOn

theorem stops_cons {level : Level} {l : Lexeme} {rest : List Lexeme} (h : l ∉ level.goesOn) :
    level.Stops (l :: rest) := by
  intro l' hl'
  rw [List.head?_cons, Option.mem_some_iff] at hl'
  exact hl' ▸ h

theorem primary_stops {l : Lexeme} (h : l ≠ .dot) {rest : List Lexeme} :
    Level.primary.Stops (l :: rest) :=
  stops_cons (by simpa [Level.goesOn] using h)

theorem Level.Stops.ne_dot {level : Level} {rest : List Lexeme} (h : level.Stops rest)
    (rest' : List Lexeme) : rest ≠ .dot :: rest' := by
  rintro rfl
  exact h .dot rfl (by cases level <;> simp [goesOn])

theorem Level.Stops.ne_and {rest : List Lexeme} (h : Level.conjunction.Stops rest)
    (rest' : List Lexeme) : rest ≠ .keyword .AND :: rest' := by
  rintro rfl
  exact h (.keyword .AND) rfl (by simp [goesOn])

theorem Level.Stops.ne_or {rest : List Lexeme} (h : Level.condition.Stops rest)
    (rest' : List Lexeme) : rest ≠ .keyword .OR :: rest' := by
  rintro rfl
  exact h (.keyword .OR) rfl (by simp [goesOn])

/-- What cannot go on with a condition cannot go on with a part of one. -/
theorem Level.Stops.primary {level : Level} {rest : List Lexeme} (h : level.Stops rest) :
    Level.primary.Stops rest := by
  intro l hl hgoes
  rw [goesOn, List.mem_singleton] at hgoes
  subst hgoes
  exact h .dot hl (by cases level <;> simp [goesOn])

theorem Level.Stops.conjunction {rest : List Lexeme} (h : Level.condition.Stops rest) :
    Level.conjunction.Stops rest := by
  intro l hl hgoes
  have hgoes' : l ∈ goesOn .condition := List.mem_append_left [Lexeme.keyword .OR] hgoes
  exact h l hl hgoes'

theorem readTable_lexemes (t : TableName) {level : Level} {rest : List Lexeme}
    (h : level.Stops rest) : readTable (t.lexemes ++ rest) = some (t, rest) := by
  obtain ⟨schema, table⟩ := t
  cases schema with
  | some s => rfl
  | none =>
    cases rest with
    | nil => rfl
    | cons l rest =>
      have hl := h.ne_dot rest
      cases l <;> first | rfl | exact absurd rfl hl

theorem readTerm_lexemes (a : Term) {level : Level} {rest : List Lexeme} (h : level.Stops rest) :
    readTerm (a.lexemes ++ rest) = some (a, rest) := by
  cases a with
  | column t name =>
    obtain ⟨schema, table⟩ := t
    cases schema with
    | some s => rfl
    | none =>
      cases rest with
      | nil => rfl
      | cons l rest =>
        have hl := h.ne_dot rest
        cases l <;> first | rfl | exact absurd rfl hl
  | parameter name => rfl
  | number n => rfl

theorem itemLexemes_singleton (item : Term) : itemLexemes [item] = item.lexemes :=
  List.intercalate_singleton

theorem itemLexemes_cons_cons (item item' : Term) (items : List Term) :
    itemLexemes (item :: item' :: items) =
      item.lexemes ++ .comma :: itemLexemes (item' :: items) := by
  unfold itemLexemes
  rw [List.map_cons, List.map_cons, List.intercalate_cons_cons, List.append_assoc]
  rfl

theorem readItems_lexemes (item : Term) (items : List Term) {n : Nat} (hn : items.length < n)
    (rest : List Lexeme) :
    readItems n (itemLexemes (item :: items) ++ .closeParen :: rest) =
      some (item :: items, .closeParen :: rest) := by
  induction items generalizing item n with
  | nil =>
    obtain ⟨n, rfl⟩ := Nat.exists_eq_add_of_lt hn
    rw [itemLexemes_singleton, readItems,
      readTerm_lexemes item (primary_stops (by decide))]
    rfl
  | cons item' items ih =>
    obtain ⟨n, rfl⟩ := Nat.exists_eq_add_of_lt hn
    have ih' := ih item' (n := items.length + 1 + n) (by omega)
    rw [itemLexemes_cons_cons, List.append_assoc, List.cons_append, readItems,
      readTerm_lexemes item (primary_stops (by decide))]
    simp only [Option.bind_eq_bind, Option.bind_some, List.length_cons, ih']
    rfl

theorem read_term (n : Nat) (a : Term) {rest : List Lexeme} (h : Level.primary.Stops rest) :
    read (n + 1) .primary (a.lexemes ++ rest) = readTest n a rest := by
  have hterm := readTerm_lexemes a h
  have hread : read (n + 1) .primary (a.lexemes ++ rest) =
      (readTerm (a.lexemes ++ rest)).bind fun x => readTest n x.1 x.2 := by
    cases a with
    | column t name =>
      obtain ⟨schema, table⟩ := t
      cases schema <;> rfl
    | parameter name => rfl
    | number k => rfl
  rw [hread, hterm]
  rfl

theorem readTest_notIf (n : Nat) (negated : Bool) (a : Term) {rest : List Lexeme}
    (h : ∀ s rest', rest ≠ .sign s :: rest') (his : ∀ rest', rest ≠ .keyword .IS :: rest')
    (hnot : ∀ rest', rest ≠ .keyword .NOT :: rest') :
    readTest n a (notIf negated ++ rest) = readNegatable n negated a rest := by
  cases negated with
  | true => rfl
  | false =>
    cases rest with
    | nil => rfl
    | cons l rest =>
      cases l with
      | sign s => exact absurd rfl (h s rest)
      | keyword k =>
        cases k <;> first | rfl | exact absurd rfl (his rest) | exact absurd rfl (hnot rest)
      | _ => rfl

theorem Term.lexemes_ne_not (a : Term) (rest rest' : List Lexeme) :
    a.lexemes ++ rest ≠ .keyword .NOT :: rest' := by
  cases a with
  | column t name =>
    obtain ⟨schema, table⟩ := t
    cases schema <;> simp [lexemes, TableName.lexemes]
  | parameter name => simp [lexemes]
  | number n => simp [lexemes]

/-- A primary does not begin with `NOT`. -/
theorem ne_not_of_derives {e : Expr} {ls : List Lexeme} (h : Derives .primary e ls)
    (rest rest' : List Lexeme) : ls ++ rest ≠ .keyword .NOT :: rest' := by
  cases h with
  | parens h => simp
  | anyRow t h => simp
  | compare sign a b => rw [List.append_assoc]; exact a.lexemes_ne_not _ _
  | isNull negated a => rw [List.append_assoc, List.append_assoc]; exact a.lexemes_ne_not _ _
  | like negated a b => simp only [List.append_assoc]; exact a.lexemes_ne_not _ _
  | within negated a item items => simp only [List.append_assoc]; exact a.lexemes_ne_not _ _
  | between negated a low high => simp only [List.append_assoc]; exact a.lexemes_ne_not _ _

theorem read_primary (n : Nat) {ls : List Lexeme} (h : ∀ rest, ls ≠ .keyword .NOT :: rest) :
    read (n + 1) .factor ls = read n .primary ls := by
  cases ls with
  | nil => rfl
  | cons l ls =>
    cases l with
    | keyword k => cases k <;> first | rfl | exact absurd rfl (h ls)
    | _ => rfl

theorem stops_notIf (negated : Bool) {l : Lexeme} (hl : l ≠ .dot) (rest : List Lexeme) :
    Level.primary.Stops (notIf negated ++ l :: rest) := by
  cases negated with
  | true => exact primary_stops (by decide)
  | false => exact primary_stops hl

/-- Reading in enough steps finds the expression and stops behind it. -/
def Reads (level : Level) (e : Expr) (ls : List Lexeme) : Prop :=
  ∃ n, ∀ m, n ≤ m → ∀ rest, level.Stops rest → read m level (ls ++ rest) = some (e, rest)

/-- One more step than are needed for the parts. -/
theorem reads_of_succ {level : Level} {e : Expr} {ls : List Lexeme} (n : Nat)
    (h : ∀ m, n ≤ m → ∀ rest, level.Stops rest →
      read (m + 1) level (ls ++ rest) = some (e, rest)) : Reads level e ls := by
  refine ⟨n + 1, fun m hm rest hrest => ?_⟩
  obtain ⟨k, rfl⟩ : ∃ k, m = k + 1 := ⟨m - 1, by omega⟩
  exact h k (by omega) rest hrest

/-- What is derived is read. -/
theorem reads_of_derives {level : Level} {e : Expr} {ls : List Lexeme}
    (h : Derives level e ls) : Reads level e ls := by
  induction h with
  | or ha hb iha ihb =>
    obtain ⟨n, hn⟩ := iha
    obtain ⟨n', hn'⟩ := ihb
    refine reads_of_succ (n + n') fun m hm rest hrest => ?_
    have hb := hn' m (by omega) rest hrest
    rw [List.append_assoc, List.cons_append, read, hn _ (by omega) _ (stops_cons (by decide))]
    simp only [Option.bind_eq_bind, Option.bind_some, hb]
    rfl
  | ofConjunction ha ih =>
    obtain ⟨n, hn⟩ := ih
    refine reads_of_succ n fun m hm rest hrest => ?_
    rw [read, hn m hm rest hrest.conjunction]
    simp only [Option.bind_eq_bind, Option.bind_some]
    -- the reader looks for `OR` behind the conjunction, where there is none
    split
    · exact absurd rfl (hrest.ne_or _)
    · rfl
  | and ha hb iha ihb =>
    obtain ⟨n, hn⟩ := iha
    obtain ⟨n', hn'⟩ := ihb
    refine reads_of_succ (n + n') fun m hm rest hrest => ?_
    have hb := hn' m (by omega) rest hrest
    rw [List.append_assoc, List.cons_append, read, hn _ (by omega) _ (stops_cons (by decide))]
    simp only [Option.bind_eq_bind, Option.bind_some, hb]
    rfl
  | ofFactor ha ih =>
    obtain ⟨n, hn⟩ := ih
    refine reads_of_succ n fun m hm rest hrest => ?_
    rw [read, hn m hm rest hrest.primary]
    simp only [Option.bind_eq_bind, Option.bind_some]
    split
    · exact absurd rfl (hrest.ne_and _)
    · rfl
  | not ha ih =>
    obtain ⟨n, hn⟩ := ih
    refine reads_of_succ n fun m hm rest hrest => ?_
    rw [List.cons_append, read, hn m hm rest hrest]
    rfl
  | ofPrimary ha ih =>
    obtain ⟨n, hn⟩ := ih
    refine reads_of_succ n fun m hm rest hrest => ?_
    -- the first lexeme tells a primary from a negation
    rw [read_primary _ (ne_not_of_derives ha rest), hn m hm rest hrest]
  | parens ha ih =>
    obtain ⟨n, hn⟩ := ih
    refine reads_of_succ n fun m hm rest hrest => ?_
    have hread := hn m hm (.closeParen :: rest) (stops_cons (by decide))
    simp only [List.append_assoc, List.cons_append, List.nil_append]
    rw [read]
    simp only [Option.bind_eq_bind, Option.bind_some, hread]
    rfl
  | compare sign a b =>
    refine reads_of_succ 0 fun m _ rest hrest => ?_
    rw [List.append_assoc, List.cons_append,
      read_term _ _ (primary_stops (by simp)), readTest, readTerm_lexemes b hrest]
    rfl
  | like negated a b =>
    refine reads_of_succ 0 fun m _ rest hrest => ?_
    rw [List.append_assoc, List.append_assoc, List.cons_append,
      read_term _ _ (stops_notIf negated (by decide) _),
      readTest_notIf _ _ _ (by simp) (by simp) (by simp), readNegatable, readTerm_lexemes b hrest]
    rfl
  | isNull negated a =>
    refine reads_of_succ 0 fun m _ rest hrest => ?_
    simp only [List.append_assoc, List.cons_append]
    rw [read_term _ _ (stops_cons (by decide))]
    cases negated <;> rfl
  | within negated a item items =>
    refine reads_of_succ (items.length + 1) fun m hm rest hrest => ?_
    simp only [List.append_assoc, List.cons_append, List.nil_append]
    rw [read_term _ _ (stops_notIf negated (by decide) _),
      readTest_notIf _ _ _ (by simp) (by simp) (by simp), readNegatable,
      readItems_lexemes item items (by omega)]
    rfl
  | between negated a low high =>
    refine reads_of_succ 0 fun m _ rest hrest => ?_
    simp only [List.append_assoc, List.cons_append]
    rw [read_term _ _ (stops_notIf negated (by decide) _),
      readTest_notIf _ _ _ (by simp) (by simp) (by simp), readNegatable,
      readTerm_lexemes low (primary_stops (by decide))]
    simp only [Option.bind_eq_bind, Option.bind_some, readTerm_lexemes high hrest]
    rfl
  | anyRow t ha ih =>
    obtain ⟨n, hn⟩ := ih
    refine reads_of_succ n fun m hm rest hrest => ?_
    have hread := hn m hm (.closeParen :: rest) (stops_cons (by decide))
    simp only [List.append_assoc, List.cons_append, List.nil_append]
    rw [read, readTable_lexemes t (primary_stops (by decide))]
    simp only [Option.bind_eq_bind, Option.bind_some, hread]
    rfl

/-- No lexemes are two conditions. -/
theorem derives_unique {level : Level} {e e' : Expr} {ls : List Lexeme} (h : Derives level e ls)
    (h' : Derives level e' ls) : e = e' := by
  obtain ⟨n, hn⟩ := reads_of_derives h
  obtain ⟨n', hn'⟩ := reads_of_derives h'
  have hstops : level.Stops [] := fun l hl => by cases hl
  have hread := hn (n + n') (by omega) [] hstops
  rw [hn' (n + n') (by omega) [] hstops] at hread
  exact (congrArg Prod.fst (Option.some.inj hread)).symm

end EntitySql.Sql
