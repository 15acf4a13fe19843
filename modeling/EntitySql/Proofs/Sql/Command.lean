/-
  Commands about one table: their spelling, the parameters that it names, and that it is unambiguous.

  `Command.IsSpelled` says which lexemes are which command. The parameters among them are those of
  the command, in order (`parametersOf_of_isSpelled`), and no lexemes are two commands
  (`isSpelled_unique`).
-/
import EntitySql.Proofs.Sql.Grammar

namespace EntitySql.Sql

/-! ## Parameters -/

/-- The names of the parameters among lexemes. -/
def parametersOf (ls : List Lexeme) : List String :=
  ls.filterMap fun
    | .parameter n => some n
    | _ => none

theorem mem_parametersOf {n : String} {ls : List Lexeme} :
    n ∈ parametersOf ls ↔ .parameter n ∈ ls := by
  unfold parametersOf
  rw [List.mem_filterMap]
  constructor
  · rintro ⟨l, hl, h⟩
    cases l with
    | parameter s =>
      cases h
      exact hl
    | _ => cases h
  · intro h
    exact ⟨_, h, rfl⟩

-- By these laws `simp` reads the parameters off lexemes as they are put together, in
-- `parametersOf_of_derives` and `parametersOf_of_isSpelled`.

@[simp] theorem parametersOf_nil : parametersOf [] = [] := rfl

@[simp] theorem parametersOf_append (ls ls' : List Lexeme) :
    parametersOf (ls ++ ls') = parametersOf ls ++ parametersOf ls' := List.filterMap_append

@[simp] theorem parametersOf_parameter (n : String) (ls : List Lexeme) :
    parametersOf (.parameter n :: ls) = n :: parametersOf ls := rfl

@[simp] theorem parametersOf_cons_of_ne {l : Lexeme} (h : ∀ n, l ≠ .parameter n)
    (ls : List Lexeme) : parametersOf (l :: ls) = parametersOf ls := by
  cases l with
  | parameter n => exact absurd rfl (h n)
  | _ => rfl

/-- A text without quotes and placeholders names no parameter. -/
theorem parametersOf_lex (d : Dialect) {cs : List Char} (hcs : ∀ c ∈ cs, classOf c ≠ .special) :
    parametersOf (lex d cs) = [] := by
  have hsign (cs : List Char) : parametersOf [signLexeme cs] = [] := by
    unfold signLexeme
    split <;> rfl
  have hword (cs : List Char) : parametersOf [wordLexeme cs] = [] := by
    unfold wordLexeme
    split
    · rfl
    · split <;> rfl
  have hsymbol (c : Char) : parametersOf [symbolLexeme c] = [] := by
    unfold symbolLexeme
    split
    · rfl
    · split
      · rfl
      · split <;> rfl
  have hstep (c : Char) (cs : List Char) (hc : classOf c ≠ .special) :
      parametersOf (step d c cs).1 = [] := by
    unfold step
    cases hk : classOf c with
    | blank => rfl
    | symbol => exact hsymbol c
    | sign => exact hsign _
    | word => exact hword _
    | special => exact absurd hk hc
  generalize hn : cs.length = n
  induction n using Nat.strongRecOn generalizing cs with
  | _ n ih =>
    cases cs with
    | nil => rfl
    | cons c cs =>
      rw [List.forall_mem_cons] at hcs
      have hlength := length_step_le d c cs
      rw [List.length_cons] at hn
      rw [lex_cons, parametersOf_append, hstep c cs hcs.1,
        ih _ (by omega) (fun x hx => hcs.2 x (mem_step d hcs.1 hx)) rfl, List.append_nil]

/-- The parameters of a term. -/
def Term.parameters : Term → List String
  | .parameter n => [n]
  | _ => []

/-- The parameters of a condition, from left to right. -/
def Expr.parameters : Expr → List String
  | .compare _ a b => a.parameters ++ b.parameters
  | .like _ a b => a.parameters ++ b.parameters
  | .isNull _ a => a.parameters
  | .within _ a items => a.parameters ++ items.flatMap Term.parameters
  | .between _ a low high => a.parameters ++ low.parameters ++ high.parameters
  | .anyRow _ e => e.parameters
  | .not e => e.parameters
  | .and a b => a.parameters ++ b.parameters
  | .or a b => a.parameters ++ b.parameters

@[simp] theorem parametersOf_tableName (t : TableName) : parametersOf t.lexemes = [] := by
  obtain ⟨schema, table⟩ := t
  cases schema <;> rfl

@[simp] theorem parametersOf_term (a : Term) : parametersOf a.lexemes = a.parameters := by
  cases a <;> simp [Term.lexemes, Term.parameters]

@[simp] theorem parametersOf_notIf (negated : Bool) : parametersOf (notIf negated) = [] := by
  cases negated <;> rfl

/-- Lexemes with commas between them name the parameters of each. -/
theorem parametersOf_commas (lss : List (List Lexeme)) :
    parametersOf ([.comma].intercalate lss) = lss.flatMap parametersOf := by
  induction lss with
  | nil => rfl
  | cons ls lss ih =>
    cases lss with
    | nil => simp [List.intercalate_singleton]
    | cons ls' lss =>
      rw [List.intercalate_cons_cons, parametersOf_append, parametersOf_append, ih,
        List.flatMap_cons]
      simp

@[simp] theorem parametersOf_items (items : List Term) :
    parametersOf (itemLexemes items) = items.flatMap Term.parameters := by
  unfold itemLexemes
  rw [parametersOf_commas, List.flatMap_map]
  congr 1
  funext a
  exact parametersOf_term a

/-- A condition names its parameters. -/
theorem parametersOf_of_derives {level : Level} {e : Expr} {ls : List Lexeme}
    (h : Derives level e ls) : parametersOf ls = e.parameters := by
  induction h with
  | or _ _ iha ihb => simp [iha, ihb, Expr.parameters]
  | and _ _ iha ihb => simp [iha, ihb, Expr.parameters]
  | ofConjunction _ ih => exact ih
  | ofFactor _ ih => exact ih
  | ofPrimary _ ih => exact ih
  | not _ ih => simp [ih, Expr.parameters]
  | parens _ ih => simp [ih]
  | anyRow t _ ih => simp [ih, Expr.parameters]
  | _ => simp [Expr.parameters]

/-! ## Commands -/

/-- A statement about one table. -/
inductive Command where
  /-- A new row, with parameters in some of its columns. -/
  | insert (t : TableName) (cells : List (String × String))
  /-- Parameters in columns of the rows that meet a condition. -/
  | update (t : TableName) (cells : List (String × String)) (condition : Expr)
  /-- The end of the rows that meet a condition. -/
  | delete (t : TableName) (condition : Expr)
  /-- Terms of the rows that meet a condition, with labels of their own for some. -/
  | select (columns : List (Term × Option String)) (t : TableName) (condition : Expr)

/-- The parameters of a command, from left to right. -/
def Command.parameters : Command → List String
  | .insert _ cells => cells.map (·.2)
  | .update _ cells condition => cells.map (·.2) ++ condition.parameters
  | .delete _ condition => condition.parameters
  | .select columns _ condition => columns.flatMap (·.1.parameters) ++ condition.parameters

/-- The lexemes of an assignment. -/
def assignmentLexemes (cell : String × String) : List Lexeme :=
  [.name cell.1, .sign .eq, .parameter cell.2]

/-- The lexemes of a selected term. -/
def selectedLexemes (column : Term × Option String) : List Lexeme :=
  column.1.lexemes ++
    match column.2 with
    | none => []
    | some label => [.word "AS", .name label]

/-- Lexemes with commas between any two. -/
def commas {α : Type} (part : α → List Lexeme) (items : List α) : List Lexeme :=
  [.comma].intercalate (items.map part)

/-- The lexemes are the command. -/
inductive Command.IsSpelled : Command → List Lexeme → Prop
  | defaults (t : TableName) :
      IsSpelled (.insert t [])
        (.word "INSERT" :: .word "INTO" :: t.lexemes ++ [.word "DEFAULT", .word "VALUES"])
  | insert (t : TableName) (cells : List (String × String)) :
      IsSpelled (.insert t cells)
        (.word "INSERT" :: .word "INTO" :: t.lexemes ++
          .openParen :: commas (fun column => [.name column]) (cells.map (·.1)) ++
          [.closeParen, .word "VALUES", .openParen] ++
          commas (fun name => [.parameter name]) (cells.map (·.2)) ++ [.closeParen])
  | update (t : TableName) (cells : List (String × String)) {e : Expr} {ls : List Lexeme}
      (h : Derives .condition e ls) :
      IsSpelled (.update t cells e)
        (.word "UPDATE" :: t.lexemes ++ .word "SET" :: commas assignmentLexemes cells ++
          .keyword .WHERE :: ls)
  | delete (t : TableName) {e : Expr} {ls : List Lexeme} (h : Derives .condition e ls) :
      IsSpelled (.delete t e)
        (.word "DELETE" :: .keyword .FROM :: t.lexemes ++ .keyword .WHERE :: ls)
  | select (columns : List (Term × Option String)) (t : TableName) {e : Expr} {ls : List Lexeme}
      (h : Derives .condition e ls) :
      IsSpelled (.select columns t e)
        (.keyword .SELECT :: commas selectedLexemes columns ++ .keyword .FROM :: t.lexemes ++
          .keyword .WHERE :: ls)

theorem parametersOf_commas_map {α : Type} (part : α → List Lexeme) (names : α → List String)
    (h : ∀ item, parametersOf (part item) = names item) (items : List α) :
    parametersOf (commas part items) = items.flatMap names := by
  unfold commas
  rw [parametersOf_commas, List.flatMap_map]
  simp only [h]

/-- A command names its parameters. -/
theorem parametersOf_of_isSpelled {command : Command} {ls : List Lexeme}
    (h : command.IsSpelled ls) : parametersOf ls = command.parameters := by
  cases h with
  | defaults t => simp [Command.parameters]
  | insert t cells =>
    have hcolumns := parametersOf_commas_map (fun column => [.name column])
      (fun _ => []) (by simp) (cells.map (·.1))
    have hvalues := parametersOf_commas_map (fun name => [.parameter name])
      (fun name => [name]) (by simp) (cells.map (·.2))
    simp [Command.parameters, hcolumns, hvalues]
  | update t cells h =>
    have hassignments := parametersOf_commas_map assignmentLexemes
      (fun cell => [cell.2]) (by simp [assignmentLexemes]) cells
    simp [Command.parameters, hassignments, parametersOf_of_derives h, List.map_eq_flatMap]
  | delete t h => simp [Command.parameters, parametersOf_of_derives h]
  | select columns t h =>
    have hcolumns := parametersOf_commas_map selectedLexemes (·.1.parameters)
      (fun column => by cases hlabel : column.2 <;> simp [selectedLexemes, hlabel]) columns
    simp [Command.parameters, hcolumns, parametersOf_of_derives h]

/-! ## No lexemes are two commands -/

/-- The items behind the first one, each behind a separator. -/
theorem intercalate_cons {α : Type} (separator : α) (l : List α) (ls : List (List α)) :
    [separator].intercalate (l :: ls) = l ++ ls.flatMap fun l => separator :: l := by
  induction ls generalizing l with
  | nil => simp [List.intercalate_singleton]
  | cons l' ls ih =>
    rw [List.intercalate_cons_cons, ih, List.flatMap_cons, List.append_assoc]
    rfl

/-- Lexemes with commas between them that end where an item can be told from what follows. -/
structure IsListed {α : Type} (part : α → List Lexeme) (stop : Lexeme) : Prop where
  /-- What follows the list is no comma. -/
  stop_ne : stop ≠ .comma
  /-- No item begins with what follows the list. -/
  first_ne : ∀ x rest rest', part x ++ rest ≠ stop :: rest'
  /-- An item ends where a comma or the end follows. -/
  part_inj : ∀ x y rest rest', (∀ l ∈ rest.head?, l = .comma ∨ l = stop) →
    (∀ l ∈ rest'.head?, l = .comma ∨ l = stop) → part x ++ rest = part y ++ rest' →
    x = y ∧ rest = rest'

/-- Items behind the first one can be told from what follows them. -/
theorem IsListed.tail_inj {α : Type} {part : α → List Lexeme} {stop : Lexeme}
    (h : IsListed part stop) {xs ys : List α} {rest rest' : List Lexeme}
    (heq : (xs.flatMap fun x => .comma :: part x) ++ stop :: rest =
      (ys.flatMap fun y => .comma :: part y) ++ stop :: rest') : xs = ys ∧ rest = rest' := by
  have hhead (xs : List α) (rest : List Lexeme) :
      ∀ l ∈ ((xs.flatMap fun x => .comma :: part x) ++ stop :: rest).head?,
        l = .comma ∨ l = stop := by
    cases xs with
    | nil => simp
    | cons x xs => simp
  induction xs generalizing ys with
  | nil =>
    cases ys with
    | nil => exact ⟨rfl, (List.cons.inj heq).2⟩
    | cons y ys => exact absurd (List.cons.inj heq).1 h.stop_ne
  | cons x xs ih =>
    cases ys with
    | nil => exact absurd (List.cons.inj heq).1.symm h.stop_ne
    | cons y ys =>
      rw [List.flatMap_cons, List.flatMap_cons, List.append_assoc, List.append_assoc] at heq
      obtain ⟨rfl, hrest⟩ := h.part_inj x y _ _ (hhead xs rest) (hhead ys rest')
        (List.cons.inj heq).2
      obtain ⟨hxs, hend⟩ := ih hrest
      exact ⟨congrArg (x :: ·) hxs, hend⟩

/-- A list can be told from what follows it. -/
theorem IsListed.inj {α : Type} {part : α → List Lexeme} {stop : Lexeme}
    (h : IsListed part stop) {xs ys : List α} {rest rest' : List Lexeme}
    (heq : commas part xs ++ stop :: rest = commas part ys ++ stop :: rest') :
    xs = ys ∧ rest = rest' := by
  have hcons (x : α) (xs : List α) :
      commas part (x :: xs) = part x ++ xs.flatMap fun x => .comma :: part x := by
    unfold commas
    rw [List.map_cons, intercalate_cons, List.flatMap_map]
  cases xs with
  | nil =>
    cases ys with
    | nil => exact ⟨rfl, (List.cons.inj heq).2⟩
    | cons y ys =>
      rw [hcons, List.append_assoc] at heq
      exact absurd heq.symm (h.first_ne _ _ _)
  | cons x xs =>
    cases ys with
    | nil =>
      rw [hcons, List.append_assoc] at heq
      exact absurd heq (h.first_ne _ _ _)
    | cons y ys =>
      -- a first item is told apart like the others, behind a comma of its own
      rw [hcons, hcons] at heq
      have htail : ((x :: xs).flatMap fun x => .comma :: part x) ++ stop :: rest =
          ((y :: ys).flatMap fun y => .comma :: part y) ++ stop :: rest' := by
        rw [List.flatMap_cons, List.flatMap_cons]
        exact congrArg (Lexeme.comma :: ·) heq
      exact h.tail_inj htail

theorem isListed_columns : IsListed (fun cell : String => [.name cell]) .closeParen := by
  refine ⟨by decide, by simp, fun x y rest rest' _ _ h => ?_⟩
  simpa using h

theorem isListed_parameters : IsListed (fun cell : String => [.parameter cell]) .closeParen := by
  refine ⟨by decide, by simp, fun x y rest rest' _ _ h => ?_⟩
  simpa using h

theorem isListed_assignments : IsListed assignmentLexemes (.keyword .WHERE) := by
  refine ⟨by decide, by simp [assignmentLexemes], fun x y rest rest' _ _ h => ?_⟩
  obtain ⟨column, parameter⟩ := x
  obtain ⟨column', parameter'⟩ := y
  simpa [assignmentLexemes, and_assoc] using h

/-- A table can be told from what follows it. -/
theorem tableName_append_inj {t t' : TableName} {rest rest' : List Lexeme}
    (hrest : Level.primary.Stops rest) (hrest' : Level.primary.Stops rest')
    (h : t.lexemes ++ rest = t'.lexemes ++ rest') : t = t' ∧ rest = rest' := by
  have hread := readTable_lexemes t hrest
  rw [h, readTable_lexemes t' hrest'] at hread
  obtain ⟨ht, hr⟩ := Prod.mk.inj (Option.some.inj hread)
  exact ⟨ht.symm, hr.symm⟩

/-- A term can be told from what follows it. -/
theorem term_append_inj {a a' : Term} {rest rest' : List Lexeme}
    (hrest : Level.primary.Stops rest) (hrest' : Level.primary.Stops rest')
    (h : a.lexemes ++ rest = a'.lexemes ++ rest') : a = a' ∧ rest = rest' := by
  have hread := readTerm_lexemes a hrest
  rw [h, readTerm_lexemes a' hrest'] at hread
  obtain ⟨ha, hr⟩ := Prod.mk.inj (Option.some.inj hread)
  exact ⟨ha.symm, hr.symm⟩

theorem isListed_selected : IsListed selectedLexemes (.keyword .FROM) := by
  -- neither a label nor what follows goes on with a term
  have hstops (label : Option String) {rest : List Lexeme}
      (h : ∀ l ∈ rest.head?, l = .comma ∨ l = .keyword .FROM) :
      Level.primary.Stops ((match label with
        | none => []
        | some label => [.word "AS", .name label]) ++ rest) := by
    cases label with
    | none =>
      intro l hl hgoes
      rw [Level.goesOn, List.mem_singleton] at hgoes
      rcases h l hl with hl | hl <;> rw [hl] at hgoes <;> cases hgoes
    | some label => exact primary_stops (by decide)
  refine ⟨by decide, fun x rest rest' h => ?_, fun x y rest rest' hrest hrest' h => ?_⟩
  · obtain ⟨a, label⟩ := x
    unfold selectedLexemes at h
    rw [List.append_assoc] at h
    cases a with
    | column t name =>
      obtain ⟨schema, table⟩ := t
      cases schema <;> cases h
    | parameter name => cases h
    | number n => cases h
  · obtain ⟨a, label⟩ := x
    obtain ⟨a', label'⟩ := y
    unfold selectedLexemes at h
    rw [List.append_assoc, List.append_assoc] at h
    obtain ⟨rfl, hlabel⟩ := term_append_inj (hstops label hrest) (hstops label' hrest') h
    cases label with
    | none =>
      cases label' with
      | none => exact ⟨rfl, hlabel⟩
      | some label' =>
        rw [List.nil_append] at hlabel
        have hword := hrest (.word "AS") (by rw [hlabel]; rfl)
        simp at hword
    | some label =>
      cases label' with
      | none =>
        rw [List.nil_append] at hlabel
        have hword := hrest' (.word "AS") (by rw [← hlabel]; rfl)
        simp at hword
      | some label' =>
        obtain ⟨-, hlabel⟩ := List.cons.inj hlabel
        obtain ⟨hname, hrest⟩ := List.cons.inj hlabel
        cases hname
        exact ⟨rfl, hrest⟩

/-- No lexemes are two commands. -/
theorem isSpelled_unique {c c' : Command} {ls : List Lexeme} (h : c.IsSpelled ls)
    (h' : c'.IsSpelled ls) : c = c' := by
  have hstops {l : Lexeme} {rest : List Lexeme} (hl : l ≠ .dot) :
      Level.primary.Stops (l :: rest) := primary_stops hl
  generalize hls : ls = ls' at h'
  cases h with
  | defaults t =>
    cases h' with
    | defaults t' =>
      simp only [List.cons_append, List.cons.injEq, true_and] at hls
      obtain ⟨rfl, -⟩ := tableName_append_inj (hstops (by decide)) (hstops (by decide)) hls
      rfl
    | insert t' cells' =>
      simp only [List.cons_append, List.append_assoc, List.cons.injEq, true_and] at hls
      obtain ⟨-, hrest⟩ := tableName_append_inj (hstops (by decide)) (hstops (by decide)) hls
      cases hrest
    | _ => simp at hls
  | insert t cells =>
    cases h' with
    | defaults t' =>
      simp only [List.cons_append, List.append_assoc, List.cons.injEq, true_and] at hls
      obtain ⟨-, hrest⟩ := tableName_append_inj (hstops (by decide)) (hstops (by decide)) hls
      cases hrest
    | insert t' cells' =>
      simp only [List.cons_append, List.append_assoc, List.cons.injEq, true_and,
        List.nil_append] at hls
      obtain ⟨rfl, hrest⟩ := tableName_append_inj (hstops (by decide)) (hstops (by decide)) hls
      obtain ⟨hcolumns, hrest⟩ := isListed_columns.inj (List.cons.inj hrest).2
      simp only [List.cons.injEq, true_and] at hrest
      obtain ⟨hvalues, -⟩ := isListed_parameters.inj hrest
      have hcells : cells = cells' := by
        rw [← List.zip_unzip cells, ← List.zip_unzip cells', List.unzip_eq_map, List.unzip_eq_map,
          hcolumns, hvalues]
      rw [hcells]
    | _ => simp at hls
  | update t cells h =>
    cases h' with
    | update t' cells' h' =>
      simp only [List.cons_append, List.append_assoc, List.cons.injEq, true_and] at hls
      obtain ⟨rfl, hrest⟩ := tableName_append_inj (hstops (by decide)) (hstops (by decide)) hls
      obtain ⟨rfl, rfl⟩ := isListed_assignments.inj (List.cons.inj hrest).2
      rw [derives_unique h h']
    | _ => simp at hls
  | delete t h =>
    cases h' with
    | delete t' h' =>
      simp only [List.cons_append, List.cons.injEq, true_and] at hls
      obtain ⟨rfl, hrest⟩ := tableName_append_inj (hstops (by decide)) (hstops (by decide)) hls
      obtain ⟨-, rfl⟩ := List.cons.inj hrest
      rw [derives_unique h h']
    | _ => simp at hls
  | select columns t h =>
    cases h' with
    | select columns' t' h' =>
      simp only [List.cons_append, List.append_assoc, List.cons.injEq, true_and] at hls
      obtain ⟨rfl, hrest⟩ := isListed_selected.inj hls
      obtain ⟨rfl, hwhere⟩ := tableName_append_inj (hstops (by decide)) (hstops (by decide)) hrest
      obtain ⟨-, rfl⟩ := List.cons.inj hwhere
      rw [derives_unique h h']
    | _ => simp at hls

end EntitySql.Sql
