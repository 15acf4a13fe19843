/-
  The texts of the statements by key, read back.

  The layout of a statement by key is read part by part (`splits_updateLayout` and its like), and
  what is read is one command (`isSpelled_updateLayout` and its like): the cells of an insertion or
  an update belong to the properties in order, and the condition is one comparison for each key
  property, true where all of them are (`value_keyExpr`). The end of an insertion is up to the
  dialect, and so is the query that may follow it (`EndsReadably`).
-/
import EntitySql.Proofs.KeyedLayout
import EntitySql.Proofs.ReadBack

namespace EntitySql

open Sql

/-! ## Names -/

namespace Layout

variable {d : Dialect} {names : Nat → String}

theorem splits_quote (hd : IsReadable d) (name : String) :
    Splits d names [.text (d.quote name)] := by
  intro _ rest hrest
  have hname := lex_quote hd name isDelimited_nil
  rw [List.append_nil] at hname
  rw [characters_text, lexemes_text, hname]
  simpa [characters] using lex_quote hd name hrest

theorem splits_tableName (hd : IsReadable d) (m : Mapping) :
    Splits d names [.text (d.tableName m)] := by
  intro _ rest hrest
  have htable := lex_tableName hd m isDelimited_nil
  rw [List.append_nil] at htable
  rw [characters_text, lexemes_text, htable]
  simpa [characters] using lex_tableName hd m hrest

theorem splits_qualifiedName (hd : IsReadable d) (m : Mapping) (p : PropertyMapping) :
    Splits d names [.text (d.qualifiedName m p)] := by
  intro _ rest hrest
  have hcolumn := lex_qualifiedName hd m p isDelimited_nil
  rw [List.append_nil] at hcolumn
  rw [characters_text, lexemes_text, hcolumn]
  simpa [characters] using lex_qualifiedName hd m p hrest

/-- A layout for each property with a text between any two. -/
theorem splits_joined_each (part : Nat → PropertyMapping → Layout)
    (hpart : ∀ i p, Splits d names (part i p)) {s : String} (hs : isPlain s = true)
    (hbegin : beginsDelimited s = true) (hend : endsDelimited s = true) (i : Nat)
    (ps : List PropertyMapping) : Splits d names (joined s (each part i ps)) := by
  refine splits_joined hs hbegin hend fun l hl => ?_
  obtain ⟨j, p, -, rfl⟩ := mem_each hl
  exact hpart j p

end Layout

namespace Mapping

open Layout

variable {d : Dialect} {m : Mapping} {names : Nat → String}

/-! ## Texts that are read part by part -/

theorem splits_equationLayout (hd : IsReadable d) (i : Nat) (p : PropertyMapping) :
    Splits d names (equationLayout d m i p) :=
  splits_cons (by decide) (by decide)
    (splits_append (splits_qualifiedName hd m p) (by decide) (splits_cons (by decide) (by decide)
      (splits_append (splits_place hd i) (by decide) (splits_text (by decide)))))

theorem splits_keyLayout (hd : IsReadable d) (i : Nat) : Splits d names (m.keyLayout d i) := by
  have hequations : Splits d names (joined " AND " (each (equationLayout d m) i m.keys)) :=
    splits_joined_each _ (splits_equationLayout hd) (by decide) (by decide) (by decide) i m.keys
  unfold keyLayout
  split
  · rename_i l hl
    have hmem : l ∈ each (equationLayout d m) i m.keys := by
      rw [hl]
      exact List.mem_singleton_self l
    obtain ⟨j, p, -, rfl⟩ := mem_each hmem
    exact splits_equationLayout hd j p
  · rw [List.append_assoc]
    exact splits_cons (by decide) (by decide)
      (splits_append hequations (by decide) (splits_text (by decide)))

theorem splits_assignmentLayout (hd : IsReadable d) (i : Nat) (p : PropertyMapping) :
    Splits d names (assignmentLayout d i p) :=
  splits_append (splits_quote hd p.column) (by decide)
    (splits_cons (by decide) (by decide) (splits_place hd i))

theorem splits_selectedLayout (hd : IsReadable d) (p : PropertyMapping) :
    Splits d names (selectedLayout d m p) := by
  unfold selectedLayout
  split
  · exact splits_qualifiedName hd m p
  · exact splits_append (splits_qualifiedName hd m p) (by decide)
      (splits_cons (by decide) (by decide) (splits_quote hd p.name))

theorem splits_insertFront (hd : IsReadable d) : Splits d names (m.insertFront d) := by
  have hcolumns : Splits d names
      (joined ", " (m.insertable.map fun p => [.text (d.columnName p)])) := by
    refine splits_joined (by decide) (by decide) (by decide) fun l hl => ?_
    obtain ⟨p, -, rfl⟩ := List.mem_map.mp hl
    exact splits_quote hd p.column
  have hvalues : Splits d names (joined ", " (each (fun i _ => [.place i]) 0 m.insertable)) :=
    splits_joined_each _ (fun i _ => splits_place hd i) (by decide) (by decide) (by decide) 0
      m.insertable
  unfold insertFront
  split
  · exact splits_cons (by decide) (by decide) (splits_tableName hd m)
  · rw [List.append_assoc, List.append_assoc]
    exact splits_cons (by decide) (by decide) (splits_append (splits_tableName hd m) (by decide)
      (splits_cons (by decide) (by decide)
        (splits_append hcolumns (by decide) (splits_cons (by decide) (by decide) hvalues))))

theorem splits_updateLayout (hd : IsReadable d) (excludeAssigned : Bool) :
    Splits d names (m.updateLayout d excludeAssigned) := by
  have hassignments : Splits d names
      (joined ", " (each (assignmentLayout d) 0 (m.updatable excludeAssigned))) :=
    splits_joined_each _ (splits_assignmentLayout hd) (by decide) (by decide) (by decide) 0
      (m.updatable excludeAssigned)
  unfold updateLayout
  rw [List.append_assoc, List.append_assoc]
  exact splits_cons (by decide) (by decide) (splits_append (splits_tableName hd m) (by decide)
    (splits_cons (by decide) (by decide)
      (splits_append hassignments (by decide)
        (splits_cons (by decide) (by decide) (splits_keyLayout hd _)))))

theorem splits_deleteLayout (hd : IsReadable d) : Splits d names (m.deleteLayout d) :=
  splits_cons (by decide) (by decide) (splits_append (splits_tableName hd m) (by decide)
    (splits_cons (by decide) (by decide) (splits_keyLayout hd 0)))

theorem splits_getLayout (hd : IsReadable d) : Splits d names (m.getLayout d) := by
  have hcolumns : Splits d names (joined ", " (m.columns.map (selectedLayout d m))) := by
    refine splits_joined (by decide) (by decide) (by decide) fun l hl => ?_
    obtain ⟨p, -, rfl⟩ := List.mem_map.mp hl
    exact splits_selectedLayout hd p
  unfold getLayout
  rw [List.append_assoc, List.append_assoc]
  exact splits_cons (by decide) (by decide) (splits_append hcolumns (by decide)
    (splits_cons (by decide) (by decide) (splits_append (splits_tableName hd m) (by decide)
      (splits_cons (by decide) (by decide) (splits_keyLayout hd 0)))))

/-! ## The condition on the key -/

/-- The comparison of a key property with its parameter. -/
def keyComparison (m : Mapping) (p : PropertyMapping) : Expr :=
  .compare .eq (.column m.tableName p.column) (.parameter p.name)

/-- The condition on the key: one comparison for each property. -/
def keyExpr (m : Mapping) : Expr := Connective.and.expr (m.keys.map m.keyComparison)

theorem derives_equationLayout (hd : IsReadable d) {i : Nat} {p : PropertyMapping}
    (h : names i = p.name) :
    Derives .primary (m.keyComparison p) ((equationLayout d m i p).lexemes d names) := by
  have hcolumn := lex_qualifiedName hd m p isDelimited_nil
  rw [List.append_nil, lex_nil, List.append_nil] at hcolumn
  have hderives := (derives_operator d .eq false (.column m.tableName p.column)
    (.parameter p.name)).inParens
  simp only [List.append_assoc] at hderives
  unfold equationLayout
  rw [lexemes_text, lexemes_text, hcolumn, lexemes_text, lexemes_place, h]
  exact hderives

theorem derives_each_equation (hd : IsReadable d) {i : Nat} {ps : List PropertyMapping}
    (h : Numbers names i ps) :
    List.Forall₂ (fun e l => Derives .primary e (lexemes d names l)) (ps.map m.keyComparison)
      (each (equationLayout d m) i ps) := by
  induction ps generalizing i with
  | nil => exact .nil
  | cons p ps ih => exact .cons (derives_equationLayout hd h.1) (ih h.2)

/-- The condition on the key is what is read. -/
theorem derives_keyLayout (hd : IsReadable d) {i : Nat} (h : Numbers names i m.keys)
    (hkeys : m.keys ≠ []) :
    Derives .condition m.keyExpr ((m.keyLayout d i).lexemes d names) := by
  have hequations := derives_each_equation (m := m) hd h
  refine .ofConjunction (.ofFactor (.ofPrimary ?_))
  unfold keyExpr keyLayout
  generalize m.keys = keys at h hkeys hequations
  cases keys with
  | nil => exact absurd rfl hkeys
  | cons k keys =>
    cases keys with
    | nil => exact derives_equationLayout hd h.1
    | cons k' keys => exact Predicate.derives_groupRendering hd names .and hequations

theorem parameters_keyExpr (m : Mapping) : m.keyExpr.parameters = namesOf m.keys := by
  have hchain (k : PropertyMapping) (ks : List PropertyMapping) :
      (Connective.and.chain (m.keyComparison k) (ks.map m.keyComparison)).parameters =
        namesOf (k :: ks) := by
    induction ks generalizing k with
    | nil => rfl
    | cons k' ks ih => exact congrArg (k.name :: ·) (ih k')
  unfold keyExpr
  cases m.keys with
  | nil => rfl
  | cons k ks => exact hchain k ks

/-- The condition is true where every key column equals its parameter. -/
theorem value_keyExpr (W : World) (ps : Parameters) (scope : Scope) :
    m.keyExpr.value W ps scope = .yes ↔
      ∀ k ∈ m.keys, W.compared .eq (scope m.tableName k.column)
        ((ps.get? k.name).getD .null) = .yes := by
  have htruth (ts : List Truth) : Connective.and.truth ts = .yes ↔ ∀ t ∈ ts, t = .yes := by
    have hall : Connective.and.truth ts = .all ts := by cases ts <;> rfl
    rw [hall, Truth.all_eq_yes]
  unfold keyExpr
  rw [Connective.value_expr, htruth, List.map_map, List.forall_mem_map]
  exact Iff.rfl

/-! ## Commands -/

/-- The columns of properties with their parameters. -/
def cells (ps : List PropertyMapping) : List (String × String) := ps.map fun p => (p.column, p.name)

/-- The insertion of the properties. -/
def insertion (m : Mapping) : Command := .insert m.tableName (cells m.insertable)

/-- The update of the row with a key. -/
def updating (m : Mapping) (excludeAssigned : Bool) : Command :=
  .update m.tableName (cells (m.updatable excludeAssigned)) m.keyExpr

/-- The deletion of the row with a key. -/
def deletion (m : Mapping) : Command := .delete m.tableName m.keyExpr

/-- A selected column, with a label where it is not called like the property. -/
def selected (m : Mapping) (p : PropertyMapping) : Term × Option String :=
  (.column m.tableName p.column, if p.column = p.name then none else some p.name)

/-- The select of the row with a key. -/
def selection (m : Mapping) : Command :=
  .select (m.columns.map m.selected) m.tableName m.keyExpr

theorem parameters_cells (ps : List PropertyMapping) : (cells ps).map (·.2) = namesOf ps := by
  unfold cells
  rw [List.map_map]
  rfl

theorem parameters_insertion (m : Mapping) : m.insertion.parameters = namesOf m.insertable :=
  parameters_cells m.insertable

theorem parameters_updating (m : Mapping) (excludeAssigned : Bool) :
    (m.updating excludeAssigned).parameters =
      namesOf (m.updatable excludeAssigned) ++ namesOf m.keys := by
  unfold updating
  rw [Command.parameters, parameters_cells, parameters_keyExpr]

theorem parameters_deletion (m : Mapping) : m.deletion.parameters = namesOf m.keys :=
  parameters_keyExpr m

theorem parameters_selection (m : Mapping) : m.selection.parameters = namesOf m.keys := by
  have hcolumns : (m.columns.map m.selected).flatMap (·.1.parameters) = [] := by
    rw [List.flatMap_eq_nil_iff]
    intro column hcolumn
    obtain ⟨p, -, rfl⟩ := List.mem_map.mp hcolumn
    rfl
  unfold selection
  rw [Command.parameters, hcolumns, parameters_keyExpr]
  rfl

/-! ## Layouts are commands -/

theorem lex_ownTable (hd : IsReadable d) (m : Mapping) :
    lex d (d.tableName m).toList = m.tableName.lexemes := by
  simpa using lex_tableName hd m isDelimited_nil

theorem lex_columnName (hd : IsReadable d) (p : PropertyMapping) :
    lex d (d.columnName p).toList = [.name p.column] := by
  have hname := lex_quote hd p.column isDelimited_nil
  rwa [List.append_nil, lex_nil] at hname

/-- Layouts of properties with commas between them. -/
theorem lexemes_commas {α : Type} {part : α → List Lexeme} {item : PropertyMapping → α}
    {ls : List Layout} {ps : List PropertyMapping}
    (h : ls.map (lexemes d names) = ps.map fun p => part (item p)) :
    (joined ", " ls).lexemes d names = commas part (ps.map item) := by
  unfold commas
  rw [lexemes_joined, h, List.map_map]
  rfl

theorem lexemes_columns (hd : IsReadable d) (ps : List PropertyMapping) :
    (joined ", " (ps.map fun p => [.text (d.columnName p)])).lexemes d names =
      commas (fun column => [.name column]) ((cells ps).map (·.1)) := by
  unfold cells
  rw [List.map_map]
  refine lexemes_commas ?_
  rw [List.map_map]
  refine List.map_congr_left fun p _ => ?_
  rw [Function.comp_apply, lexemes_text, lex_columnName hd]
  rfl

theorem lexemes_values {ps : List PropertyMapping} (h : Numbers names 0 ps) :
    (joined ", " (each (fun i _ => [.place i]) 0 ps)).lexemes d names =
      commas (fun name => [.parameter name]) ((cells ps).map (·.2)) := by
  unfold cells
  rw [List.map_map]
  refine lexemes_commas (map_each (fun i p hp => ?_) h)
  rw [lexemes_place, hp]
  rfl

theorem lexemes_assignments (hd : IsReadable d) {ps : List PropertyMapping}
    (h : Numbers names 0 ps) :
    (joined ", " (each (assignmentLayout d) 0 ps)).lexemes d names =
      commas assignmentLexemes (cells ps) := by
  refine lexemes_commas (map_each (fun i p hp => ?_) h)
  unfold assignmentLayout
  rw [lexemes_text, lex_columnName hd, lexemes_text, lexemes_place, hp]
  rfl

theorem lexemes_selected (hd : IsReadable d) (m : Mapping) (ps : List PropertyMapping) :
    (joined ", " (ps.map (selectedLayout d m))).lexemes d names =
      commas selectedLexemes (ps.map m.selected) := by
  refine lexemes_commas ?_
  rw [List.map_map]
  refine List.map_congr_left fun p _ => ?_
  have hcolumn := lex_qualifiedName hd m p isDelimited_nil
  have hlabel := lex_quote hd p.name isDelimited_nil
  rw [List.append_nil, lex_nil, List.append_nil] at hcolumn
  rw [List.append_nil, lex_nil] at hlabel
  unfold selectedLayout selected selectedLexemes
  rw [Function.comp_apply, lexemes_text, hcolumn]
  by_cases hp : p.column = p.name
  · rw [if_pos hp, if_pos hp]
    rfl
  · rw [if_neg hp, if_neg hp, lexemes_text, lexemes_text, hlabel]
    rfl

theorem isSpelled_updateLayout (hd : IsReadable d) {excludeAssigned : Bool}
    (h : Numbers names 0 (m.updatable excludeAssigned))
    (hk : Numbers names (m.updatable excludeAssigned).length m.keys) (hkeys : m.keys ≠ []) :
    (m.updating excludeAssigned).IsSpelled
      ((m.updateLayout d excludeAssigned).lexemes d names) := by
  have hspelled := Command.IsSpelled.update m.tableName (cells (m.updatable excludeAssigned))
    (derives_keyLayout hd hk hkeys)
  unfold updateLayout
  rw [lexemes_append, lexemes_append, lexemes_append, lexemes_assignments hd h, lexemes_text,
    lexemes_text, lex_ownTable hd]
  simp only [List.append_assoc, List.cons_append] at hspelled ⊢
  exact hspelled

theorem isSpelled_deleteLayout (hd : IsReadable d) (h : Numbers names 0 m.keys)
    (hkeys : m.keys ≠ []) : m.deletion.IsSpelled ((m.deleteLayout d).lexemes d names) := by
  have hspelled := Command.IsSpelled.delete m.tableName (derives_keyLayout hd h hkeys)
  unfold deleteLayout
  rw [lexemes_append, lexemes_text, lexemes_text, lex_ownTable hd]
  simp only [List.append_assoc, List.cons_append] at hspelled ⊢
  exact hspelled

theorem isSpelled_getLayout (hd : IsReadable d) (h : Numbers names 0 m.keys)
    (hkeys : m.keys ≠ []) : m.selection.IsSpelled ((m.getLayout d).lexemes d names) := by
  have hspelled := Command.IsSpelled.select (m.columns.map m.selected) m.tableName
    (derives_keyLayout hd h hkeys)
  unfold getLayout
  rw [lexemes_append, lexemes_append, lexemes_append, lexemes_selected hd, lexemes_text,
    lexemes_text, lexemes_text, lex_ownTable hd]
  simp only [List.append_assoc, List.cons_append] at hspelled ⊢
  exact hspelled

/-! ## Insertions -/

/-- What the dialects write where no column is listed. -/
theorem lex_defaultValues (hd : d ∈ Dialect.all.map (·.2)) :
    lex d d.defaultValues.toList = [.word "DEFAULT", .word "VALUES"] ∨
      lex d d.defaultValues.toList =
        [.openParen, .closeParen, .word "VALUES", .openParen, .closeParen] := by
  revert d
  decide

theorem isSpelled_insertLayout (hd : d ∈ Dialect.all.map (·.2))
    (h : Numbers names 0 m.insertable) :
    m.insertion.IsSpelled ((m.insertLayout d).lexemes d names) := by
  have hreadable := isReadable_of_mem_all hd
  unfold insertion insertLayout insertFront insertEnd
  cases hps : m.insertable with
  | nil =>
    rw [lexemes_append, lexemes_text, lexemes_text, lex_ownTable hreadable, lexemes_text]
    rcases lex_defaultValues hd with hend | hend
    · have hspelled := Command.IsSpelled.defaults m.tableName
      rw [hend]
      simp only [List.append_assoc, List.cons_append] at hspelled ⊢
      exact hspelled
    · have hspelled := Command.IsSpelled.insert m.tableName []
      rw [hend]
      simp only [List.append_assoc, List.cons_append] at hspelled ⊢
      exact hspelled
  | cons p ps =>
    rw [hps] at h
    have hspelled := Command.IsSpelled.insert m.tableName (cells (p :: ps))
    dsimp only
    rw [lexemes_append, lexemes_append, lexemes_append, lexemes_append,
      lexemes_columns hreadable, lexemes_values h, lexemes_text, lexemes_text,
      lex_ownTable hreadable]
    simp only [List.append_assoc, List.cons_append] at hspelled ⊢
    exact hspelled

/-! ## Behind an insertion -/

/-- The end of an insertion can be told from the query of the generated key behind it. -/
structure EndsReadably (d : Dialect) : Prop where
  /-- There are no quotes and no placeholders in the end without columns. -/
  defaultValues : isPlain d.defaultValues = true
  /-- The end without columns begins with a delimiter. -/
  begins : beginsDelimited d.defaultValues = true
  /-- Nothing else begins like the separator. -/
  separator : d.separator = ";\n" ∧ d.openQuote ≠ ';' ∧ d.parameterMark ≠ ';'
  /-- There are no quotes and no placeholders in front of the name of the column. -/
  identityQuery : isPlain d.identityQuery = true
  /-- The name of the column stands behind a delimiter. -/
  ends : endsDelimited d.identityQuery = true

theorem endsReadably_of_mem_all (hd : d ∈ Dialect.all.map (·.2)) : EndsReadably d := by
  simp only [Dialect.all, List.map_cons, List.map_nil, List.mem_cons, List.not_mem_nil,
    or_false] at hd
  rcases hd with rfl | rfl | rfl | rfl | rfl | rfl <;>
    exact ⟨by decide, by decide, by decide, by decide, by decide⟩

theorem isDelimited_insertEnd (h : EndsReadably d) (m : Mapping) (rest : List Char) :
    IsDelimited ((m.insertEnd d).toList ++ rest) := by
  unfold insertEnd
  split
  · exact isDelimited_of_begins h.begins rest
  · exact isDelimited_of_begins (by decide) rest

/-- The separator is a lexeme without meaning. -/
theorem lex_separator (h : EndsReadably d) (rest : List Char) :
    lex d (d.separator.toList ++ rest) = .stray ';' :: lex d rest := by
  have hsemicolon : classOf ';' = .special := by decide
  obtain ⟨hseparator, hquote, hmark⟩ := h.separator
  have hblank : lex d ('\n' :: rest) = lex d rest := lex_delimiter d (by decide) rest
  rw [hseparator]
  change lex d (';' :: '\n' :: rest) = _
  rw [lex_cons]
  unfold step
  simp only [hsemicolon, if_neg hquote.symm, if_neg hmark.symm, hblank]
  rfl

/-- What follows an insertion is told from it. -/
theorem lex_insertEnd (h : EndsReadably d) (m : Mapping) (rest : List Char) :
    lex d ((m.insertEnd d).toList ++ (d.separator.toList ++ rest)) =
      lex d (m.insertEnd d).toList ++ lex d (d.separator.toList ++ rest) := by
  have hcut : IsCut (d.separator.toList ++ rest) := by
    rw [h.separator.1]
    intro c hc
    cases hc
    decide
  have hplain : isPlain (m.insertEnd d) = true := by
    unfold insertEnd
    split
    · exact h.defaultValues
    · decide
  exact lex_append d ((isPlain_iff _).mp hplain) hcut

/-- The query of the generated key names no parameter. -/
theorem parametersOf_identitySelect (hd : IsReadable d) (h : EndsReadably d) :
    parametersOf (lex d d.identitySelect.toList) = [] := by
  have hplain := (isPlain_iff _).mp h.identityQuery
  have hname := lex_quote hd "Id" isDelimited_nil
  obtain ⟨c, hlast, hc⟩ := (Option.any_eq_true _ _).mp h.ends
  rw [List.append_nil, lex_nil] at hname
  unfold Dialect.identitySelect
  rw [String.toList_append, lex_append_of_getLast d hplain hlast hc, hname, parametersOf_append,
    parametersOf_lex d hplain]
  rfl

end Mapping

end EntitySql
