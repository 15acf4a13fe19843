/-
  The text of a condition, read back as a whole.

  The texts and placeholders of a layout are read one by one when no two neighbours run together
  (`Layout.Splits`). In a rendering every name and every placeholder stands between blanks and
  symbols (`splits_rendering`), so that the text of a condition is read as its expression, and
  as no other (`text_means_condition`).
-/
import EntitySql.Proofs.Placeholders
import EntitySql.Proofs.Reading

namespace EntitySql

open Sql

namespace Layout

/-! ## Texts that are read part by part -/

/-- The characters of a layout with the placeholders of the names. -/
def characters (d : Dialect) (names : Nat → String) (l : Layout) : List Char :=
  (l.fill fun i => d.placeholder (names i)).toList

/-- In front of a delimiter the text of the layout is read part by part, if the names in its
    places are words. -/
def Splits (d : Dialect) (names : Nat → String) (l : Layout) : Prop :=
  (∀ i ∈ l.places, IsWord (names i)) → ∀ rest, IsDelimited rest →
    lex d (l.characters d names ++ rest) = l.lexemes d names ++ lex d rest

/-- A text without quotes and placeholders. -/
def isPlain (s : String) : Bool := s.toList.all fun c => classOf c != .special

/-- A text that begins with a delimiter. -/
def beginsDelimited (s : String) : Bool := s.toList.head?.any isDelimiter

/-- A text that ends with a delimiter. -/
def endsDelimited (s : String) : Bool := s.toList.getLast?.any isDelimiter

variable {d : Dialect} {names : Nat → String}

theorem characters_text (s : String) (l : Layout) :
    characters d names (.text s :: l) = s.toList ++ l.characters d names := by
  simp [characters]

theorem characters_append (l l' : Layout) :
    characters d names (l ++ l') = l.characters d names ++ l'.characters d names := by
  simp [characters]

theorem splits_nil : Splits d names [] := fun _ _ _ => rfl

theorem isPlain_iff (s : String) :
    isPlain s = true ↔ ∀ c ∈ s.toList, classOf c ≠ .special := by
  simp [isPlain]

/-- A fixed text. -/
theorem splits_text {s : String} (hs : isPlain s = true) : Splits d names [.text s] := by
  intro _ rest hrest
  rw [characters_text, lexemes_text]
  simpa [characters] using lex_append d ((isPlain_iff s).mp hs) hrest.isCut

/-- A fixed text that ends with a delimiter, and what follows. -/
theorem splits_cons {s : String} {l : Layout} (hs : isPlain s = true)
    (hend : endsDelimited s = true) (hl : Splits d names l) : Splits d names (.text s :: l) := by
  intro hwords rest hrest
  obtain ⟨c, hlast, hc⟩ := (Option.any_eq_true _ _).mp hend
  rw [characters_text, List.append_assoc,
    lex_append_of_getLast d ((isPlain_iff s).mp hs) hlast hc, hl hwords rest hrest, lexemes_text,
    List.append_assoc]

theorem isDelimited_of_begins {s : String} (hs : beginsDelimited s = true) (rest : List Char) :
    IsDelimited (s.toList ++ rest) := by
  obtain ⟨c, hfirst, hc⟩ := (Option.any_eq_true _ _).mp hs
  obtain ⟨cs, hs⟩ := List.head?_eq_some_iff.mp hfirst
  rw [hs]
  exact isDelimited_cons hc _

/-- What stands in front of a fixed text that begins with a delimiter. -/
theorem splits_append {s : String} {l l' : Layout} (hl : Splits d names l)
    (hbegin : beginsDelimited s = true) (hl' : Splits d names (.text s :: l')) :
    Splits d names (l ++ .text s :: l') := by
  intro hwords rest hrest
  rw [places_append] at hwords
  have hdelimited : IsDelimited (characters d names (.text s :: l') ++ rest) := by
    rw [characters_text, List.append_assoc]
    exact isDelimited_of_begins hbegin _
  rw [characters_append, List.append_assoc,
    hl (fun i hi => hwords i (List.mem_append_left _ hi)) _ hdelimited,
    hl' (fun i hi => hwords i (List.mem_append_right _ hi)) rest hrest, lexemes_append,
    List.append_assoc]

/-- A placeholder. -/
theorem splits_place (hd : IsReadable d) (i : Nat) : Splits d names [.place i] := by
  intro hwords rest hrest
  simpa [characters] using lex_placeholder hd (hwords i (by simp)) hrest

theorem splits_joined {s : String} (hs : isPlain s = true) (hbegin : beginsDelimited s = true)
    (hend : endsDelimited s = true) {ls : List Layout} (hls : ∀ l ∈ ls, Splits d names l) :
    Splits d names (joined s ls) := by
  unfold joined
  induction ls with
  | nil => exact splits_nil
  | cons l ls ih =>
    rw [List.forall_mem_cons] at hls
    cases ls with
    | nil =>
      rw [List.intercalate_singleton]
      exact hls.1
    | cons l' ls =>
      rw [List.intercalate_cons_cons, List.append_assoc]
      exact splits_append hls.1 hbegin (splits_cons hs hend (ih hls.2))

end Layout

namespace Predicate

open Layout

variable {d : Dialect} {names : Nat → String} {ms : Mappings}

/-! ## Renderings -/

/-- The name of a column. -/
theorem splits_column (hd : IsReadable d) {c : ColumnRef} (hc : ∃ x, ms.column c = .ok x) :
    Splits d names [.text (d.columnText ms c)] := by
  intro _ rest hrest
  rw [characters_text, lexemes_text, lex_column hd hc]
  simpa [characters] using lex_columnText hd hc hrest

/-- The name of a table. -/
theorem splits_table (hd : IsReadable d) {e : EntityType} (he : ∃ m, ms e = .ok m) :
    Splits d names [.text (d.tableText ms e)] := by
  intro _ rest hrest
  rw [characters_text, lexemes_text, lex_table hd he]
  simpa [characters] using lex_tableText hd he hrest

theorem splits_placeList (hd : IsReadable d) (i n : Nat) : Splits d names (placeList i n) := by
  refine splits_joined (by decide) (by decide) (by decide) fun l hl => ?_
  obtain ⟨j, -, rfl⟩ := List.mem_map.mp hl
  exact splits_place hd j

/-- A column in front of a text that begins with a delimiter. -/
theorem splits_column_cons (hd : IsReadable d) {c : ColumnRef} (hc : ∃ x, ms.column c = .ok x)
    {s : String} {l : Layout} (hs : beginsDelimited s = true) (hl : Splits d names (.text s :: l)) :
    Splits d names (.text (d.columnText ms c) :: .text s :: l) :=
  splits_append (splits_column hd hc) hs hl

/-- A sign or `LIKE` between what is compared. -/
theorem splits_operator (op : Operator) (negated : Bool) {l : Layout} (hl : Splits d names l) :
    Splits d names (.text " " :: .text (op.sql negated) :: .text " " :: l) := by
  have hop : isPlain (op.sql negated) = true := by
    cases op <;> cases negated <;> decide
  exact splits_cons (by decide) (by decide)
    (splits_append (splits_text hop) (by decide) (splits_cons (by decide) (by decide) hl))

theorem splits_fieldRendering (hd : IsReadable d) (i : Nat) {c : ColumnRef}
    (hc : ∃ x, ms.column c = .ok x) (op : Operator) (negated : Bool) (v : Value) :
    Splits d names (fieldRendering d ms i c op negated v) := by
  have hcomparison : Splits d names
      [.text "(", .text (d.columnText ms c), .text " ", .text (op.sql negated), .text " ",
       .place i, .text ")"] :=
    splits_cons (by decide) (by decide) (splits_column_cons hd hc (by decide)
      (splits_operator op negated
        (splits_append (splits_place hd i) (by decide) (splits_text (by decide)))))
  cases v with
  | null =>
    refine splits_cons (by decide) (by decide) ?_
    cases negated <;> exact splits_column_cons hd hc (by decide) (splits_text (by decide))
  | list items =>
    cases items with
    | nil => cases negated <;> exact splits_text (by decide)
    | cons v items =>
      have hend : Splits d names (placeList i (v :: items).length ++ [.text "))"]) :=
        splits_append (splits_placeList hd i _) (by decide) (splits_text (by decide))
      change Splits d names (_ ++ placeList i (v :: items).length ++ [.text "))"])
      rw [List.append_assoc]
      refine splits_cons (by decide) (by decide) ?_
      cases negated <;>
        exact splits_column_cons hd hc (by decide) (splits_cons (by decide) (by decide) hend)
  | _ => exact hcomparison

theorem splits_groupRendering (hd : IsReadable d) (k : Connective) {ls : List Layout}
    (hls : ∀ l ∈ ls, Splits d names l) : Splits d names (groupRendering d k ls) := by
  have heverything : isPlain d.everything = true := by
    rw [hd.everything]
    decide
  cases ls with
  | nil => exact splits_text heverything
  | cons l ls =>
    have hjoined : Splits d names (joined k.sql (l :: ls)) := by
      cases k <;> exact splits_joined (by decide) (by decide) (by decide) hls
    change Splits d names (([.text "("] : Layout) ++ joined k.sql (l :: ls) ++ [.text ")"])
    rw [List.append_assoc]
    exact splits_cons (by decide) (by decide)
      (splits_append hjoined (by decide) (splits_text (by decide)))

/-- No two neighbours of a rendering run together. -/
theorem splits_rendering (hd : IsReadable d) (i : Nat) {p : Predicate} (hc : p.Compiles ms) :
    Splits d names (p.rendering d ms i) := by
  induction p using treeInduction generalizing i with
  | field c op v negated => exact splits_fieldRendering hd i hc.1 op negated v
  | property c op other negated =>
    exact splits_cons (by decide) (by decide) (splits_column_cons hd hc.1 (by decide)
      (splits_operator op negated (splits_column_cons hd hc.2 (by decide)
        (splits_text (by decide)))))
  | between c low high negated =>
    have hbounds : Splits d names [.place i, .text " AND ", .place (i + 1), .text ")"] :=
      splits_append (splits_place hd i) (by decide) (splits_cons (by decide) (by decide)
        (splits_append (splits_place hd (i + 1)) (by decide) (splits_text (by decide))))
    rw [rendering]
    refine splits_cons (by decide) (by decide) ?_
    cases negated <;>
      exact splits_column_cons hd hc (by decide) (splits_cons (by decide) (by decide) hbounds)
  | group k members ih =>
    rw [Compiles, allCompile_iff] at hc
    rw [rendering]
    refine splits_groupRendering hd k ?_
    induction members generalizing i with
    | nil => exact fun l hl => absurd hl List.not_mem_nil
    | cons p members ihm =>
      rw [List.forall_mem_cons] at hc
      have hmembers (j : Nat) := ihm (fun q hq => ih q (List.mem_cons_of_mem p hq)) j hc.2
      rw [memberRenderings]
      cases hp : p.isEmpty with
      | true => exact hmembers i
      | false =>
        simp only [Bool.false_eq_true, if_false]
        rw [List.forall_mem_cons]
        exact ⟨ih p List.mem_cons_self i hc.1, hmembers _⟩
  | anyRow e p negated ih =>
    have hend : Splits d names (p.rendering d ms i ++ ([.text "))"] : Layout)) :=
      splits_append (ih i hc.2) (by decide) (splits_text (by decide))
    rw [rendering, List.append_assoc]
    cases negated <;>
      exact splits_cons (by decide) (by decide)
        (splits_append (splits_table hd hc.1) (by decide)
          (splits_cons (by decide) (by decide) hend))

end Predicate

/-! ## Names of operands -/

theorem classOf_of_isDigit {c : Char} (h : c.isDigit = true) : classOf c = .word := by
  have hne : ∀ x : Char, x.isDigit = false → c ≠ x := by
    rintro x hx rfl
    rw [h] at hx
    cases hx
  have hblank : c.isWhitespace = false := by
    simp [Char.isWhitespace, hne ' ' (by decide), hne '\t' (by decide), hne '\r' (by decide),
      hne '\n' (by decide)]
  simp [classOf, hblank, hne '(' (by decide), hne ')' (by decide), hne ',' (by decide),
    hne '.' (by decide), hne '=' (by decide), hne '<' (by decide), hne '>' (by decide),
    Char.isAlphanum, h]

/-- A numbered word is a word. -/
theorem isWord_numbered {base : String} (h : IsWord base) (i : Nat) :
    IsWord (Parameters.numbered base i) := by
  have hchars := Parameters.toList_numbered base i
  refine ⟨?_, ?_⟩
  · rintro hempty
    rw [hempty] at hchars
    simp at hchars
  · intro c hc
    rw [hchars, List.mem_append, List.mem_cons] at hc
    rcases hc with hc | rfl | hc
    · exact h.2 c hc
    · rfl
    · exact classOf_of_isDigit (Nat.isDigit_of_mem_toDigits (by decide) (by decide) hc)

/-- A property that is mapped has a column, and it is the one of that name. -/
theorem Mapping.mem_columns_of_mapped {m : Mapping} {name : String} {q : PropertyMapping}
    (h : m.mapped name = .ok q) : q ∈ m.columns ∧ q.name = name := by
  unfold mapped property at h
  cases hfind : m.property? name with
  | none =>
    rw [hfind] at h
    cases h
  | some q' =>
    rw [hfind] at h
    dsimp only at h
    split at h
    · cases h
    · rename_i hcolumn
      cases h
      refine ⟨List.mem_filter.mpr ⟨List.mem_of_find?_eq_some hfind, ?_⟩, ?_⟩
      · simpa using hcolumn
      · simpa using List.find?_some hfind

/-- The property of a column is one of its mapping that has a column. -/
theorem Mappings.column_eq_ok {ms : Mappings} {c : ColumnRef} {m : Mapping} {q : PropertyMapping}
    (h : ms.column c = .ok (m, q)) :
    ms c.entity = .ok m ∧ q ∈ m.columns ∧ q.name = c.property := by
  unfold column at h
  cases hm : ms c.entity with
  | error e =>
    rw [hm] at h
    cases h
  | ok m' =>
    rw [hm] at h
    dsimp only at h
    cases hq : m'.mapped c.property with
    | error e =>
      rw [hq] at h
      cases h
    | ok q' =>
      rw [hq] at h
      cases h
      exact ⟨rfl, Mapping.mem_columns_of_mapped hq⟩

/-- The name of an operand is made of the name of a property. -/
theorem Predicate.exists_column_of_mem_operands {ms : Mappings} {p : Predicate}
    (hc : p.Compiles ms) {op : String × Value} (hop : op ∈ p.operands) :
    ∃ c : ColumnRef, op.1 = c.property ∧ ∃ x, ms.column c = .ok x := by
  induction p using treeInduction with
  | field c f v negated =>
    refine ⟨c, ?_, hc.1⟩
    have hbase : ∀ op ∈ fieldOperands c v, op.1 = c.property := by
      cases v with
      | null => exact fun op hop => absurd hop List.not_mem_nil
      | list items => simp [fieldOperands]
      | _ => simp [fieldOperands]
    exact hbase op hop
  | property c f other negated => exact absurd hop List.not_mem_nil
  | between c low high negated =>
    have hbase : ∀ op ∈ [(c.property, low), (c.property, high)], op.1 = c.property := by simp
    exact ⟨c, hbase op hop, hc⟩
  | group k members ih =>
    rw [Compiles, allCompile_iff] at hc
    rw [operands, allOperands_eq_flatMap, List.mem_flatMap] at hop
    obtain ⟨p, hp, hop⟩ := hop
    exact ih p hp (hc p hp) hop
  | anyRow e p negated ih => exact ih hc.2 hop

/-- The names that operands of a condition get are words when those of the properties are. -/
theorem isWord_newNames {d : Dialect} {ms : Mappings} {p : Predicate} (hc : p.Compiles ms)
    (hwords : ∀ e m, ms e = .ok m → ∀ q ∈ m.properties, IsWord q.name) (ps : Parameters) :
    ∀ name ∈ ps.newNames (d.bound p.operands), IsWord name := by
  intro name hname
  obtain ⟨op, hop, k, rfl⟩ := Parameters.mem_newNames hname
  obtain ⟨op', hop', rfl⟩ := List.mem_map.mp hop
  obtain ⟨c, hbase, ⟨m, q⟩, hcolumn⟩ := p.exists_column_of_mem_operands hc hop'
  obtain ⟨hm, hq, hqname⟩ := Mappings.column_eq_ok hcolumn
  dsimp only
  rw [hbase, ← hqname]
  exact isWord_numbered (hwords c.entity m hm q (List.mem_of_mem_filter hq)) k

/-! ## Plans as expressions -/

namespace Plan

/-- The names of the operands by their numbers, behind the given parameters. -/
def names (d : Dialect) (p : Plan) (ps : Parameters) (i : Nat) : String :=
  (ps.newNames (d.bound p.operands)).getD i ""

/-- The lexemes of the plan, its places taken for parameters. -/
def lexemes (d : Dialect) (p : Plan) (ps : Parameters) : List Lexeme :=
  p.layout.lexemes d (p.names d ps)

/-- What the plan says behind the given parameters is one expression. -/
structure IsReadAs (p : Plan) (d : Dialect) (ps : Parameters) (text : String) (e : Expr) :
    Prop where
  /-- The text is that of the plan. -/
  written : text = p.text d ps
  /-- The lexemes are the expression. -/
  derives : Derives .condition e (p.lexemes d ps)
  /-- They are no other. -/
  unique : ∀ e', Derives .condition e' (p.lexemes d ps) → e' = e
  /-- When the names are words, these are the lexemes of the text. -/
  lex : (∀ name ∈ ps.newNames (d.bound p.operands), IsWord name) →
    Sql.lex d text.toList = p.lexemes d ps

end Plan

namespace Predicate

/-- The expression of a condition written behind the given parameters. -/
def expression (d : Dialect) (ms : Mappings) (ps : Parameters) (p : Predicate) : Expr :=
  p.expr ms ((p.plan d ms).names d ps) 0

theorem value_expression (W : World) (scope : Scope) {d : Dialect} {ms : Mappings} {p : Predicate}
    (hc : p.Compiles ms) (ps : Parameters) :
    (p.expression d ms ps).value W ((p.plan d ms).parameters d ps) scope =
      p.truth W d ms scope :=
  p.value_expr W scope 0 hc (ps.hold_bindAll d p.operands)

/-- The text of a condition is its expression. -/
theorem isReadAs_expression {d : Dialect} (hd : IsReadable d) {ms : Mappings} {p : Predicate}
    (hc : p.Compiles ms) (ps : Parameters) :
    (p.plan d ms).IsReadAs d ps ((p.plan d ms).text d ps) (p.expression d ms ps) := by
  have hderives : Derives .condition (p.expression d ms ps) ((p.plan d ms).lexemes d ps) :=
    .ofConjunction (.ofFactor (.ofPrimary (p.derives_rendering hd _ 0 hc)))
  refine ⟨rfl, hderives, fun e' he' => derives_unique he' hderives, fun hwords => ?_⟩
  -- every place has one of the new names
  have hplaces : ∀ i ∈ (p.rendering d ms 0).places, IsWord ((p.plan d ms).names d ps i) := by
    intro i hi
    rw [p.places_rendering d 0 hc, List.mem_range'_1, Nat.zero_add] at hi
    have hlt : i < (ps.newNames (d.bound p.operands)).length := by
      rw [d.length_newNames_bound]
      exact hi.2
    have hname : (p.plan d ms).names d ps i = (ps.newNames (d.bound p.operands))[i] := by
      unfold Plan.names plan
      rw [List.getD_eq_getElem?_getD, List.getElem?_eq_getElem hlt, Option.getD_some]
    rw [hname]
    exact hwords _ (List.getElem_mem hlt)
  have hlex := p.splits_rendering hd 0 hc hplaces [] isDelimited_nil
  rw [lex_nil, List.append_nil, List.append_nil] at hlex
  exact hlex

end Predicate

/-! ## The meaning of a text -/

/-- For every dialect, every set of mappings whose properties are named by words, and every
    condition that can be written: its text is one expression of SQL and no other, and the
    expression has the truth value of the condition in every database and for all current rows. -/
theorem text_means_condition (s : Setting) (hd : s.dialect ∈ Dialect.all.map (·.2))
    (p : Predicate) {w w' : Workspace} {text : String}
    (hwords : ∀ e m, (s.view w.catalog).mapping e = .ok m → ∀ q ∈ m.properties, IsWord q.name)
    (hrun : Work.clause s p.fragments w = .ok text w') :
    ∃ e : Expr, Derives .condition e (lex s.dialect text.toList) ∧
      (∀ e', Derives .condition e' (lex s.dialect text.toList) → e' = e) ∧
      ∀ (W : World) (scope : Scope), e.value W w'.parameters scope =
        p.truth W s.dialect (s.view w.catalog).mapping scope := by
  have hc := Work.compiles_of_clause hrun
  obtain ⟨w₁, hw₁, hparameters⟩ := Work.clause_of_compiles s hc
  rw [hrun] at hw₁
  cases hw₁
  have hread := p.isReadAs_expression (isReadable_of_mem_all hd) hc w.parameters
  rw [hread.lex (isWord_newNames hc hwords w.parameters)]
  refine ⟨_, hread.derives, hread.unique, fun W scope => ?_⟩
  rw [hparameters]
  exact p.value_expression W scope hc w.parameters

/-! ## A sample -/

namespace Samples

/-- The only property of an entity is named by a word. -/
theorem isWord_property (e : EntityType) (m : Mapping)
    (hm : (people.view {}).mapping e = .ok m) (q : PropertyMapping) (hq : q ∈ m.properties) :
    IsWord q.name := by
  change (if _ then _ else Except.ok _) = _ at hm
  split at hm
  · cases hm
  · cases hm
    change q ∈ [({ name := "age" } : PropertyMapping)] at hq
    rw [List.mem_singleton.mp hq]
    decide

theorem compiles_ages : ages.Compiles (people.view {}).mapping :=
  (ages.checkAll_fragments _).mp rfl

theorem dialect_mem_all : people.dialect ∈ Dialect.all.map (·.2) :=
  List.mem_of_getElem? (i := 5) rfl

end Samples

/-- A group with a comparison, a list that is inverted, nothing and a range. -/
theorem text_means_condition_ages :
    ∃ text w, Work.clause Samples.people Samples.ages.fragments {} = .ok text w ∧
      ∃ e : Expr, Derives .condition e (lex Samples.people.dialect text.toList) ∧
        (∀ e', Derives .condition e' (lex Samples.people.dialect text.toList) → e' = e) ∧
        ∀ (W : World) (scope : Scope), e.value W w.parameters scope =
          Samples.ages.truth W Samples.people.dialect (Samples.people.view {}).mapping scope := by
  obtain ⟨w, hw, -⟩ := Work.clause_of_compiles (w := {}) Samples.people Samples.compiles_ages
  exact ⟨_, w, hw, @text_means_condition Samples.people Samples.dialect_mem_all Samples.ages {} w _
    Samples.isWord_property hw⟩

end EntitySql
