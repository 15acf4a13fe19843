/-
  The lists of statements are filled, but for the columns of an entity that has none.

  Each statement is one of the forms below, which are told over what stands in them: the columns of
  mappings, the placeholders of parameters, and tables (`Lexicon`). A form shows the lists of the
  statement, its order (`IsOrder`) and its condition, with the lists and the conditions in it
  (`IsCondition`). Insertions, updates, deletions and selects by key look for something to list
  before they list it. The select of rows does not: it lists the columns of the entity, be it none.
-/
import EntitySql.Proofs.GuardedDeletions
import EntitySql.Proofs.RowsReadBack
import EntitySql.Proofs.SoundCatalogs
import EntitySql.Proofs.WindowedSelects

namespace EntitySql

/-! ## Forms of statements -/

/-- What the names in a statement can be. -/
structure Lexicon where
  /-- The dialect, which spells them. -/
  dialect : Dialect
  /-- The mapping of each entity type. -/
  mapping : EntityType → Mapping
  /-- The names of the parameters. -/
  names : List String

namespace Lexicon

variable (x : Lexicon)

/-- The table of an entity type. -/
def table (e : EntityType) : String := x.dialect.tableName (x.mapping e)

/-- The columns of an entity type in a select. -/
def selected (e : EntityType) : List String :=
  (x.mapping e).columns.map (x.dialect.selectedColumn (x.mapping e))

/-- A column of an entity type, behind its table. -/
def IsColumn (text : String) : Prop :=
  ∃ e, ∃ p ∈ (x.mapping e).columns, text = x.dialect.qualifiedName (x.mapping e) p

/-- The placeholder of a parameter. -/
def IsPlaceholder (text : String) : Prop := ∃ name ∈ x.names, text = x.dialect.placeholder name

/-- A comparison of a column with a column or a parameter, with nothing, with a range or with a
    list that is not empty, or what stands for one with an empty list. -/
inductive IsComparison : String → Prop
  | operator {left right : String} (hleft : x.IsColumn left) (op : Operator) (negated : Bool)
      (hright : x.IsColumn right ∨ x.IsPlaceholder right) :
      IsComparison (left ++ " " ++ op.sql negated ++ " " ++ right)
  | nothing {left : String} (hleft : x.IsColumn left) (negated : Bool) :
      IsComparison (left ++ (if negated then " IS NOT NULL" else " IS NULL"))
  | range {left low high : String} (hleft : x.IsColumn left) (hlow : x.IsPlaceholder low)
      (hhigh : x.IsPlaceholder high) (negated : Bool) :
      IsComparison (left ++ (if negated then " NOT BETWEEN " else " BETWEEN ") ++ low ++ " AND " ++
        high)
  | list {left : String} {items : List String} (hleft : x.IsColumn left) (hne : items ≠ [])
      (hitems : ∀ item ∈ items, x.IsPlaceholder item) (negated : Bool) :
      IsComparison (left ++ (if negated then " NOT IN (" else " IN (") ++
        ", ".intercalate items ++ ")")
  | emptyList (negated : Bool) : IsComparison (if negated then "1=1" else "1=0")

/-- A condition: the one that is always true, a comparison, a group of at least one condition, or a
    test for a row of a table under a condition. -/
inductive IsCondition : String → Prop
  | everything : IsCondition "1=1"
  | comparison {text : String} (h : x.IsComparison text) : IsCondition ("(" ++ text ++ ")")
  | group (k : Connective) {texts : List String} (hne : texts ≠ [])
      (htexts : ∀ text ∈ texts, IsCondition text) :
      IsCondition ("(" ++ k.sql.intercalate texts ++ ")")
  | anyRow (negated : Bool) (e : EntityType) {condition : String}
      (hcondition : IsCondition condition) :
      IsCondition ((if negated then "(NOT EXISTS (SELECT 1 FROM " else "(EXISTS (SELECT 1 FROM ") ++
        x.table e ++ " WHERE " ++ condition ++ "))")

/-- A term of an order: a column and its direction. -/
inductive IsTerm : String → Prop
  | intro {column : String} (hcolumn : x.IsColumn column) (ascending : Bool) :
      IsTerm (column ++ (if ascending then " ASC" else " DESC"))

/-- An order, with a term at least. -/
def IsOrder (text : String) : Prop :=
  ∃ terms : List String, terms ≠ [] ∧ (∀ term ∈ terms, x.IsTerm term) ∧
    text = ", ".intercalate terms

/-- The condition of a statement, if it has one. -/
inductive IsWhere : String → Prop
  | none : IsWhere ""
  | some {condition : String} (h : x.IsCondition condition) : IsWhere (" WHERE " ++ condition)

/-- The order of a statement, if it has one. -/
inductive IsOrderBy : String → Prop
  | none : IsOrderBy ""
  | some {order : String} (h : x.IsOrder order) : IsOrderBy (" ORDER BY " ++ order)

/-- The end of a select that cuts its rows to a window. -/
inductive IsWindow : String → Prop
  | limitOffset {take skip : String} (ht : x.IsPlaceholder take) (hs : x.IsPlaceholder skip) :
      IsWindow (" LIMIT " ++ take ++ " OFFSET " ++ skip)
  | limitComma {take skip : String} (ht : x.IsPlaceholder take) (hs : x.IsPlaceholder skip) :
      IsWindow (" LIMIT " ++ skip ++ ", " ++ take)
  | offsetFetch {take skip : String} (ht : x.IsPlaceholder take) (hs : x.IsPlaceholder skip) :
      IsWindow (" OFFSET " ++ skip ++ " ROWS FETCH NEXT " ++ take ++ " ROWS ONLY")

/-- A select of these items from the table of an entity type. -/
inductive IsSelect (e : EntityType) (items : List String) : String → Prop
  /-- All rows. -/
  | whole {condition order : String} (hcondition : x.IsWhere condition)
      (horder : x.IsOrderBy order) :
      IsSelect e items ("SELECT " ++ ", ".intercalate items ++ " FROM " ++ x.table e ++ condition ++
        order)
  /-- The rows of a window. -/
  | cut {condition order window : String} (hcondition : x.IsWhere condition)
      (horder : x.IsOrder order) (hwindow : x.IsWindow window) :
      IsSelect e items ("SELECT " ++ ", ".intercalate items ++ " FROM " ++ x.table e ++ condition ++
        " ORDER BY " ++ order ++ window)
  /-- The rows of a window, by their number in the order. -/
  | numbered {condition order take skip : String} (hcondition : x.IsWhere condition)
      (horder : x.IsOrder order) (ht : x.IsPlaceholder take) (hs : x.IsPlaceholder skip) :
      IsSelect e items ("SELECT TOP(" ++ take ++
        ") [_proj].* FROM (SELECT ROW_NUMBER() OVER(ORDER BY " ++ order ++ ") AS [_row_number], " ++
        ", ".intercalate items ++ " FROM " ++ x.table e ++ condition ++
        ") [_proj] WHERE [_proj].[_row_number] > " ++ skip ++ " ORDER BY [_proj].[_row_number]")

/-- An insertion of properties, each with its column and its parameter, or the form for none. -/
inductive IsInsertion (e : EntityType) : String → Prop
  | defaults : IsInsertion e ("INSERT INTO " ++ x.table e ++ x.dialect.defaultValues)
  | cells {ps : List PropertyMapping} (hne : ps ≠ []) (hps : ∀ p ∈ ps, p ∈ (x.mapping e).columns) :
      IsInsertion e ("INSERT INTO " ++ x.table e ++ " (" ++
        ", ".intercalate (ps.map x.dialect.columnName) ++ ") VALUES (" ++
        ", ".intercalate (ps.map (Mapping.propertyPlaceholder x.dialect)) ++ ")")

/-- An update of a property at least, under a condition. -/
inductive IsUpdate (e : EntityType) : String → Prop
  | intro {ps : List PropertyMapping} {condition : String} (hne : ps ≠ [])
      (hps : ∀ p ∈ ps, p ∈ (x.mapping e).columns) (hcondition : x.IsCondition condition) :
      IsUpdate e ("UPDATE " ++ x.table e ++ " SET " ++
        ", ".intercalate (ps.map (Mapping.assignment x.dialect)) ++ " WHERE " ++ condition)

/-- A deletion under a condition. -/
inductive IsDeletion (e : EntityType) : String → Prop
  | intro {condition : String} (hcondition : x.IsCondition condition) :
      IsDeletion e ("DELETE FROM " ++ x.table e ++ " WHERE " ++ condition)

end Lexicon

/-! ## Lists of items -/

theorem Layout.fill_placeList (content : Nat → String) (i n : Nat) :
    (placeList i n).fill content = ", ".intercalate ((List.range' i n).map content) := by
  have hplace : fill content ∘ (fun j => [.place j]) = content := by
    funext j
    exact String.append_empty
  rw [placeList, fill_joined_eq_intercalate, List.map_map, hplace]

/-- The members of a group that are written are among its members, and their operands among those
    of the group. -/
theorem Predicate.exists_of_mem_memberRenderings {d : Dialect} {ms : Mappings} {l : Layout}
    {members : List Predicate} {i : Nat} (h : l ∈ memberRenderings d ms i members) :
    ∃ p ∈ members, ∃ j, l = p.rendering d ms j ∧ i ≤ j ∧
      j + p.operands.length ≤ i + (allOperands members).length := by
  induction members generalizing i with
  | nil => cases h
  | cons p ps ih =>
    rw [memberRenderings] at h
    rw [allOperands, List.length_append]
    cases hp : p.isEmpty with
    | true =>
      rw [hp, if_pos rfl] at h
      obtain ⟨q, hq, j, hl, hfrom, hto⟩ := ih h
      exact ⟨q, List.mem_cons_of_mem p hq, j, hl, hfrom, by omega⟩
    | false =>
      rw [hp, if_neg Bool.false_ne_true] at h
      rcases List.mem_cons.mp h with rfl | h
      · exact ⟨p, List.mem_cons_self, i, rfl, Nat.le_refl i, by omega⟩
      · obtain ⟨q, hq, j, hl, hfrom, hto⟩ := ih h
        exact ⟨q, List.mem_cons_of_mem p hq, j, hl, by omega, by omega⟩

namespace Lexicon

variable {x : Lexicon}

/-! ## Names -/

/-- The mappings that are answered are those of the lexicon. -/
def Knows (x : Lexicon) (ms : Mappings) : Prop := ∀ e m, ms e = .ok m → m = x.mapping e

/-- The names that operands get behind the given parameters are in the lexicon. -/
def Names (x : Lexicon) (ps : Parameters) (ops : List (String × Value)) : Prop :=
  ∀ name ∈ ps.newNames (x.dialect.bound ops), name ∈ x.names

/-- Parameters are called like the properties of an entity type with a column. -/
def NamesColumns (x : Lexicon) (e : EntityType) : Prop :=
  ∀ p ∈ (x.mapping e).columns, p.name ∈ x.names

section

variable {ms : Mappings} (hx : x.Knows ms)

include hx

theorem Knows.tableText {e : EntityType} (he : ∃ m, ms e = .ok m) :
    x.dialect.tableText ms e = x.table e := by
  obtain ⟨m, hm⟩ := he
  obtain rfl := hx e m hm
  unfold Dialect.tableText table
  rw [hm]

theorem Knows.isColumn_columnText {c : ColumnRef} (hc : ∃ y, ms.column c = .ok y) :
    x.IsColumn (x.dialect.columnText ms c) := by
  obtain ⟨⟨m, p⟩, hcolumn⟩ := hc
  obtain ⟨hm, hp, -⟩ := Mappings.column_eq_ok hcolumn
  obtain rfl := hx c.entity m hm
  refine ⟨c.entity, p, hp, ?_⟩
  unfold Dialect.columnText
  rw [hcolumn]

end

theorem Names.of_append {ps : Parameters} {ops ops' : List (String × Value)}
    (h : x.Names ps (ops ++ ops')) : x.Names ps ops := by
  intro name hname
  refine h name ?_
  rw [x.dialect.bound_append, Parameters.newNames_append]
  exact List.mem_append_left _ hname

theorem Names.isPlaceholder {ps : Parameters} {ops : List (String × Value)} (h : x.Names ps ops)
    {i : Nat} (hi : i < ops.length) : x.IsPlaceholder (x.dialect.content ps ops i) := by
  have hlt : i < (ps.newNames (x.dialect.bound ops)).length := by
    rwa [x.dialect.length_newNames_bound]
  refine ⟨_, h _ (List.getElem_mem hlt), ?_⟩
  unfold Dialect.content Dialect.placeholders
  rw [List.getD_eq_getElem?_getD, List.getElem?_eq_getElem hlt, Option.getD_some]

/-! ## Conditions -/

section

variable {ms : Mappings} {content : Nat → String} (hx : x.Knows ms)

include hx

theorem isCondition_fieldRendering (i : Nat) {c : ColumnRef} (hc : ∃ y, ms.column c = .ok y)
    (op : Operator) (negated : Bool) (v : Value)
    (hcontent : ∀ j, i ≤ j → j < i + (Predicate.fieldOperands c v).length →
      x.IsPlaceholder (content j)) :
    x.IsCondition ((Predicate.fieldRendering x.dialect ms i c op negated v).fill content) := by
  have hleft := hx.isColumn_columnText hc
  cases v with
  | null =>
    have hnothing := IsCondition.comparison (.nothing hleft negated)
    cases negated <;> simpa [Predicate.fieldRendering, String.append_assoc] using hnothing
  | list items =>
    cases items with
    | nil =>
      have hempty := IsCondition.comparison (.emptyList (x := x) negated)
      cases negated <;> exact hempty
    | cons v items =>
      have hitems : ∀ item ∈ (List.range' i (v :: items).length).map content,
          x.IsPlaceholder item := by
        intro item hitem
        obtain ⟨j, hj, rfl⟩ := List.mem_map.mp hitem
        obtain ⟨hfrom, hto⟩ := List.mem_range'_1.mp hj
        refine hcontent j hfrom ?_
        rwa [Predicate.fieldOperands, List.length_map]
      have hlist := IsCondition.comparison (.list hleft (by simp) hitems negated)
      simpa [Predicate.fieldRendering, Layout.fill_placeList, String.append_assoc] using hlist
  | _ =>
    have hright := hcontent i (Nat.le_refl i) (Nat.lt_add_one i)
    have hoperator := IsCondition.comparison (.operator hleft op negated (.inr hright))
    simpa [Predicate.fieldRendering, String.append_assoc] using hoperator

/-- What is written for a condition that can be written is one, at every depth. -/
theorem isCondition_rendering (heverything : x.dialect.everything = "1=1") (i : Nat)
    {p : Predicate} (hc : p.Compiles ms)
    (hcontent : ∀ j, i ≤ j → j < i + p.operands.length → x.IsPlaceholder (content j)) :
    x.IsCondition ((p.rendering x.dialect ms i).fill content) := by
  induction p using Predicate.treeInduction generalizing i with
  | field c op v negated => exact isCondition_fieldRendering hx i hc.1 op negated v hcontent
  | property c op other negated =>
    have hright := hx.isColumn_columnText hc.2
    have hoperator := IsCondition.comparison
      (.operator (hx.isColumn_columnText hc.1) op negated (.inl hright))
    simpa [Predicate.rendering, String.append_assoc] using hoperator
  | between c low high negated =>
    have hlow := hcontent i (Nat.le_refl i) (Nat.lt_add_of_pos_right Nat.two_pos)
    have hhigh := hcontent (i + 1) (Nat.le_add_right i 1) (Nat.lt_add_one (i + 1))
    have hrange := IsCondition.comparison
      (.range (hx.isColumn_columnText hc) hlow hhigh negated)
    simpa [Predicate.rendering, String.append_assoc] using hrange
  | group k members ih =>
    rw [Predicate.Compiles, Predicate.allCompile_iff] at hc
    rw [Predicate.rendering]
    by_cases hnone : Predicate.memberRenderings x.dialect ms i members = []
    · rw [hnone]
      change x.IsCondition (x.dialect.everything ++ "")
      rw [heverything]
      exact .everything
    · rw [Predicate.fill_groupRendering x.dialect content k hnone]
      refine .group k (by simpa using hnone) fun text htext => ?_
      obtain ⟨l, hl, rfl⟩ := List.mem_map.mp htext
      obtain ⟨p, hp, j, rfl, hfrom, hto⟩ := Predicate.exists_of_mem_memberRenderings hl
      refine ih p hp j (hc p hp) fun j' hfrom' hto' => ?_
      rw [Predicate.operands] at hcontent
      exact hcontent j' (by omega) (by omega)
  | anyRow e p negated ih =>
    have hrow := IsCondition.anyRow negated e (ih i hc.2 hcontent)
    rw [← hx.tableText hc.1] at hrow
    simpa [Predicate.rendering, String.append_assoc] using hrow

/-- What is written for a condition is one. -/
theorem isCondition_text (hd : Sql.IsReadable x.dialect) {p : Predicate} (hc : p.Compiles ms)
    {ps : Parameters} (hnames : x.Names ps p.operands) :
    x.IsCondition ((p.plan x.dialect ms).text x.dialect ps) := by
  refine isCondition_rendering hx hd.everything 0 hc fun j _ hj => ?_
  rw [Nat.zero_add] at hj
  exact hnames.isPlaceholder hj

/-- What is written for an order with a term is one. -/
theorem isOrder_of_allText? {terms : List OrderTerm} (hne : terms ≠ []) {order : String}
    (h : OrderTerm.allText? x.dialect ms terms = .ok order) : x.IsOrder order := by
  obtain ⟨⟨⟩, hchecked, rfl⟩ := map_eq_ok_iff.mp h
  unfold OrderTerm.allFragments at hchecked
  rw [Fragment.checkAll_joined_iff, List.forall_mem_map] at hchecked
  refine ⟨terms.map (OrderTerm.text x.dialect ms), by simpa using hne, fun term hterm => ?_, rfl⟩
  obtain ⟨t, ht, rfl⟩ := List.mem_map.mp hterm
  have hcolumn : (Fragment.column t.column).check ms = .ok () :=
    (Fragment.checkAll_eq_ok_iff ms _).mp (hchecked t ht) _ List.mem_cons_self
  obtain ⟨y, hy, -⟩ := map_eq_ok_iff.mp hcolumn
  exact .intro (hx.isColumn_columnText ⟨y, hy⟩) t.ascending

end

/-! ## Statements of a mapping -/

section

variable {e : EntityType} (hx : x.NamesColumns e)

include hx

theorem isCondition_keyEquation {p : PropertyMapping} (hp : p ∈ (x.mapping e).columns) :
    x.IsCondition ((x.mapping e).keyEquation x.dialect p) := by
  have hoperator := IsCondition.comparison
    (.operator ⟨e, p, hp, rfl⟩ .eq false (.inr ⟨p.name, hx p hp, rfl⟩))
  simpa [Mapping.keyEquation, Mapping.propertyPlaceholder, Operator.sql, String.append_assoc] using
    hoperator

/-- The condition on the keys is one, and there is none for an entity type without columns. -/
theorem isCondition_keyCondition {condition : String}
    (h : (x.mapping e).keyCondition x.dialect = .ok condition) :
    x.IsCondition condition ∧ (x.mapping e).columns ≠ [] := by
  have hequation : ∀ p ∈ (x.mapping e).keys,
      x.IsCondition ((x.mapping e).keyEquation x.dialect p) :=
    fun p hp => isCondition_keyEquation hx (List.mem_of_mem_filter hp)
  have hne : (x.mapping e).keys ≠ [] := by
    intro hkeys
    rw [Mapping.keyCondition, hkeys] at h
    cases h
  refine ⟨?_, fun hnil => hne (by rw [Mapping.keys, hnil, List.filter_nil])⟩
  unfold Mapping.keyCondition at h
  split at h
  · cases h
  · rename_i key hkeys
    cases h
    exact hequation key (by simp [hkeys])
  · cases h
    rw [Text.separated_map_eq " AND " fun p => by simp [Mapping.keyEquation]]
    refine .group .and (by simpa using hne) fun text htext => ?_
    obtain ⟨p, hp, rfl⟩ := List.mem_map.mp htext
    exact hequation p hp

end

variable {e : EntityType}

theorem isInsertion_insertStatement (x : Lexicon) (e : EntityType) :
    x.IsInsertion e ((x.mapping e).insertStatement x.dialect) := by
  unfold Mapping.insertStatement
  cases hps : (x.mapping e).insertable with
  | nil => exact .defaults
  | cons p ps =>
    dsimp only
    rw [Text.separated_map_eq ", " fun p => by simp [Dialect.columnName, Dialect.quote, Text.enclosed],
      Text.separated_map_eq ", " fun p => by simp [Mapping.propertyPlaceholder, Dialect.placeholder]]
    refine .cells (List.cons_ne_nil p ps) fun q hq => ?_
    rw [← hps] at hq
    exact List.mem_of_mem_filter hq

theorem isUpdate_updateStatement (hx : x.NamesColumns e) {excludeAssigned : Bool} {sql : String}
    (h : (x.mapping e).updateStatement x.dialect excludeAssigned = .ok sql) :
    x.IsUpdate e sql := by
  unfold Mapping.updateStatement at h
  cases hps : (x.mapping e).updatable excludeAssigned with
  | nil =>
    rw [hps] at h
    cases h
  | cons p ps =>
    rw [hps] at h
    obtain ⟨condition, hcondition, rfl⟩ := map_eq_ok_iff.mp h
    rw [Text.separated_map_eq ", " fun p => by simp [Mapping.assignment]]
    refine .intro (List.cons_ne_nil p ps) (fun q hq => ?_) (isCondition_keyCondition hx hcondition).1
    rw [← hps] at hq
    exact List.mem_of_mem_filter hq

theorem isDeletion_deleteStatement (hx : x.NamesColumns e) {sql : String}
    (h : (x.mapping e).deleteStatement x.dialect = .ok sql) : x.IsDeletion e sql := by
  obtain ⟨condition, hcondition, rfl⟩ := map_eq_ok_iff.mp h
  exact .intro (isCondition_keyCondition hx hcondition).1

/-! ## Selects -/

/-- The parts of a select of these items from the table of an entity type: a condition if there is
    one, and an order if there is one. -/
structure AreFilled (x : Lexicon) (e : EntityType) (items : List String) (parts : SelectParts) :
    Prop where
  /-- The table. -/
  mapping : parts.mapping = x.mapping e
  /-- The items. -/
  columns : parts.columns = ", ".intercalate items
  /-- The condition. -/
  condition : ∀ c, parts.condition = some c → x.IsCondition c
  /-- The order. -/
  order : parts.order ≠ "" → x.IsOrder parts.order

namespace AreFilled

variable {items : List String} {parts : SelectParts} (h : x.AreFilled e items parts)

include h

theorem isWhere : x.IsWhere (Dialect.whereClause parts.condition) := by
  cases hc : parts.condition with
  | none => exact .none
  | some c => exact .some (h.condition c hc)

theorem isSelect : x.IsSelect e items (x.dialect.select parts) := by
  unfold Dialect.select
  rw [h.mapping, h.columns]
  refine .whole h.isWhere ?_
  by_cases ho : parts.order = ""
  · rw [ho]
    exact .none
  · rw [if_neg (by simpa using ho)]
    exact .some (h.order ho)

/-- A select with an order ends with it, and can be cut to a window behind it. -/
theorem isSelect_cut (ho : parts.order ≠ "") {window : String} (hwindow : x.IsWindow window) :
    x.IsSelect e items (x.dialect.select parts ++ window) := by
  have hcut : x.IsSelect e items _ := .cut h.isWhere (h.order ho) hwindow
  unfold Dialect.select
  rw [if_neg (by simpa using ho), h.mapping, h.columns]
  simpa [table, String.append_assoc] using hcut

end AreFilled

/-- A select by key has a column. -/
theorem isSelect_getStatement (hx : x.NamesColumns e) {sql : String}
    (h : (x.mapping e).getStatement x.dialect (x.dialect.selectedColumns (x.mapping e)) =
      .ok sql) : x.selected e ≠ [] ∧ x.IsSelect e (x.selected e) sql := by
  obtain ⟨condition, hcondition, rfl⟩ := map_eq_ok_iff.mp h
  obtain ⟨hkeys, hcolumns⟩ := isCondition_keyCondition hx hcondition
  refine ⟨fun hnil => hcolumns (List.map_eq_nil_iff.mp hnil), AreFilled.isSelect ?_⟩
  refine ⟨rfl, x.dialect.selectedColumns_eq _, ?_, fun ho => absurd rfl ho⟩
  rintro c ⟨⟩
  exact hkeys

section

variable {v : View} {p : Option Predicate} {terms : List OrderTerm} {y : SelectPlan}
  {ps : Parameters} (hd : Sql.IsReadable x.dialect) (hx : x.Knows v.mapping)

include hd hx

/-- What is written for the condition of a select is one. -/
theorem isCondition_of_mapM {c : Option Plan}
    (hc : p.mapM (Predicate.plan? x.dialect v.mapping) = .ok c)
    (hnames : x.Names ps ((c.map (·.operands)).getD [])) {text : String}
    (htext : c.map (·.text x.dialect ps) = some text) : x.IsCondition text := by
  obtain ⟨plan, rfl, rfl⟩ := Option.map_eq_some_iff.mp htext
  cases p with
  | none => cases hc
  | some p =>
    rw [Option.mapM_some] at hc
    obtain ⟨plan', hplan, hc⟩ := map_eq_ok_iff.mp hc
    cases hc
    obtain ⟨hcompiles, rfl⟩ := (p.plan?_eq_ok_iff x.dialect v.mapping plan).mp hplan
    exact isCondition_text hx hd hcompiles hnames

theorem areFilled_parts (hcolumns : ∀ columns, v.columns e = .ok columns →
      columns = ", ".intercalate (x.selected e))
    (h : SelectPlan.of x.dialect v e p terms = .ok y) (hnames : x.Names ps y.operands) :
    x.AreFilled e (x.selected e) (y.parts x.dialect ps) := by
  unfold SelectPlan.of at h
  obtain ⟨m, hm, h⟩ := bind_eq_ok_iff.mp h
  obtain ⟨columns, hcols, h⟩ := bind_eq_ok_iff.mp h
  obtain ⟨c, hc, h⟩ := bind_eq_ok_iff.mp h
  obtain ⟨order, horder, h⟩ := bind_eq_ok_iff.mp h
  obtain rfl := Except.ok.inj h
  refine ⟨hx e m hm, hcolumns columns hcols,
    fun text htext => isCondition_of_mapM hd hx hc hnames htext, fun hne => ?_⟩
  refine isOrder_of_allText? hx (fun hnil => hne ?_) horder
  obtain ⟨-, -, rfl⟩ := map_eq_ok_iff.mp horder
  rw [hnil]
  rfl

end

/-- A window of a select has an order. -/
theorem order_ne_empty_of_ofWindow {d : Dialect} {v : View} {p : Option Predicate}
    {terms : List OrderTerm} {y : SelectPlan} (h : SelectPlan.ofWindow d v e p terms = .ok y) :
    SelectPlan.of d v e p terms = .ok y ∧ y.order ≠ "" := by
  unfold SelectPlan.ofWindow at h
  obtain ⟨m, -, h⟩ := bind_eq_ok_iff.mp h
  cases terms with
  | nil => cases h
  | cons t terms =>
    refine ⟨h, ?_⟩
    rw [SelectPlan.order_of h]
    exact OrderTerm.allText_ne_empty d v.mapping (List.cons_ne_nil t terms)

section

variable {v : View} {ps : Parameters} (hd : Sql.IsReadable x.dialect) (hx : x.Knows v.mapping)

include hd hx

/-- A window of a select is one in every form. -/
theorem isSelect_windowPlan {p : Option Predicate} {terms : List OrderTerm} {y : SelectPlan}
    (hcolumns : ∀ columns, v.columns e = .ok columns →
      columns = ", ".intercalate (x.selected e))
    (h : SelectPlan.ofWindow x.dialect v e p terms = .ok y) {skip take : UInt64} {plan : Plan}
    (hplan : y.windowPlan x.dialect skip take = .ok plan) (hnames : x.Names ps plan.operands) :
    x.IsSelect e (x.selected e) (plan.text x.dialect ps) := by
  obtain ⟨hof, ho⟩ := order_ne_empty_of_ofWindow h
  have hcomplete := SelectPlan.isComplete_of hof
  obtain ⟨ops, hops, rfl⟩ := map_eq_ok_iff.mp hplan
  have hnames : x.Names ps (y.operands ++ ops) := hnames
  have hfilled := areFilled_parts hd hx hcolumns hof hnames.of_append
  -- the bounds of the window are bound behind the operands of the condition
  have hlength : (y.operands ++ ops).length = y.operands.length + 2 := by
    rw [List.length_append, SelectPlan.length_boundOperands hops, SelectPlan.length_bounds]
  have hfirst := hnames.isPlaceholder (i := y.operands.length) (by omega)
  have hsecond := hnames.isPlaceholder (i := y.operands.length + 1) (by omega)
  have hselect := SelectPlan.fill_layout x.dialect ps hcomplete ops
  unfold Plan.text SelectPlan.windowLayout
  cases x.dialect.windowForm with
  | limitOffset =>
    dsimp only
    rw [Layout.fill_append, hselect]
    refine hfilled.isSelect_cut ho ?_
    simpa [String.append_assoc] using IsWindow.limitOffset hfirst hsecond
  | limitComma =>
    dsimp only
    rw [Layout.fill_append, hselect]
    refine hfilled.isSelect_cut ho ?_
    simpa [String.append_assoc] using IsWindow.limitComma hsecond hfirst
  | offsetFetch =>
    dsimp only
    rw [Layout.fill_append, hselect]
    refine hfilled.isSelect_cut ho ?_
    simpa [String.append_assoc] using IsWindow.offsetFetch hsecond hfirst
  | rowNumber =>
    have hmapping : y.mapping = x.mapping e := hfilled.mapping
    have hitems : y.columns = ", ".intercalate (x.selected e) := hfilled.columns
    have hnumbered : x.IsSelect e (x.selected e) _ :=
      .numbered hfilled.isWhere (hfilled.order ho) hfirst hsecond
    dsimp only
    rw [Layout.fill_append, Layout.fill_append,
      SelectPlan.fill_whereLayout x.dialect ps hcomplete ops]
    simpa [hmapping, hitems, table, String.append_assoc] using hnumbered

/-- Every selection selects the columns of its entity type. -/
theorem isSelect_plan {z : Selection}
    (hcolumns : ∀ columns, v.columns z.entity = .ok columns →
      columns = ", ".intercalate (x.selected z.entity)) {plan : Plan}
    (h : z.plan x.dialect v = .ok plan) (hnames : x.Names ps plan.operands) :
    x.IsSelect z.entity (x.selected z.entity) (plan.text x.dialect ps) := by
  unfold Selection.plan at h
  split at h
  · obtain ⟨parts, hparts, rfl⟩ := map_eq_ok_iff.mp h
    rw [SelectPlan.text_plan x.dialect ps (SelectPlan.isComplete_of hparts)]
    exact (areFilled_parts hd hx hcolumns hparts hnames).isSelect
  · unfold pagePlan at h
    split at h
    · cases h
    · obtain ⟨parts, hparts, h⟩ := bind_eq_ok_iff.mp h
      obtain ⟨skip, -, h⟩ := bind_eq_ok_iff.mp h
      exact isSelect_windowPlan hd hx hcolumns hparts h hnames
  · unfold setPlan at h
    split at h
    · cases h
    · obtain ⟨parts, hparts, h⟩ := bind_eq_ok_iff.mp h
      exact isSelect_windowPlan hd hx hcolumns hparts h hnames

theorem isSelect_countPlan {p : Option Predicate} {plan : Plan}
    (h : countPlan x.dialect v e p = .ok plan) (hnames : x.Names ps plan.operands) :
    x.IsSelect e ["COUNT(*) AS " ++ x.dialect.quote "Total"] (plan.text x.dialect ps) := by
  unfold countPlan at h
  obtain ⟨m, hm, h⟩ := bind_eq_ok_iff.mp h
  obtain ⟨c, hc, h⟩ := bind_eq_ok_iff.mp h
  obtain rfl := Except.ok.inj h
  rw [SelectPlan.text_plan x.dialect ps fun plan hplan => SelectPlan.isComplete_condition hc hplan]
  refine AreFilled.isSelect ⟨hx e m hm, String.intercalate_singleton.symm, fun text htext => ?_,
    fun ho => absurd rfl ho⟩
  exact isCondition_of_mapM hd hx hc hnames htext

theorem isDeletion_deletionPlan {p : Option Predicate} {plan : Plan}
    (h : deletionPlan x.dialect v e p = .ok plan) (hnames : x.Names ps plan.operands) :
    x.IsDeletion e (plan.text x.dialect ps) := by
  unfold deletionPlan at h
  obtain ⟨m, hm, h⟩ := bind_eq_ok_iff.mp h
  obtain rfl := hx e m hm
  cases hp : p.filter (!·.isEmpty) with
  | none =>
    rw [hp] at h
    cases h
  | some q =>
    rw [hp] at h
    obtain ⟨plan', hplan, h⟩ := bind_eq_ok_iff.mp h
    obtain rfl := Except.ok.inj h
    obtain ⟨hcompiles, rfl⟩ := (q.plan?_eq_ok_iff x.dialect v.mapping plan').mp hplan
    have hdeletion := IsDeletion.intro (e := e) (isCondition_text hx hd hcompiles hnames)
    simpa [Plan.text, table, String.append_assoc] using hdeletion

end

end Lexicon

/-! ## Answers -/

/-- What the names in a statement can be that is written with a catalog: the columns and tables of
    the definitions in force, and the parameters. -/
def Setting.lexicon (s : Setting) (c : Catalog) (names : List String) : Lexicon :=
  ⟨s.dialect, c.definitions s.model, names⟩

theorem Setting.lexicon_knows (s : Setting) (c : Catalog) (names : List String) :
    (s.lexicon c names).Knows (s.view c).mapping :=
  fun _ _ hm => eq_definitions_of_mappings hm

/-- A sound catalog answers a list with all columns of an entity. -/
theorem Catalog.IsSound.columns_eq {s : Setting} {c : Catalog} (h : c.IsSound s.dialect)
    (names : List String) {e : EntityType} {columns : String}
    (hcolumns : (s.view c).columns e = .ok columns) :
    columns = ", ".intercalate ((s.lexicon c names).selected e) := by
  rw [Work.columnLists_eq] at hcolumns
  obtain ⟨m, hm, rfl⟩ := map_eq_ok_iff.mp hcolumns
  have hlist := h.coherent.columnList (s := s) hm
  unfold Setting.columnList at hlist
  rw [hlist, Dialect.selectedColumns_eq]
  obtain rfl := Setting.eq_definitions_of_mappings hm
  rfl

/-- A statement of a mapping that is answered is the one of the definition. -/
theorem Catalog.IsSound.statement_of_keyed {s : Setting} {w w' : Workspace}
    (h : w.catalog.IsSound s.dialect) {e : EntityType} {kind : StatementKind} {sql : String}
    (hrun : Call.keyed s e kind w = .ok sql w') :
    (w.catalog.definitions s.model e).statement s.dialect
      (s.dialect.selectedColumns (w.catalog.definitions s.model e)) kind = .ok sql := by
  obtain ⟨m, hknown, rfl, hsql⟩ := Call.keyed_of_ok h hrun
  have hgrows := Call.extends_keyed s e kind w
  rw [hrun] at hgrows
  rw [Mapping.fromScratch_eq s.dialect ((h.of_grows hgrows).hasTable e _ hknown)] at hsql
  exact hsql

/-- Work that follows a plan and answers has written the plan, and its operands have got names that
    are among those of the parameters. -/
theorem Work.Follows.exists_plan {s : Setting} {work : Work String} {w w' : Workspace}
    {r : Except Error Plan} (h : Work.Follows s work w r) {text : String}
    (hrun : work w = .ok text w') :
    ∃ plan, r = .ok plan ∧ text = plan.text s.dialect w.parameters ∧
      (s.lexicon w.catalog w'.parameters.names).Names w.parameters plan.operands := by
  cases hr : r with
  | error cause =>
    obtain ⟨w₁, hw₁, -, -⟩ := h
    rw [hrun, hr] at hw₁
    cases hw₁
  | ok plan =>
    obtain ⟨htext, hparameters⟩ := h.of_ok hr hrun
    refine ⟨plan, rfl, htext, fun name hname => ?_⟩
    have hnames := congrArg Parameters.names hparameters
    rw [Plan.parameters, Parameters.names_bindAll] at hnames
    change name ∈ w'.parameters.names
    rw [hnames]
    exact List.mem_append_right _ hname

/-- No list of a statement is empty, and every keyword for a condition or an order has one behind
    it, at every depth and whatever the entity type is, but for one list: a select of rows lists the
    columns of the entity type, however many there are. Insertions have a form without columns;
    updates, deletions and selects by key fail where they would have nothing to list. The parameters
    are those that are bound, or else those called like properties of the entity type. -/
theorem statements_fill_their_lists (s : Setting) (hd : s.dialect ∈ Dialect.all.map (·.2))
    (w : Workspace) (hreached : w.catalog.IsReached s.dialect) (e : EntityType) (text : String)
    (w' : Workspace) :
    let x := s.lexicon w.catalog w'.parameters.names
    let y := s.lexicon w.catalog ((w.catalog.definitions s.model e).columns.map (·.name))
    (Work.columns s e w = .ok text w' → text = ", ".intercalate (y.selected e)) ∧
    (∀ p terms, Work.select s e p terms w = .ok text w' → x.IsSelect e (x.selected e) text) ∧
    (∀ p terms page rows, Work.selectPage s e p terms page rows w = .ok text w' →
      x.IsSelect e (x.selected e) text) ∧
    (∀ p terms first count, Work.selectSet s e p terms first count w = .ok text w' →
      x.IsSelect e (x.selected e) text) ∧
    (∀ p, Work.count s e p w = .ok text w' →
      x.IsSelect e ["COUNT(*) AS " ++ s.dialect.quote "Total"] text) ∧
    (Work.getStatement s e w = .ok text w' →
      y.selected e ≠ [] ∧ y.IsSelect e (y.selected e) text) ∧
    (Work.insertStatement s e w = .ok text w' → y.IsInsertion e text) ∧
    (∀ excludeAssigned, Work.updateStatement s e excludeAssigned w = .ok text w' →
      y.IsUpdate e text) ∧
    (Work.deleteStatement s e w = .ok text w' → y.IsDeletion e text) ∧
    ∀ p, Work.deleteWhere s e p w = .ok text w' → x.IsDeletion e text := by
  intro x y
  have hsound := hreached.isSound
  have hr : Sql.IsReadable s.dialect := Sql.isReadable_of_mem_all hd
  have hx := s.lexicon_knows w.catalog w'.parameters.names
  have hy : y.NamesColumns e := fun p hp => List.mem_map_of_mem hp
  have hselection (window : Option Window) (p : Option Predicate) (terms : List OrderTerm)
      (hrun : Work.selection s ⟨e, p, terms, window⟩ w = .ok text w') :
      x.IsSelect e (x.selected e) text := by
    obtain ⟨plan, hplan, rfl, hnames⟩ :=
      (Work.selection_follows s ⟨e, p, terms, window⟩ w).exists_plan hrun
    exact Lexicon.isSelect_plan hr hx (fun columns => hsound.columns_eq _) hplan hnames
  have hkeyed (kind : StatementKind) (hrun : Call.keyed s e kind w = .ok text w') :
      (y.mapping e).statement y.dialect (y.dialect.selectedColumns (y.mapping e)) kind =
        .ok text :=
    hsound.statement_of_keyed hrun
  refine ⟨fun hrun => ?_, fun p terms hrun => hselection none p terms hrun,
    fun p terms page rows hrun => hselection (some (.page page rows)) p terms hrun,
    fun p terms first count hrun => hselection (some (.set first count)) p terms hrun,
    fun p hrun => ?_, fun hrun => ?_, fun hrun => ?_, fun excludeAssigned hrun => ?_,
    fun hrun => ?_, fun p hrun => ?_⟩
  · obtain rfl := Except.ok.inj (hkeyed .columns hrun)
    exact y.dialect.selectedColumns_eq _
  · obtain ⟨plan, hplan, rfl, hnames⟩ := (Work.count_follows s e p w).exists_plan hrun
    exact Lexicon.isSelect_countPlan hr hx hplan hnames
  · exact Lexicon.isSelect_getStatement hy (mapError_eq_ok_iff.mp (hkeyed .get hrun))
  · obtain rfl := Except.ok.inj (hkeyed .insert hrun)
    exact y.isInsertion_insertStatement e
  · exact Lexicon.isUpdate_updateStatement hy
      (mapError_eq_ok_iff.mp (hkeyed (.update excludeAssigned) hrun))
  · exact Lexicon.isDeletion_deleteStatement hy (mapError_eq_ok_iff.mp (hkeyed .delete hrun))
  · obtain ⟨plan, hplan, rfl, hnames⟩ := (Work.deleteWhere_follows s e p w).exists_plan hrun
    exact Lexicon.isDeletion_deletionPlan hr hx hplan hnames

namespace Samples

/-- Entities without properties. -/
def bare : Setting where
  dialect := .generic
  model _ := .ofTable "t"

end Samples

/-- An entity without columns is inserted with the form for that, and a select of people by age
    has the one column there is. -/
theorem statements_fill_their_lists_bare :
    (∃ text w, Work.insertStatement Samples.bare ⟨"E0"⟩ {} = .ok text w ∧
      (Samples.bare.lexicon {} []).IsInsertion ⟨"E0"⟩ text) ∧
    ∃ text w, Work.selectPage Samples.people ⟨"Person"⟩ (some Samples.ages)
      [⟨Samples.age, true⟩] 3 4 {} = .ok text w ∧
      (Samples.people.lexicon {} w.parameters.names).IsSelect ⟨"Person"⟩
        ["[Person].[age]"] text := by
  constructor
  · obtain ⟨-, -, -, -, -, -, hinsert, -⟩ := statements_fill_their_lists Samples.bare
      List.mem_cons_self {} .empty ⟨"E0"⟩ _ _
    exact ⟨_, _, rfl, hinsert rfl⟩
  · obtain ⟨text, w, hw⟩ := (Work.selectPage_follows Samples.people ⟨"Person"⟩ (some Samples.ages)
      [⟨Samples.age, true⟩] 3 4 {}).succeeds (by decide +kernel)
    obtain ⟨-, -, hpage, -⟩ := statements_fill_their_lists Samples.people
      Samples.dialect_mem_all {} .empty ⟨"Person"⟩ text w
    have hitems : (Samples.people.lexicon {} []).selected ⟨"Person"⟩ = ["[Person].[age]"] := by
      decide +kernel
    have hselect := hpage _ _ _ _ hw
    change Lexicon.IsSelect _ _ ((Samples.people.lexicon {} []).selected ⟨"Person"⟩) text at hselect
    rw [hitems] at hselect
    exact ⟨text, w, hw, hselect⟩

/-- A select begins with its items, or with the number of rows to take. -/
theorem Lexicon.IsSelect.begins {x : Lexicon} {e : EntityType} {items : List String}
    {text : String} (h : x.IsSelect e items text) :
    (∃ rest, text = "SELECT " ++ (", ".intercalate items ++ rest)) ∨
      ∃ rest, text = "SELECT TOP(" ++ rest := by
  cases h with
  | whole | cut =>
    simp only [String.append_assoc]
    exact .inl ⟨_, rfl⟩
  | numbered =>
    simp only [String.append_assoc]
    exact .inr ⟨_, rfl⟩

/-- A list begins with its first item. -/
theorem exists_intercalate_cons (separator item : String) (items : List String) :
    ∃ rest, separator.intercalate (item :: items) = item ++ rest := by
  cases items with
  | nil => exact ⟨"", by rw [String.intercalate_singleton, String.append_empty]⟩
  | cons item' items =>
    rw [String.intercalate_cons_cons, String.append_assoc]
    exact ⟨_, rfl⟩

/-- A column in a select begins with the opening quote. -/
theorem Dialect.exists_toList_selectedColumn (d : Dialect) (m : Mapping) (p : PropertyMapping) :
    ∃ cs, (d.selectedColumn m p).toList = d.openQuote :: cs := by
  unfold selectedColumn qualifiedName tableName
  cases m.schema <;> simp [quote, Text.toList_enclosed]

/-- The select of an entity without columns has a blank where a column would have its opening
    quote, so it is no select of one column or more. -/
theorem select_of_no_columns :
    ¬ ∀ text w, Work.select Samples.bare ⟨"E0"⟩ none [] {} = .ok text w →
      ∃ (x : Lexicon) (e : EntityType) (m : Mapping) (ps : List PropertyMapping), ps ≠ [] ∧
        x.IsSelect e (ps.map (Dialect.generic.selectedColumn m)) text := by
  intro h
  obtain ⟨x, e, m, ps, hne, hselect⟩ := h "SELECT  FROM \"t\"" _ rfl
  obtain ⟨p, ps, rfl⟩ := List.exists_cons_of_ne_nil hne
  obtain ⟨cs, hcs⟩ := Dialect.generic.exists_toList_selectedColumn m p
  rcases hselect.begins with ⟨rest, htext⟩ | ⟨rest, htext⟩
  · obtain ⟨others, hitems⟩ := exists_intercalate_cons ", " (Dialect.generic.selectedColumn m p)
      (ps.map (Dialect.generic.selectedColumn m))
    rw [List.map_cons, hitems] at htext
    have hchars := congrArg String.toList htext
    rw [String.toList_append, String.toList_append, String.toList_append, hcs] at hchars
    simp [Dialect.generic] at hchars
  · have hchars := congrArg String.toList htext
    simp at hchars

end EntitySql
