/-
  Rows are read back.

  The list of selected columns spells one list of columns and no other (`isColumnList_unique`), and
  each of them shows the name of its property (`shown_selected`), since a label is written where
  the column is called otherwise. Names of properties differ, and a property is found by its name
  before one is found by its column, so every cell goes to the property that was selected
  (`ofLabel?_name`), whatever the columns and the ignored properties are called.

  The cells of a row are stored one after the other. A cell changes its own property only, so at
  the end every selected property holds its cell and the others are as they were
  (`ofCells_selected`, by induction on the properties that are still to come).
-/
import EntitySql.Proofs.JoinedTexts
import EntitySql.Proofs.KeyedLayout
import EntitySql.Proofs.QuotedNames
import EntitySql.Proofs.SessionRuns
import Mathlib.Data.List.Forall2

namespace EntitySql

/-! ## Lists of columns -/

theorem Text.separated_eq_intercalate (separator : String) {items : List String}
    (h : ∀ item ∈ items, item.isEmpty = false) :
    separated separator "" items = separator.intercalate items := by
  have hplaced : placed items = items := by
    refine placed_eq_self fun item hitem => ?_
    simpa using h item (List.dropLast_subset items hitem)
  rw [separated_eq, hplaced, String.empty_append]

/-- Parts with a separator between any two of them, as long as none of them is empty. -/
theorem Text.separated_map_eq {α : Type} (separator : String) {part : α → String}
    (hpart : ∀ y, (part y).isEmpty = false) (ys : List α) :
    separated separator "" (ys.map part) = separator.intercalate (ys.map part) := by
  refine separated_eq_intercalate separator fun item hitem => ?_
  obtain ⟨y, -, rfl⟩ := List.mem_map.mp hitem
  exact hpart y

/-- What the cells of the column are called in a result: the label, or else the name. -/
def ColumnName.shown (c : ColumnName) : String := c.label.getD c.column

namespace Dialect

/-- The text lists the columns. -/
def IsColumnList (d : Dialect) (text : String) (cs : List ColumnName) : Prop :=
  text = ", ".intercalate (cs.map d.spelledColumn)

/-- The columns of a select with commas between them. -/
theorem selectedColumns_eq (d : Dialect) (m : Mapping) :
    d.selectedColumns m = ", ".intercalate (m.columns.map (d.selectedColumn m)) :=
  Text.separated_map_eq ", " (fun p => by simp [selectedColumn, qualifiedName]) m.columns

theorem isColumnList_selectedColumns (d : Dialect) (m : Mapping) :
    d.IsColumnList (d.selectedColumns m) (m.columns.map fun p => .of (some m) p true) := by
  have hwritten : d.spelledColumn ∘ (fun p => ColumnName.of (some m) p true) =
      d.selectedColumn m := by
    funext p
    exact (d.writtenColumn_eq (some m) p true).symm
  unfold IsColumnList
  rw [selectedColumns_eq, List.map_map, hwritten]

/-- The columns of a list behind the first one. -/
def columnsBehind (d : Dialect) (cs : List ColumnName) : List Char :=
  cs.flatMap fun c => ',' :: ' ' :: (d.spelledColumn c).toList

theorem toList_columnList (d : Dialect) (c : ColumnName) (cs : List ColumnName) :
    (", ".intercalate ((c :: cs).map d.spelledColumn)).toList =
      (d.spelledColumn c).toList ++ d.columnsBehind cs := by
  induction cs generalizing c with
  | nil => simp [columnsBehind]
  | cons c' cs ih =>
    rw [List.map_cons, List.map_cons, String.intercalate_cons_cons, String.toList_append,
      String.toList_append, ← List.map_cons, ih]
    simp [columnsBehind]

variable {d : Dialect}

/-- What follows a column in a list does not go on with it. -/
theorem endsName_columnsBehind (hcomma : d.closeQuote ≠ ',') (cs : List ColumnName) :
    d.EndsName (d.columnsBehind cs) := by
  cases cs with
  | nil => exact d.endsName_nil
  | cons c cs =>
    refine ⟨fun h => hcomma (Option.some.inj h).symm, ?_, ?_⟩ <;> simp [columnsBehind]

theorem columnsBehind_inj (hd : d.PartsNames) (hcomma : d.closeQuote ≠ ',')
    {cs cs' : List ColumnName} (h : d.columnsBehind cs = d.columnsBehind cs') : cs = cs' := by
  induction cs generalizing cs' with
  | nil =>
    cases cs' with
    | nil => rfl
    | cons c' cs' => cases h
  | cons c cs ih =>
    cases cs' with
    | nil => cases h
    | cons c' cs' =>
      have hchars : (d.spelledColumn c).toList ++ d.columnsBehind cs =
          (d.spelledColumn c').toList ++ d.columnsBehind cs' := by
        simpa [columnsBehind] using h
      have hread := scanColumn_spelledColumn hd c (endsName_columnsBehind hcomma cs)
      rw [hchars, scanColumn_spelledColumn hd c' (endsName_columnsBehind hcomma cs')] at hread
      obtain ⟨rfl, hrest⟩ := Prod.mk.inj (Option.some.inj hread)
      rw [ih hrest.symm]

/-- No text lists two lists of columns. -/
theorem isColumnList_unique (hd : d ∈ Dialect.all.map (·.2)) {text : String}
    {cs cs' : List ColumnName} (h : d.IsColumnList text cs) (h' : d.IsColumnList text cs') :
    cs = cs' := by
  have hcomma : d.closeQuote ≠ ',' := by
    have hall : ∀ d ∈ Dialect.all.map (·.2), d.closeQuote ≠ ',' := by decide
    exact hall d hd
  have hparts := partsNames_of_mem_all hd
  have hfirst (c : ColumnName) (cs : List ColumnName) :
      ", ".intercalate ((c :: cs).map d.spelledColumn) ≠ ", ".intercalate [] := by
    intro hempty
    have hchars := congrArg String.toList hempty
    rw [toList_columnList] at hchars
    have hread := scanColumn_spelledColumn hparts c (endsName_columnsBehind hcomma cs)
    rw [hchars] at hread
    cases hread
  unfold IsColumnList at h h'
  rw [h] at h'
  cases cs with
  | nil =>
    cases cs' with
    | nil => rfl
    | cons c' cs' => exact absurd h'.symm (hfirst c' cs')
  | cons c cs =>
    cases cs' with
    | nil => exact absurd h' (hfirst c cs)
    | cons c' cs' =>
      -- a first column is told apart like the others, behind a comma of its own
      have hchars := congrArg String.toList h'
      rw [toList_columnList, toList_columnList] at hchars
      refine columnsBehind_inj hparts hcomma ?_
      change ',' :: ' ' :: (_ ++ d.columnsBehind cs) = ',' :: ' ' :: (_ ++ d.columnsBehind cs')
      rw [hchars]

end Dialect

/-! ## Labels -/

theorem ColumnName.shown_of (m : Option Mapping) (p : PropertyMapping) :
    (ColumnName.of m p true).shown = p.name := by
  unfold shown of PropertyMapping.label
  by_cases h : p.column = p.name <;> simp [h]

namespace Mapping

/-- Whether a label is the name of a property that has a column, or in any case that of the
    column. -/
def claims (m : Mapping) (label : String) : Bool :=
  m.columns.any fun p => p.name == label || Text.equalIgnoringCase p.column label

/-- A label that is not claimed belongs to no property. -/
theorem ofLabel?_of_not_claims {m : Mapping} {label : String} (h : m.claims label = false) :
    m.ofLabel? label = none := by
  unfold claims at h
  rw [List.any_eq_false] at h
  have hname : m.columns.find? (·.name == label) = none := by
    rw [List.find?_eq_none]
    intro p hp hp'
    exact h p hp (by simp [eq_of_beq hp'])
  have hcolumn : m.columns.find? (fun p => Text.equalIgnoringCase p.column label) = none := by
    rw [List.find?_eq_none]
    intro p hp hp'
    exact h p hp (by simp [hp'])
  rw [ofLabel?, hname, hcolumn]

/-- A label that is the name of a property belongs to it, whatever the columns are called. -/
theorem IsBuilt.ofLabel?_name {m : Mapping} (h : m.IsBuilt) {p : PropertyMapping}
    (hp : p ∈ m.columns) : m.ofLabel? p.name = some p := by
  rw [ofLabel?, find?_name h.nodup_columns hp]

/-- The name of an ignored property is that of no selected one. -/
theorem IsBuilt.not_mem_columns {m : Mapping} (h : m.IsBuilt) {p : PropertyMapping}
    (hp : p ∈ m.properties) (hignored : p.ignored = true) : p.name ∉ namesOf m.columns := by
  intro hname
  obtain ⟨q, hq, hqp⟩ := List.mem_map.mp hname
  obtain ⟨hq, hcolumn⟩ := List.mem_filter.mp hq
  have hfirst := find?_name h.nodup hq
  rw [show q.name = p.name from hqp, find?_name h.nodup hp] at hfirst
  obtain rfl := Option.some.inj hfirst
  rw [hignored] at hcolumn
  cases hcolumn

end Mapping

/-! ## Cells -/

/-- The labels of a row with their values. Labels without a value and values without a label are
    left out. -/
def Row.cells (row : Row) : List (String × Value) := row.labels.zip row.values

namespace Entity

variable {ε : Type} {E : Entity ε} {m : Mapping}

/-- The properties take back their own values: every entity takes a value that some entity has for
    the property, has it from then on, and has its other properties as before. -/
def TakesBack (E : Entity ε) (names : List String) : Prop :=
  ∀ (x y : ε) (n : String) (v : Value), n ∈ names → E.get? y n = some v →
    ∃ x', E.set x n v = .ok x' ∧ E.get? x' n = some v ∧
      ∀ n', n' ≠ n → E.get? x' n' = E.get? x n'

/-- One entity is the other with the ignored properties fresh. -/
structure IsReadOf (E : Entity ε) (m : Mapping) (e e' : ε) : Prop where
  /-- What has a column is the same. -/
  selected : ∀ p ∈ m.properties, p.ignored = false → E.get? e' p.name = E.get? e p.name
  /-- What has none is fresh. -/
  ignored : ∀ p ∈ m.properties, p.ignored = true → E.get? e' p.name = E.get? E.fresh p.name

/-- Cells that are not claimed have no part in the entity. -/
theorem ofCells_filter (x : ε) (cells : List (String × Value)) :
    (E.ofCells m x (cells.filter fun cell => m.claims cell.1)).2 = (E.ofCells m x cells).2 := by
  induction cells generalizing x with
  | nil => rfl
  | cons cell cells ih =>
    obtain ⟨label, v⟩ := cell
    cases hclaims : m.claims label with
    | false =>
      rw [List.filter_cons_of_neg (by simp [hclaims]), ih, ofCells,
        Mapping.ofLabel?_of_not_claims hclaims]
    | true =>
      rw [List.filter_cons_of_pos (by simp [hclaims]), ofCells, ofCells]
      cases m.ofLabel? label with
      | none => exact ih x
      | some p =>
        cases hset : E.set x p.name v with
        | error cause => simp [hset]
        | ok x' =>
          simp only [hset]
          exact ih x'

/-- The cells of selected properties are stored, each in its own property. -/
theorem ofCells_selected (hm : m.IsBuilt) (hown : E.TakesBack (Mapping.namesOf m.columns)) (e : ε)
    {ps : List PropertyMapping} (hps : ps ⊆ m.columns) (hnodup : (Mapping.namesOf ps).Nodup)
    {vs : List Value} (hvs : vs.map some = ps.map fun p => E.get? e p.name) (x : ε) :
    ∃ x', (E.ofCells m x ((Mapping.namesOf ps).zip vs)).2 = .ok x' ∧
      (∀ p ∈ ps, E.get? x' p.name = E.get? e p.name) ∧
      ∀ n, n ∉ Mapping.namesOf ps → E.get? x' n = E.get? x n := by
  induction ps generalizing vs x with
  | nil => exact ⟨x, rfl, fun p hp => absurd hp List.not_mem_nil, fun n _ => rfl⟩
  | cons p ps ih =>
    cases vs with
    | nil => cases hvs
    | cons v vs =>
      obtain ⟨hv, hvs⟩ := List.cons.inj hvs
      obtain ⟨hp, hps'⟩ := List.cons_subset.mp hps
      obtain ⟨hfront, hnodup⟩ := List.nodup_cons.mp hnodup
      obtain ⟨x₁, hx₁, hown₁, hother₁⟩ :=
        hown x e p.name v (List.mem_map_of_mem hp) hv.symm
      obtain ⟨x', hx', hsame, hother⟩ := ih hps' hnodup hvs x₁
      have hnames : Mapping.namesOf (p :: ps) = p.name :: Mapping.namesOf ps := rfl
      refine ⟨x', ?_, ?_, ?_⟩
      · rw [hnames, List.zip_cons_cons, ofCells, hm.ofLabel?_name hp]
        simp only [hx₁]
        exact hx'
      · intro q hq
        rcases List.mem_cons.mp hq with rfl | hq
        · rw [hother q.name hfront, hown₁, hv]
        · exact hsame q hq
      · intro n hn
        rw [hnames, List.mem_cons, not_or] at hn
        rw [hother n hn.2, hother₁ n hn.1]

end Entity

/-- For every dialect, every mapping that is built and every entity type whose properties take back
    their own values: the list of selected columns is one list, each cell of a row that answers it
    goes to the property whose column was selected, and the row that carries the values of an entity
    is read as that entity, with the ignored properties fresh. Cells whose label belongs to no
    property change nothing. -/
theorem rows_read_back (s : Setting) (hd : s.dialect ∈ Dialect.all.map (·.2)) {ε : Type}
    (E : Entity ε) (e : ε) {w : Workspace} (hreached : w.catalog.IsReached s.dialect) {m : Mapping}
    (hm : s.mappings w.catalog E.type = .ok m) (hbuilt : m.IsBuilt)
    (hown : E.TakesBack (Mapping.namesOf m.columns)) :
    ∃ text w' cs, Work.columns s E.type w = .ok text w' ∧
      (∀ cs', s.dialect.IsColumnList text cs' ↔ cs' = cs) ∧
      List.Forall₂ (fun c p => c.table = some m.tableName ∧ c.column = p.column ∧
        m.ofLabel? c.shown = some p) cs m.columns ∧
      (∀ row : Row, row.labels = cs.map ColumnName.shown →
        row.values.map some = (m.columns.map fun p => E.get? e p.name) →
          ∃ e', (E.ofRow m row).2 = .ok e' ∧ E.IsReadOf m e e') ∧
      ∀ row row' : Row, (row'.cells.filter fun cell => m.claims cell.1) =
          row.cells.filter (fun cell => m.claims cell.1) →
        (E.ofRow m row').2 = (E.ofRow m row).2 := by
  have hcoherent := hreached.isCoherent
  obtain ⟨w', hw', -, -⟩ := Work.yields_columns s E.type w
  rw [Setting.statement_columns hm, hcoherent.columnList hm] at hw'
  have hlist := s.dialect.isColumnList_selectedColumns m
  refine ⟨_, w', m.columns.map fun p => .of (some m) p true, hw', ?_, ?_, ?_, ?_⟩
  · intro cs'
    constructor
    · intro hcs'
      exact Dialect.isColumnList_unique hd hcs' hlist
    · rintro rfl
      exact hlist
  · rw [List.forall₂_map_left_iff, List.forall₂_same]
    intro p hp
    refine ⟨rfl, rfl, ?_⟩
    rw [ColumnName.shown_of]
    exact hbuilt.ofLabel?_name hp
  · intro row hlabels hvalues
    have hnames : row.labels = Mapping.namesOf m.columns := by
      rw [hlabels, List.map_map]
      exact List.map_congr_left fun p _ => ColumnName.shown_of _ p
    obtain ⟨e', he', hselected, hother⟩ := Entity.ofCells_selected hbuilt hown e
      (List.Subset.refl m.columns) hbuilt.nodup_columns hvalues E.fresh
    rw [← hnames] at he'
    refine ⟨e', he', ⟨fun p hp hcolumn => ?_, fun p hp hignored => ?_⟩⟩
    · exact hselected p (List.mem_filter.mpr ⟨hp, by simp [hcolumn]⟩)
    · exact hother p.name (hbuilt.not_mem_columns hp hignored)
  · intro row row' hcells
    have hrow (row : Row) : (E.ofRow m row).2 = (E.ofCells m E.fresh
        (row.cells.filter fun cell => m.claims cell.1)).2 := by
      rw [Entity.ofCells_filter]
      rfl
    rw [hrow, hrow, hcells]

/-! ## A sample -/

namespace Samples

/-- Names that are the column of another property, differ from it in case only, or are the name or
    the column of an ignored property. -/
def swapped : Mapping :=
  [{ name := "first", column := "second" }, { name := "second", column := "FIRST" },
   { name := "Note", column := "note" }, { name := "note", column := "hidden" },
   { name := "hidden", column := "Second", ignored := true },
   { name := "FIRST", column := "Note", ignored := true }].foldl Mapping.insert (.ofTable "swapped")

/-- A value for each name, of which some are properties. -/
def dictionary (names : List String) : Entity (String → Value) where
  type := ⟨"Swapped"⟩
  fresh := fun _ => .null
  get? x n := if n ∈ names then some (x n) else none
  set x n v := if n ∈ names then .ok fun n' => if n' = n then v else x n'
    else .error (.noProperty "Swapped" n)

/-- A dictionary of these properties. -/
def swappable : Entity (String → Value) :=
  dictionary ["first", "second", "Note", "note", "hidden", "FIRST"]

theorem mappings_swapped :
    Setting.mappings ⟨.mssql, fun _ => swapped⟩ ({} : Workspace).catalog swappable.type =
      .ok swapped := rfl

theorem isBuilt_swapped : swapped.IsBuilt :=
  List.foldlRecOn _ _ (.ofTable "swapped") fun _ h p _ => h.insert p

theorem takesBack_dictionary (names names' : List String) :
    (dictionary names).TakesBack names' := by
  intro x y n v _ hv
  by_cases hn : n ∈ names
  · refine ⟨fun n' => if n' = n then v else x n', if_pos hn, ?_, ?_⟩
    · simp [dictionary, hn]
    · intro n' hne
      simp [dictionary, hne]
  · rw [show (dictionary names).get? y n = none from if_neg hn] at hv
    cases hv

/-- A value for each property. -/
def notes (n : String) : Value := .text ("<" ++ n ++ ">")

/-- The row of these values. -/
def notesRow : Row where
  labels := ["first", "second", "Note", "note"]
  values := [.text "<first>", .text "<second>", .text "<Note>", .text "<note>"]

/-- The row with a cell that no property claims. -/
def notesRowWithTotal : Row where
  labels := ["first", "total", "second", "Note", "note"]
  values := [.text "<first>", .int64 9, .text "<second>", .text "<Note>", .text "<note>"]

end Samples

/-- The row is read as the values that it carries, in spite of one more cell. -/
theorem rows_read_back_swapped :
    ∃ e', (Samples.swappable.ofRow Samples.swapped Samples.notesRowWithTotal).2 = .ok e' ∧
      Samples.swappable.IsReadOf Samples.swapped Samples.notes e' := by
  obtain ⟨text, w', cs, htext, hlist, -, hread, hextra⟩ :=
    rows_read_back ⟨.mssql, fun _ => Samples.swapped⟩ (List.mem_of_getElem? (i := 4) rfl)
      Samples.swappable Samples.notes .empty Samples.mappings_swapped Samples.isBuilt_swapped
      (Samples.takesBack_dictionary _ _)
  have hcolumns : text = Dialect.mssql.selectedColumns Samples.swapped := by
    cases htext
    rfl
  rw [hcolumns] at hlist
  obtain rfl := (hlist _).mp (Dialect.mssql.isColumnList_selectedColumns Samples.swapped)
  rw [hextra Samples.notesRow Samples.notesRowWithTotal rfl]
  exact hread Samples.notesRow rfl rfl

end EntitySql
