/-
  Quoted names, read back.

  Between its quotes a name is copied up to each closing quote that it holds, which is written twice
  (`Text.escaped?_eq`). Read back, it is skipped to its opening quote and read up to the first
  closing quote that stands alone. Reading accepts what quoting writes and nothing else
  (`scanQuoted_eq_some_iff`), so a name ends where its quotes end, whatever it holds. A qualified
  name is several of them with dots between them, and a label behind. It is read part by part
  (`scanTable_spelledTable`, `scanColumn_spelledColumn`), so no two qualified names have one text.
-/
import EntitySql.Proofs.Meaning

namespace EntitySql

open Sql (TableName)

/-! ## Names between quotes -/

namespace Text

/-- Scanning accepts what is between quotes and nothing else. -/
theorem scanEnclosed_eq_some_iff {closeQuote : Char} {cs name rest : List Char} :
    scanEnclosed closeQuote cs = some (name, rest) ↔
      cs = replaceEach closeQuote [closeQuote, closeQuote] name ++ closeQuote :: rest ∧
        rest.head? ≠ some closeQuote := by
  constructor
  · intro h
    fun_induction scanEnclosed closeQuote cs generalizing name with
    | case1 => cases h
    | case2 => cases h; simp
    | case3 => cases h
    | case4 rest' ih =>
      obtain ⟨r, hr, hname⟩ := Option.map_eq_some_iff.mp h
      obtain ⟨rfl, rfl⟩ := Prod.mk.inj hname
      obtain ⟨rfl, hrest⟩ := ih hr
      rw [replaceEach_cons, if_pos rfl]
      exact ⟨rfl, hrest⟩
    | case5 d rest' hd =>
      cases h
      exact ⟨rfl, fun hc => hd (Option.some.inj hc)⟩
    | case6 c d rest' hc ih =>
      obtain ⟨r, hr, hname⟩ := Option.map_eq_some_iff.mp h
      obtain ⟨rfl, rfl⟩ := Prod.mk.inj hname
      obtain ⟨hcs, hrest⟩ := ih hr
      rw [replaceEach_cons, if_neg hc, hcs]
      exact ⟨rfl, hrest⟩
  · rintro ⟨rfl, hrest⟩
    exact scanEnclosed_replaceEach closeQuote name rest hrest

/-- Reads a name between quotes. The answer is the name and what follows. -/
def scanQuoted (openQuote closeQuote : Char) : List Char → Option (String × List Char)
  | [] => none
  | c :: cs =>
    if c = openQuote then
      (scanEnclosed closeQuote cs).map fun r => (String.ofList r.1, r.2)
    else none

/-- Reading accepts a quoted name, up to where its quotes end, and nothing else. -/
theorem scanQuoted_eq_some_iff {openQuote closeQuote : Char} {cs rest : List Char}
    {name : String} :
    scanQuoted openQuote closeQuote cs = some (name, rest) ↔
      cs = (enclosed openQuote closeQuote name).toList ++ rest ∧
        rest.head? ≠ some closeQuote := by
  rw [toList_enclosed]
  cases cs with
  | nil => simp [scanQuoted]
  | cons c cs =>
    rw [scanQuoted]
    by_cases hc : c = openQuote
    · rw [if_pos hc, Option.map_eq_some_iff]
      constructor
      · rintro ⟨⟨cs', rest'⟩, hscan, hname⟩
        obtain ⟨rfl, rfl⟩ := Prod.mk.inj hname
        obtain ⟨rfl, hrest⟩ := scanEnclosed_eq_some_iff.mp hscan
        refine ⟨?_, hrest⟩
        simp [hc]
      · rintro ⟨hcs, hrest⟩
        obtain ⟨-, hcs⟩ := List.cons.inj hcs
        have hname := hcs.trans (List.append_assoc _ _ _)
        exact ⟨(name.toList, rest), scanEnclosed_eq_some_iff.mpr ⟨hname, hrest⟩, by simp⟩
    · rw [if_neg hc]
      simp [hc]

end Text

/-! ## Qualified names -/

/-- The name of a column. -/
structure ColumnName where
  /-- The table, if the column stands behind it. -/
  table : Option TableName
  /-- The column. -/
  column : String
  /-- What the column is called in the result, if it is called otherwise. -/
  label : Option String
deriving DecidableEq

/-- The label of the column of a property: the name of the property, if asked for and if the column
    is called otherwise. -/
def PropertyMapping.label (p : PropertyMapping) (labeled : Bool) : Option String :=
  if labeled = true ∧ p.column ≠ p.name then some p.name else none

/-- The name of the column of a property, behind its table if that is given, and labeled if asked
    for. -/
def ColumnName.of (m : Option Mapping) (p : PropertyMapping) (labeled : Bool) : ColumnName :=
  ⟨m.map Mapping.tableName, p.column, p.label labeled⟩

namespace Dialect

/-- How the column of a property is written, behind its table if that is given, and labeled if
    asked for. -/
def writtenColumn (d : Dialect) : Option Mapping → PropertyMapping → Bool → String
  | none, p, false => d.columnName p
  | none, p, true => d.columnName p ++ d.columnAlias p
  | some m, p, false => d.qualifiedName m p
  | some m, p, true => d.selectedColumn m p

/-! ## Reading -/

/-- Reads a name between the quotes of the dialect. -/
def scanName (d : Dialect) (cs : List Char) : Option (String × List Char) :=
  Text.scanQuoted d.openQuote d.closeQuote cs

/-- Reads names with dots between them, at most as many as told. -/
def scanPath (d : Dialect) : Nat → List Char → Option (List String × List Char)
  | 0, _ => none
  | limit + 1, cs =>
    match d.scanName cs with
    | none => none
    | some (name, '.' :: rest) => (scanPath d limit rest).map fun r => (name :: r.1, r.2)
    | some (name, rest) => some ([name], rest)

/-- Reads the name of a table. -/
def scanTable (d : Dialect) (cs : List Char) : Option (TableName × List Char) :=
  match d.scanPath 2 cs with
  | some ([table], rest) => some (⟨none, table⟩, rest)
  | some ([schema, table], rest) => some (⟨some schema, table⟩, rest)
  | _ => none

/-- Reads the label of a column, if there is one. -/
def scanLabel (d : Dialect) : List Char → Option (Option String × List Char)
  | ' ' :: 'A' :: 'S' :: ' ' :: behind => (d.scanName behind).map fun r => (some r.1, r.2)
  | cs => some (none, cs)

/-- Reads the name of a column, with the table in front of it and the label behind it. -/
def scanColumn (d : Dialect) (cs : List Char) : Option (ColumnName × List Char) := do
  let (path, rest) ← d.scanPath 3 cs
  let (label, rest) ← d.scanLabel rest
  match path with
  | [column] => return (⟨none, column, label⟩, rest)
  | [table, column] => return (⟨some ⟨none, table⟩, column, label⟩, rest)
  | [schema, table, column] => return (⟨some ⟨some schema, table⟩, column, label⟩, rest)
  | _ => none

/-- The text goes on with nothing that a qualified name could go on with. -/
structure EndsName (d : Dialect) (rest : List Char) : Prop where
  /-- Not with the closing quote. -/
  quote : rest.head? ≠ some d.closeQuote
  /-- Not with the dot in front of another name. -/
  dot : rest.head? ≠ some '.'
  /-- Not with a label. -/
  label : ¬ [' ', 'A', 'S', ' '] <+: rest

/-- Quotes that are told apart from what stands between names. -/
structure PartsNames (d : Dialect) : Prop where
  /-- From the dot. -/
  dot : d.closeQuote ≠ '.'
  /-- From the blank in front of a label. -/
  blank : d.closeQuote ≠ ' '

theorem partsNames_of_mem_all {d : Dialect} (h : d ∈ all.map (·.2)) : d.PartsNames := by
  simp only [all, List.map_cons, List.map_nil, List.mem_cons, List.not_mem_nil, or_false] at h
  rcases h with rfl | rfl | rfl | rfl | rfl | rfl <;> exact ⟨by decide, by decide⟩

theorem endsName_nil (d : Dialect) : d.EndsName [] := by
  refine ⟨?_, ?_, ?_⟩ <;> simp

variable {d : Dialect} {rest : List Char}

theorem scanName_quote (name : String) (h : rest.head? ≠ some d.closeQuote) :
    d.scanName ((d.quote name).toList ++ rest) = some (name, rest) :=
  Text.scanQuoted_eq_some_iff.mpr ⟨rfl, h⟩

/-- The last name of a path. -/
theorem scanPath_quote (limit : Nat) (name : String) (hquote : rest.head? ≠ some d.closeQuote)
    (hdot : rest.head? ≠ some '.') :
    d.scanPath (limit + 1) ((d.quote name).toList ++ rest) = some ([name], rest) := by
  unfold scanPath
  rw [scanName_quote name hquote]
  split
  · next h => cases h
  · next h =>
    cases h
    exact absurd rfl hdot
  · next h => cases h; rfl

/-- A name of a path in front of others. -/
theorem scanPath_quote_dot (hd : d.PartsNames) (limit : Nat) (name : String) (rest : List Char) :
    d.scanPath (limit + 1) ((d.quote name).toList ++ '.' :: rest) =
      (d.scanPath limit rest).map fun r => (name :: r.1, r.2) := by
  have hquote : ('.' :: rest).head? ≠ some d.closeQuote := fun h => hd.dot (Option.some.inj h).symm
  rw [scanPath, scanName_quote name hquote]
  rfl

/-! ## Spelling -/

/-- How the name of a table is spelled. -/
def spelledTable (d : Dialect) (t : TableName) : String :=
  (match t.schema with
   | some schema => d.quote schema ++ "."
   | none => "") ++ d.quote t.table

/-- How the label behind a column is spelled. -/
def spelledLabel (d : Dialect) : Option String → String
  | none => ""
  | some label => " AS " ++ d.quote label

/-- How the name of a column is spelled. -/
def spelledColumn (d : Dialect) (c : ColumnName) : String :=
  (match c.table with
   | some table => d.spelledTable table ++ "."
   | none => "") ++ d.quote c.column ++ d.spelledLabel c.label

theorem tableName_eq (d : Dialect) (m : Mapping) : d.tableName m = d.spelledTable m.tableName := rfl

theorem columnAlias_eq (d : Dialect) (p : PropertyMapping) :
    d.columnAlias p = d.spelledLabel (p.label true) := by
  unfold PropertyMapping.label columnAlias
  by_cases hname : p.column = p.name <;> simp [hname, spelledLabel]

theorem writtenColumn_eq (d : Dialect) (m : Option Mapping) (p : PropertyMapping)
    (labeled : Bool) : d.writtenColumn m p labeled = d.spelledColumn (.of m p labeled) := by
  have hunlabeled : d.spelledLabel (p.label false) = "" := by
    simp [PropertyMapping.label, spelledLabel]
  unfold spelledColumn ColumnName.of
  cases m <;> cases labeled <;>
    simp [writtenColumn, selectedColumn, qualifiedName, columnName, tableName_eq, columnAlias_eq,
      hunlabeled, String.append_assoc]

/-! ## Spelling and reading -/

theorem scanTable_spelledTable (hd : d.PartsNames) (t : TableName) (h : d.EndsName rest) :
    d.scanTable ((d.spelledTable t).toList ++ rest) = some (t, rest) := by
  rcases t with ⟨schema, table⟩
  unfold scanTable spelledTable
  cases schema with
  | none =>
    have htext : ("" ++ d.quote table).toList ++ rest = (d.quote table).toList ++ rest := by simp
    dsimp only
    rw [htext, scanPath_quote _ _ h.quote h.dot]
  | some schema =>
    have htext : (d.quote schema ++ "." ++ d.quote table).toList ++ rest =
        (d.quote schema).toList ++ '.' :: ((d.quote table).toList ++ rest) := by simp
    dsimp only
    rw [htext, scanPath_quote_dot hd, scanPath_quote _ _ h.quote h.dot]
    rfl

/-- A label does not go on like a name, and is read back. -/
theorem scanLabel_spelledLabel (hd : d.PartsNames) (label : Option String) (h : d.EndsName rest) :
    ((d.spelledLabel label).toList ++ rest).head? ≠ some d.closeQuote ∧
    ((d.spelledLabel label).toList ++ rest).head? ≠ some '.' ∧
    d.scanLabel ((d.spelledLabel label).toList ++ rest) = some (label, rest) := by
  cases label with
  | none =>
    refine ⟨h.quote, h.dot, ?_⟩
    change d.scanLabel rest = _
    unfold scanLabel
    split
    · next behind => exact absurd ⟨behind, rfl⟩ h.label
    · rfl
  | some label =>
    have htext : (d.spelledLabel (some label)).toList ++ rest =
        ' ' :: 'A' :: 'S' :: ' ' :: ((d.quote label).toList ++ rest) := by
      simp [spelledLabel]
    rw [htext]
    refine ⟨fun hc => hd.blank (Option.some.inj hc).symm, by simp, ?_⟩
    rw [scanLabel, scanName_quote label h.quote]
    rfl

theorem scanColumn_spelledColumn (hd : d.PartsNames) (c : ColumnName) (h : d.EndsName rest) :
    d.scanColumn ((d.spelledColumn c).toList ++ rest) = some (c, rest) := by
  rcases c with ⟨table, column, label⟩
  obtain ⟨hquote, hdot, hlabel⟩ := scanLabel_spelledLabel hd label h
  -- the column stands in front of the label, and names may stand in front of the column
  generalize htail : (d.spelledLabel label).toList ++ rest = tail at hquote hdot hlabel
  have hcolumn (limit : Nat) : d.scanPath (limit + 1) ((d.quote column).toList ++ tail) =
      some ([column], tail) := scanPath_quote limit column hquote hdot
  unfold scanColumn spelledColumn
  rcases table with - | ⟨- | schema, table⟩
  · have htext : ("" ++ d.quote column ++ d.spelledLabel label).toList ++ rest =
        (d.quote column).toList ++ tail := by simp [← htail]
    dsimp only
    rw [htext, hcolumn]
    simp [hlabel]
  · have htext :
        (d.spelledTable ⟨none, table⟩ ++ "." ++ d.quote column ++ d.spelledLabel label).toList ++
          rest = (d.quote table).toList ++ '.' :: ((d.quote column).toList ++ tail) := by
      simp [spelledTable, ← htail]
    dsimp only
    rw [htext, scanPath_quote_dot hd, hcolumn]
    simp [hlabel]
  · have htext :
        (d.spelledTable ⟨some schema, table⟩ ++ "." ++ d.quote column ++
          d.spelledLabel label).toList ++ rest =
        (d.quote schema).toList ++ '.' ::
          ((d.quote table).toList ++ '.' :: ((d.quote column).toList ++ tail)) := by
      simp [spelledTable, ← htail]
    dsimp only
    rw [htext, scanPath_quote_dot hd, scanPath_quote_dot hd, hcolumn]
    simp [hlabel]

theorem spelledTable_inj (hd : d.PartsNames) {t t' : TableName} :
    d.spelledTable t = d.spelledTable t' ↔ t = t' := by
  refine ⟨fun h => ?_, fun h => by rw [h]⟩
  have hread := scanTable_spelledTable hd t d.endsName_nil
  rw [h, scanTable_spelledTable hd t' d.endsName_nil] at hread
  exact (Prod.mk.inj (Option.some.inj hread)).1.symm

theorem spelledColumn_inj (hd : d.PartsNames) {c c' : ColumnName} :
    d.spelledColumn c = d.spelledColumn c' ↔ c = c' := by
  refine ⟨fun h => ?_, fun h => by rw [h]⟩
  have hread := scanColumn_spelledColumn hd c d.endsName_nil
  rw [h, scanColumn_spelledColumn hd c' d.endsName_nil] at hread
  exact (Prod.mk.inj (Option.some.inj hread)).1.symm

end Dialect

/-- Escaping any text for any character cuts it between characters only, and leaves it with each of
    these characters replaced. Reading is exact: a quoted name is read back to itself and nothing
    else is read, for any quotes and any name. In every dialect the name of a table is read back to
    its schema and its table, and the name of a column to its table, its column and its label, so
    different qualified names have different texts. -/
theorem quoted_names_read_back :
    (∀ (s : String) (search : Char) (replacement : String),
      Text.escaped? s search replacement =
        some (.ofList (Text.replaceEach search replacement.toList s.toList))) ∧
    (∀ (openQuote closeQuote : Char) (cs rest : List Char) (name : String),
      Text.scanQuoted openQuote closeQuote cs = some (name, rest) ↔
        cs = (Text.enclosed openQuote closeQuote name).toList ++ rest ∧
          rest.head? ≠ some closeQuote) ∧
    ∀ d ∈ Dialect.all.map (·.2),
      (∀ m rest, d.EndsName rest →
        d.scanTable ((d.tableName m).toList ++ rest) = some (m.tableName, rest)) ∧
      (∀ m p labeled rest, d.EndsName rest →
        d.scanColumn ((d.writtenColumn m p labeled).toList ++ rest) =
          some (.of m p labeled, rest)) ∧
      (∀ m m', d.tableName m = d.tableName m' ↔ m.tableName = m'.tableName) ∧
      ∀ m p labeled m' p' labeled',
        d.writtenColumn m p labeled = d.writtenColumn m' p' labeled' ↔
          ColumnName.of m p labeled = .of m' p' labeled' := by
  refine ⟨Text.escaped?_eq, fun _ _ _ _ _ => Text.scanQuoted_eq_some_iff, fun d hd => ?_⟩
  have hparts := Dialect.partsNames_of_mem_all hd
  refine ⟨fun m rest h => ?_, fun m p labeled rest h => ?_, fun m m' => ?_,
    fun m p labeled m' p' labeled' => ?_⟩
  · rw [d.tableName_eq]
    exact Dialect.scanTable_spelledTable hparts _ h
  · rw [d.writtenColumn_eq]
    exact Dialect.scanColumn_spelledColumn hparts _ h
  · rw [d.tableName_eq, d.tableName_eq]
    exact Dialect.spelledTable_inj hparts
  · rw [d.writtenColumn_eq, d.writtenColumn_eq]
    exact Dialect.spelledColumn_inj hparts

/-! ## A sample -/

namespace Samples

/-- A table whose names hold quotes, dots and what stands in front of a label. -/
def brackets : Mapping := { Mapping.ofTable "x].[y" with schema := some "a.b]" }

/-- A column that ends with a closing quote. -/
def bracketColumn : PropertyMapping := { name := "c AS [d]", column := "c]" }

end Samples

/-- The names are written between quotes and read back, in front of a comparison. -/
theorem quoted_names_read_back_brackets :
    Dialect.mssql.writtenColumn (some Samples.brackets) Samples.bracketColumn true =
      "[a.b]]].[x]].[y].[c]]] AS [c AS [d]]]" ∧
    Dialect.mssql.EndsName [' ', '='] ∧
    Dialect.mssql.scanColumn
        ("[a.b]]].[x]].[y].[c]]] AS [c AS [d]]]".toList ++ [' ', '=']) =
      some (⟨some ⟨some "a.b]", "x].[y"⟩, "c]", some "c AS [d]"⟩, [' ', '=']) := by
  have htext : Dialect.mssql.writtenColumn (some Samples.brackets) Samples.bracketColumn true =
      "[a.b]]].[x]].[y].[c]]] AS [c AS [d]]]" := by decide +kernel
  have hends : Dialect.mssql.EndsName [' ', '='] := ⟨by decide, by decide, by decide⟩
  obtain ⟨-, -, hread⟩ := quoted_names_read_back
  obtain ⟨-, hcolumn, -, -⟩ := hread .mssql (List.mem_of_getElem? (i := 4) rfl)
  have hsample := hcolumn (some Samples.brackets) Samples.bracketColumn true [' ', '='] hends
  rw [htext] at hsample
  exact ⟨htext, hends, hsample⟩

end EntitySql
