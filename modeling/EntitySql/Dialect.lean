/-
  Dialects: how a database spells names, parameters and windows of rows.
-/
import EntitySql.Mapping
import EntitySql.Parameters
import EntitySql.Text.Escaped
import EntitySql.Text.Separated

namespace EntitySql

/-- How a select is cut down to a window of its rows. -/
inductive WindowForm where
  /-- `LIMIT take OFFSET skip`. -/
  | limitOffset
  /-- `LIMIT skip, take`. -/
  | limitComma
  /-- `OFFSET skip ROWS FETCH NEXT take ROWS ONLY`. -/
  | offsetFetch
  /-- Rows numbered in a derived table, cut by `TOP` and the number. -/
  | rowNumber
deriving DecidableEq

/-- The spelling of one database. -/
structure Dialect where
  /-- The name of the dialect. -/
  name : String
  /-- The quote in front of a name. -/
  openQuote : Char := '"'
  /-- The quote behind a name. -/
  closeQuote : Char := '"'
  /-- The mark in front of the name of a parameter. -/
  parameterMark : Char := '@'
  /-- What stands between the statements of a batch. -/
  separator : String := ";\n"
  /-- Whether several statements can be sent at once. -/
  batches : Bool := true
  /-- A condition that is always true. -/
  everything : String := "1=1"
  /-- The value that is bound for a value, where the database stores some in another form. -/
  bindValue : Value → Value := id
  /-- The query of the key generated last, up to the name of its column. -/
  identityQuery : String := "SELECT LASTVAL() AS "
  /-- The end of an insertion that lists no column. -/
  defaultValues : String := " DEFAULT VALUES"
  /-- How windows are cut. -/
  windowForm : WindowForm := .limitOffset

/-- The parts of a select. -/
structure SelectParts where
  /-- The mapping of the table. -/
  mapping : Mapping
  /-- The columns, written out. -/
  columns : String
  /-- The condition, written out. -/
  condition : Option String := none
  /-- The order, written out; empty when there is none. -/
  order : String := ""

/-- A piece of a windowed select. -/
inductive WindowPiece where
  /-- Fixed text. -/
  | text (s : String)
  /-- A bound of the window, bound as a parameter. -/
  | bound (base : String) (n : UInt64)
deriving DecidableEq

namespace Dialect

/-! ## Dialects of databases -/

mutual

/-- A value with every identifier in it replaced by its text. -/
def uuidsAsText : Value → Value
  | .uuid u => .text u.text
  | .list items => .list (allUuidsAsText items)
  | v => v

/-- Several values with every identifier in them replaced by its text. -/
def allUuidsAsText : List Value → List Value
  | [] => []
  | v :: vs => uuidsAsText v :: allUuidsAsText vs

end

/-- The standard, as far as there is one. -/
def generic : Dialect := { name := "generic" }

/-- PostgreSQL. -/
def postgres : Dialect := { name := "postgres" }

/-- SQLite, which has no type for identifiers. -/
def sqlite : Dialect where
  name := "sqlite"
  bindValue := uuidsAsText
  identityQuery := "SELECT LAST_INSERT_ROWID() AS "

/-- MySQL, whose connections take one statement at a time. -/
def mysql : Dialect where
  name := "mysql"
  openQuote := '\x60'
  closeQuote := '\x60'
  batches := false
  bindValue := uuidsAsText
  identityQuery := "SELECT CONVERT(LAST_INSERT_ID(), SIGNED INTEGER) AS "
  defaultValues := " () VALUES ()"
  windowForm := .limitComma

/-- SQL Server. -/
def mssql : Dialect where
  name := "mssql"
  openQuote := '['
  closeQuote := ']'
  identityQuery := "SELECT CAST(SCOPE_IDENTITY() AS BIGINT) AS "
  windowForm := .offsetFetch

/-- SQL Server before windows were part of its orders. -/
def mssqlRowNumber : Dialect := { mssql with windowForm := .rowNumber }

/-- The dialects by name. -/
def all : List (String × Dialect) :=
  [("generic", generic), ("postgres", postgres), ("sqlite", sqlite), ("mysql", mysql),
   ("mssql", mssql), ("mssql_row_number", mssqlRowNumber)]

/-! ## Names -/

/-- A name between quotes. -/
def quote (d : Dialect) (name : String) : String := Text.enclosed d.openQuote d.closeQuote name

/-- The name of a table, behind its schema. -/
def tableName (d : Dialect) (m : Mapping) : String :=
  (match m.schema with
   | some s => d.quote s ++ "."
   | none => "") ++ d.quote m.table

/-- The name of a column. -/
def columnName (d : Dialect) (p : PropertyMapping) : String := d.quote p.column

/-- The name of a column behind that of its table. -/
def qualifiedName (d : Dialect) (m : Mapping) (p : PropertyMapping) : String :=
  d.tableName m ++ "." ++ d.columnName p

/-- The name that a selected column gets, when it is not that of the property. -/
def columnAlias (d : Dialect) (p : PropertyMapping) : String :=
  if p.column = p.name then "" else " AS " ++ d.quote p.name

/-- A selected column, labeled like its property. -/
def selectedColumn (d : Dialect) (m : Mapping) (p : PropertyMapping) : String :=
  d.qualifiedName m p ++ d.columnAlias p

/-- The columns of a mapping, labeled like the properties. -/
def selectedColumns (d : Dialect) (m : Mapping) : String :=
  Text.separated ", " "" (m.columns.map (d.selectedColumn m))

/-! ## Parameters -/

/-- The text that stands for a parameter. -/
def placeholder (d : Dialect) (name : String) : String := d.parameterMark.toString ++ name

/-- The text that stands for the next parameter with a base, and the parameters with it. -/
def bindParameter (d : Dialect) (ps : Parameters) (base : String) (v : Value) :
    String × Parameters :=
  (d.placeholder (ps.freshName base), ps.bind base (d.bindValue v))

/-! ## Selects -/

/-- The query of the key generated last, in a column called `Id`. -/
def identitySelect (d : Dialect) : String := d.identityQuery ++ d.quote "Id"

/-- The condition of a select. -/
def whereClause (condition : Option String) : String :=
  match condition with
  | some c => " WHERE " ++ c
  | none => ""

/-- A select. -/
def select (d : Dialect) (parts : SelectParts) : String :=
  "SELECT " ++ parts.columns ++ " FROM " ++ d.tableName parts.mapping ++
    whereClause parts.condition ++
    (if parts.order.isEmpty then "" else " ORDER BY " ++ parts.order)

/-- The base of the parameter that tells how many rows to leave out. -/
def skipBase : String := "_skip"

/-- The base of the parameter that tells how many rows to take. -/
def takeBase : String := "_take"

/-- The pieces of a select of at most `take` rows behind the first `skip`. -/
def window (d : Dialect) (parts : SelectParts) (skip take : UInt64) : List WindowPiece :=
  match d.windowForm with
  | .limitOffset =>
    [.text (d.select parts), .text " LIMIT ", .bound takeBase take, .text " OFFSET ",
     .bound skipBase skip]
  | .limitComma =>
    [.text (d.select parts), .text " LIMIT ", .bound skipBase skip, .text ", ",
     .bound takeBase take]
  | .offsetFetch =>
    [.text (d.select parts), .text " OFFSET ", .bound skipBase skip,
     .text " ROWS FETCH NEXT ", .bound takeBase take, .text " ROWS ONLY"]
  | .rowNumber =>
    [.text "SELECT TOP(", .bound takeBase take,
     .text ") [_proj].* FROM (SELECT ROW_NUMBER() OVER(ORDER BY ", .text parts.order,
     .text ") AS [_row_number], ", .text parts.columns, .text " FROM ",
     .text (d.tableName parts.mapping), .text (whereClause parts.condition),
     .text ") [_proj] WHERE [_proj].[_row_number] > ", .bound skipBase skip,
     .text " ORDER BY [_proj].[_row_number]"]

/-- The value of a bound, if it has a signed form of 64 bits. -/
def windowValue (n : UInt64) : Except QueryError Value :=
  if n.toNat < 0x8000000000000000 then .ok (.int64 (Int64.ofNat n.toNat))
  else .error (.invalidWindow (.tooWide n))

/-- Text written so far and the parameters it names. -/
structure Draft where
  /-- The text. -/
  text : String := ""
  /-- The parameters. -/
  parameters : Parameters := {}

/-- Writes the pieces of a window up to the first bound that cannot be bound. -/
def writeWindow (d : Dialect) : List WindowPiece → Draft → Draft × Except QueryError Unit
  | [], draft => (draft, .ok ())
  | .text s :: pieces, draft => writeWindow d pieces { draft with text := draft.text ++ s }
  | .bound base n :: pieces, draft =>
    match windowValue n with
    | .ok v =>
      let bound := d.bindParameter draft.parameters base v
      writeWindow d pieces ⟨draft.text ++ bound.1, bound.2⟩
    | .error e => (draft, .error e)

/-- Writes a select of at most `take` rows behind the first `skip`. -/
def writeSet (d : Dialect) (parts : SelectParts) (skip take : UInt64) (draft : Draft) :
    Draft × Except QueryError Unit :=
  d.writeWindow (d.window parts skip take) draft

/-- The number of rows in front of a page, counted from one. -/
def pageStart (page rows : UInt64) : Except QueryError UInt64 :=
  if 1 ≤ page.toNat ∧ (page.toNat - 1) * rows.toNat < UInt64.size then
    .ok (UInt64.ofNat ((page.toNat - 1) * rows.toNat))
  else .error (.invalidWindow (.outOfRange page rows))

/-- Writes a select of a page, counted from one. -/
def writePage (d : Dialect) (parts : SelectParts) (page rows : UInt64) (draft : Draft) :
    Draft × Except QueryError Unit :=
  match pageStart page rows with
  | .ok skip => d.writeSet parts skip rows draft
  | .error e => (draft, .error e)

end Dialect

end EntitySql
