/-
  The writing of statements: those of a mapping, which are written once, and those of a
  condition, which are written at every call.
-/
import EntitySql.Clause
import EntitySql.KeyedStatements

namespace EntitySql

/-- A window of the rows of a select. -/
inductive Window where
  /-- A page, counted from one. -/
  | page (page rows : UInt64)
  /-- At most `count` rows behind the first ones. -/
  | set (first count : UInt64)
deriving DecidableEq

/-- A select of the rows of one entity. -/
structure Selection where
  /-- The entity. -/
  entity : EntityType
  /-- The condition on its rows. -/
  condition : Option Predicate := none
  /-- The order of its rows. -/
  order : List OrderTerm := []
  /-- The window of its rows. -/
  window : Option Window := none

namespace Work

/-! ## Names -/

/-- The name of the table of an entity. -/
def tableName (s : Setting) (e : EntityType) : Work String := do
  return s.dialect.tableName (← mapping s e)

/-- The qualified name of the column of a property, labeled like the property if asked for. -/
def columnName (s : Setting) (c : ColumnRef) (labeled : Bool) : Work String := do
  let m ← mapping s c.entity
  let p ← ofExcept (m.mapped c.property)
  return if labeled then s.dialect.selectedColumn m p else s.dialect.qualifiedName m p

/-- What was written, or the reason why not. -/
def written (sql : Except QueryError String) : Except Error String := sql.mapError .query

/-! ## Statements of a mapping -/

/-- The selected columns of an entity. -/
def columns (s : Setting) (e : EntityType) : Work String := do
  let m ← mapping s e
  known e .columns (.ok (s.dialect.selectedColumns m))

/-- The select of an entity by key. -/
def getStatement (s : Setting) (e : EntityType) : Work String := do
  let m ← mapping s e
  let columns ← columns s e
  known e .get (written (m.getStatement s.dialect columns))

/-- The insertion of an entity. -/
def insertStatement (s : Setting) (e : EntityType) : Work String := do
  let m ← mapping s e
  known e .insert (.ok (m.insertStatement s.dialect))

/-- The update of an entity by key. -/
def updateStatement (s : Setting) (e : EntityType) (excludeAssigned : Bool) : Work String := do
  let m ← mapping s e
  known e (.update excludeAssigned) (written (m.updateStatement s.dialect excludeAssigned))

/-- The deletion of an entity by key. -/
def deleteStatement (s : Setting) (e : EntityType) : Work String := do
  let m ← mapping s e
  known e .delete (written (m.deleteStatement s.dialect))

/-- The query of the key that the last insertion generated. -/
def identityStatement (s : Setting) (e : EntityType) : Work String := do
  let m ← mapping s e
  match m.identity? with
  | none => refuse (.unsupported (.noIdentity m.entity))
  | some _ => known e .identity (.ok s.dialect.identitySelect)

/-! ## Statements of a condition -/

/-- The text of a condition. -/
def condition (s : Setting) (p : Option Predicate) : Work (Option String) :=
  match p with
  | none => return none
  | some p => return some (← clause s p.fragments)

/-- The text of an order. -/
def order (s : Setting) (terms : List OrderTerm) : Work String :=
  clause s (OrderTerm.allFragments terms)

/-- A select. -/
def select (s : Setting) (e : EntityType) (p : Option Predicate) (terms : List OrderTerm) :
    Work String := do
  let m ← mapping s e
  let columns ← columns s e
  let condition ← condition s p
  let order ← order s terms
  return s.dialect.select { mapping := m, columns, condition, order }

/-- The parts of a windowed select, which needs an order. -/
def windowParts (s : Setting) (e : EntityType) (p : Option Predicate)
    (terms : List OrderTerm) : Work SelectParts := do
  let m ← mapping s e
  if terms.isEmpty then
    note .warn ("Refused to page `" ++ m.entity ++ "` without a sort")
    refuse (.missingSort m.entity)
  else
    let columns ← columns s e
    let condition ← condition s p
    let order ← order s terms
    return { mapping := m, columns, condition, order }

/-- The text of a draft begun with the parameters bound so far. -/
def draft (write : Dialect.Draft → Dialect.Draft × Except QueryError Unit) : Work String := fun w =>
  let d := write { text := "", parameters := w.parameters }
  match d.2 with
  | .ok _ => .ok d.1.text { w with parameters := d.1.parameters }
  | .error e => .error (.query e) { w with parameters := d.1.parameters }

/-- A select of a page, counted from one. -/
def selectPage (s : Setting) (e : EntityType) (p : Option Predicate) (terms : List OrderTerm)
    (page rows : UInt64) : Work String := do
  if page = 0 ∨ rows = 0 then refuse (.invalidWindow (.notPositive page rows))
  else
    let parts ← windowParts s e p terms
    draft (s.dialect.writePage parts page rows)

/-- A select of at most `count` rows behind the first ones. -/
def selectSet (s : Setting) (e : EntityType) (p : Option Predicate) (terms : List OrderTerm)
    (first count : UInt64) : Work String := do
  if count = 0 then refuse (.invalidWindow .noRows)
  else
    let parts ← windowParts s e p terms
    draft (s.dialect.writeSet parts first count)

/-- A count of rows, in a column called `Total`. -/
def count (s : Setting) (e : EntityType) (p : Option Predicate) : Work String := do
  let m ← mapping s e
  let condition ← condition s p
  return s.dialect.select
    { mapping := m, columns := "COUNT(*) AS " ++ s.dialect.quote "Total", condition }

/-- A deletion of rows, which needs a condition. -/
def deleteWhere (s : Setting) (e : EntityType) (p : Option Predicate) : Work String := do
  let m ← mapping s e
  match p.filter (!·.isEmpty) with
  | none =>
    note .warn ("Refused to delete from `" ++ m.entity ++ "` without a predicate")
    refuse (.emptyPredicate m.entity)
  | some p =>
    let condition ← clause s p.fragments
    return "DELETE FROM " ++ s.dialect.tableName m ++ " WHERE " ++ condition

/-- The statement of a selection. -/
def selection (s : Setting) (x : Selection) : Work String :=
  match x.window with
  | none => select s x.entity x.condition x.order
  | some (.page page rows) => selectPage s x.entity x.condition x.order page rows
  | some (.set first count) => selectSet s x.entity x.condition x.order first count

/-- The statements of several selections, which share their parameters. -/
def selections (s : Setting) : List Selection → Work (List String)
  | [] => return []
  | x :: xs => do
    let sql ← selection s x
    return sql :: (← selections s xs)

end Work

end EntitySql
