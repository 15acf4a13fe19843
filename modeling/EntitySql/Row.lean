/-
  Rows and counts: what a database answers.
-/
import EntitySql.Error
import EntitySql.Text.Case

namespace EntitySql

/-- A row of a result. -/
structure Row where
  /-- The names of the columns. -/
  labels : List String
  /-- The values, in the order of the labels. -/
  values : List Value

/-- The rows of one result. -/
abbrev RowSet := List Row

namespace Row

/-- The value of a column, by its name in any case. A label without a value is a fault of the
    row. -/
def column (row : Row) (name : String) : Except Error (Option Value) :=
  match row.labels.findIdx? (Text.equalIgnoringCase · name) with
  | none => .ok none
  | some i =>
    match row.values[i]? with
    | some v => .ok (some v)
    | none => .error .shortRow

/-- The value of a column, or else the first value. -/
def columnOrFirst (row : Row) (name : String) : Except Error (Option Value) :=
  match row.column name with
  | .ok none => .ok row.values.head?
  | answer => answer

end Row

/-- How many rows a statement changed, and the identifier of the last one if it is known. -/
structure RowsAffected where
  /-- The number of rows. -/
  rows : UInt64 := 0
  /-- The identifier of the last row. -/
  lastId : Option Int64 := none
deriving DecidableEq

namespace RowsAffected

/-- Both changes one after the other. A sum that 64 bits do not hold is a fault. -/
def append (a b : RowsAffected) : Except Error RowsAffected :=
  if a.rows.toNat + b.rows.toNat < UInt64.size then
    .ok ⟨a.rows + b.rows, b.lastId.or a.lastId⟩
  else .error .countOverflow

/-- All changes one after the other, behind those before. -/
def extend (a : RowsAffected) (more : List RowsAffected) : Except Error RowsAffected :=
  more.foldlM append a

end RowsAffected

/-- One part of the answer to a statement. -/
inductive ResultItem where
  /-- A row. -/
  | row (r : Row)
  /-- A count of changed rows. -/
  | affected (n : RowsAffected)

end EntitySql
