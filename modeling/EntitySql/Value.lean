/-
  Values: what a property holds, what a statement binds and what a row answers.
-/
import EntitySql.Calendar.Basic
import EntitySql.Number.Decimal
import EntitySql.Number.IntegerText
import EntitySql.Number.Shortest
import EntitySql.Text.Quoted
import EntitySql.Uuid

namespace EntitySql

/-- A value of a database, or a list of values to compare a column with. -/
inductive Value where
  /-- No value. -/
  | null
  /-- A truth value. -/
  | boolean (b : Bool)
  /-- An integer of 32 bits. -/
  | int32 (i : Int32)
  /-- An integer of 64 bits. -/
  | int64 (i : Int64)
  /-- A binary floating point number. -/
  | float64 (x : Binary64)
  /-- A decimal number. -/
  | decimal (d : Decimal)
  /-- A text. -/
  | text (s : String)
  /-- A sequence of bytes. -/
  | bytes (bs : List UInt8)
  /-- A day. -/
  | date (d : Date)
  /-- A time of the day. -/
  | time (t : Time)
  /-- A day and a time. -/
  | timestamp (t : Timestamp)
  /-- An identifier. -/
  | uuid (u : Uuid)
  /-- Several values. -/
  | list (items : List Value)

instance : Inhabited Value := ⟨.null⟩

/-- The 64-bit integer equal to `i`, if it is in range. -/
def int64? (i : Int) : Option Int64 :=
  if -0x8000000000000000 ≤ i ∧ i < 0x8000000000000000 then some (Int64.ofInt i) else none

namespace Value

/-- Whether this is no value. -/
def isNull : Value → Bool
  | .null => true
  | _ => false

/-- Whether this is a list. -/
def isList : Value → Bool
  | .list _ => true
  | _ => false

/-- The integer that a number or the text of one holds. Whole binary numbers beyond 64 bits
    become the integer at that end of the range. -/
def asInt64 : Value → Option Int64
  | .int32 i => some i.toInt64
  | .int64 i => some i
  | .decimal d => if d.isWhole then int64? d.truncate else none
  | .float64 x =>
    x.toInt?.map fun i => Int64.ofInt (max (-0x8000000000000000) (min 0x7FFFFFFFFFFFFFFF i))
  | .text s =>
    match IntegerText.parseTrimmed s with
    | .ok i => int64? i
    | .error _ => none
  | _ => none

mutual

/-- Whether two values are equal. Numbers of one kind are compared by value. -/
def same : Value → Value → Bool
  | .null, .null => true
  | .boolean a, .boolean b => a == b
  | .int32 a, .int32 b => a == b
  | .int64 a, .int64 b => a == b
  | .float64 a, .float64 b => a.same b
  | .decimal a, .decimal b => a.same b
  | .text a, .text b => a == b
  | .bytes a, .bytes b => a == b
  | .date a, .date b => a == b
  | .time a, .time b => a == b
  | .timestamp a, .timestamp b => a == b
  | .uuid a, .uuid b => a == b
  | .list a, .list b => sameAll a b
  | _, _ => false

/-- Whether two lists hold equal values in the same order. -/
def sameAll : List Value → List Value → Bool
  | [], [] => true
  | a :: as, b :: bs => a.same b && sameAll as bs
  | _, _ => false

end

/-! ## Text -/

mutual

/-- The text of a value in messages for a reader. -/
def display : Value → String
  | .null => "NULL"
  | .boolean b => if b then "true" else "false"
  | .int32 i => toString i.toInt
  | .int64 i => toString i.toInt
  | .float64 x => x.text
  | .decimal d => d.text
  | .text s => "'" ++ s ++ "'"
  | .bytes bs => "<" ++ toString bs.length ++ " bytes>"
  | .date d => d.text
  | .time t => t.text
  | .timestamp t => t.text
  | .uuid u => u.text
  | .list items => "[" ++ ", ".intercalate (displayAll items) ++ "]"

/-- The texts of several values. -/
def displayAll : List Value → List String
  | [] => []
  | v :: vs => v.display :: displayAll vs

end

mutual

/-- The text of a value with the name of its kind. -/
def describe : Value → String
  | .null => "Null"
  | .boolean b => "Boolean(" ++ (if b then "true" else "false") ++ ")"
  | .int32 i => "Int32(" ++ toString i.toInt ++ ")"
  | .int64 i => "Int64(" ++ toString i.toInt ++ ")"
  | .float64 x => "Float64(" ++ x.fullText ++ ")"
  | .decimal d => "Decimal(" ++ d.text ++ ")"
  | .text s => "Varchar(" ++ Text.quoted s ++ ")"
  | .bytes bs => "Blob([" ++ ", ".intercalate (bs.map fun b => toString b.toNat) ++ "])"
  | .date d => "Date(" ++ d.text ++ ")"
  | .time t => "Time(" ++ t.text ++ ")"
  | .timestamp t => "Timestamp(" ++ t.text ++ ")"
  | .uuid u => "Uuid(" ++ u.text ++ ")"
  | .list items => "List([" ++ ", ".intercalate (describeAll items) ++ "])"

/-- The descriptions of several values. -/
def describeAll : List Value → List String
  | [] => []
  | v :: vs => v.describe :: describeAll vs

end

end Value

end EntitySql
