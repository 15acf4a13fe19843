/-
  The types of properties, and the values that each of them stores.
-/
import EntitySql.Value

namespace EntitySql

/-- Integers of a fixed width. -/
inductive IntegerType where
  | int8 | int16 | int32 | int64 | uint8 | uint16 | uint32
deriving DecidableEq

namespace IntegerType

/-- The least integer of the type. -/
def least : IntegerType → Int
  | .int8 => -0x80
  | .int16 => -0x8000
  | .int32 => -0x80000000
  | .int64 => -0x8000000000000000
  | .uint8 | .uint16 | .uint32 => 0

/-- The greatest integer of the type. -/
def greatest : IntegerType → Int
  | .int8 => 0x7F
  | .int16 => 0x7FFF
  | .int32 => 0x7FFFFFFF
  | .int64 => 0x7FFFFFFFFFFFFFFF
  | .uint8 => 0xFF
  | .uint16 => 0xFFFF
  | .uint32 => 0xFFFFFFFF

/-- Whether the type needs a value of 64 bits. -/
def isWide : IntegerType → Bool
  | .int64 | .uint32 => true
  | _ => false

/-- The name of the type in messages. -/
def label : IntegerType → String
  | .int8 => "i8"
  | .int16 => "i16"
  | .int32 => "i32"
  | .int64 => "i64"
  | .uint8 => "u8"
  | .uint16 => "u16"
  | .uint32 => "u32"

/-- The integers of the type. -/
abbrev Range (t : IntegerType) : Type := { i : Int // t.least ≤ i ∧ i ≤ t.greatest }

theorem int64_bounds (t : IntegerType) :
    -0x8000000000000000 ≤ t.least ∧ t.greatest ≤ 0x7FFFFFFFFFFFFFFF := by
  cases t <;> decide

theorem int32_bounds {t : IntegerType} (h : t.isWide = false) :
    -0x80000000 ≤ t.least ∧ t.greatest ≤ 0x7FFFFFFF := by
  cases t with
  | int64 => cases h
  | uint32 => cases h
  | _ => decide

end IntegerType

/-- The type of a property. -/
inductive ValueType where
  /-- Integers of a fixed width. -/
  | integer (t : IntegerType)
  /-- Truth values. -/
  | boolean
  /-- Binary floating point numbers. -/
  | float64
  /-- Decimal numbers. -/
  | decimal
  /-- Texts. -/
  | text
  /-- Texts that may be shared; they differ from other texts by name only. -/
  | sharedText
  /-- Sequences of bytes. -/
  | bytes
  /-- Identifiers. -/
  | uuid
  /-- Days. -/
  | date
  /-- Times of the day. -/
  | time
  /-- Days with a time. -/
  | timestamp
  /-- Values of a type, or none. -/
  | option (t : ValueType)
  /-- Lists of values of a type. -/
  | list (t : ValueType)
deriving DecidableEq

namespace ValueType

/-- The name of the type in messages. -/
def label : ValueType → String
  | .integer t => t.label
  | .boolean => "bool"
  | .float64 => "f64"
  | .decimal => "rust_decimal::decimal::Decimal"
  | .text => "alloc::string::String"
  | .sharedText => "alloc::borrow::Cow<'_, str>"
  | .bytes => "alloc::boxed::Box<[u8]>"
  | .uuid => "uuid::Uuid"
  | .date => "time::date::Date"
  | .time => "time::time::Time"
  | .timestamp => "time::plain_date_time::PlainDateTime"
  | .option t => "core::option::Option<" ++ t.label ++ ">"
  | .list t => "alloc::vec::Vec<" ++ t.label ++ ">"

/-- What a property of the type holds. -/
def Carrier : ValueType → Type
  | .integer t => t.Range
  | .boolean => Bool
  | .float64 => Binary64
  | .decimal => Decimal
  | .text => String
  | .sharedText => String
  | .bytes => List UInt8
  | .uuid => Uuid
  | .date => Date
  | .time => Time
  | .timestamp => Timestamp
  | .option t => Option t.Carrier
  | .list t => List t.Carrier

/-- The value that stands for what a property holds. -/
def toValue : (t : ValueType) → t.Carrier → Value
  | .integer t, i => if t.isWide then .int64 (Int64.ofInt i.val) else .int32 (Int32.ofInt i.val)
  | .boolean, b => .boolean b
  | .float64, x => .float64 x
  | .decimal, d => .decimal d
  | .text, s => .text s
  | .sharedText, s => .text s
  | .bytes, bs => .bytes bs
  | .uuid, u => .uuid u
  | .date, d => .date d
  | .time, t => .time t
  | .timestamp, t => .timestamp t
  | .option _, none => .null
  | .option t, some x => t.toValue x
  | .list t, xs => .list (xs.map t.toValue)

end ValueType

end EntitySql
