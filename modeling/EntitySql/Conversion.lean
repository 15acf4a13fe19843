/-
  Reading a value as one of a type. A type accepts its own kind of value and the kinds that
  hold the same without loss; the range is always checked.
-/
import EntitySql.Calendar.Iso8601
import EntitySql.Error
import EntitySql.Key
import EntitySql.Number.DecimalText

namespace EntitySql

namespace IntegerType

/-- The integer as one of the type. -/
def ofInt (t : IntegerType) (i : Int) : Except Error t.Range :=
  if h : t.least ≤ i ∧ i ≤ t.greatest then .ok ⟨i, h⟩ else .error (.outOfRange i t)

/-- The integer that a value denotes. -/
def read (t : IntegerType) (v : Value) : Except Error Int :=
  match v with
  | .int32 i => .ok i.toInt
  | .int64 i => .ok i.toInt
  | .boolean b => .ok (if b then 1 else 0)
  | .decimal d =>
    if d.isWhole then
      match int64? d.truncate with
      | some i => .ok i.toInt
      | none => .error (.decimalTooWide d)
    else .error (.mismatch v (.integer t))
  | .text s =>
    match IntegerText.parseTrimmed s with
    | .ok i => .ok i
    | .error fault => .error (.unreadable s (.integer t) (.integer fault))
  | v => .error (.mismatch v (.integer t))

end IntegerType

namespace ValueType

/-- What was read from a text, or the failure to read it. -/
def orUnreadable {α : Type} (s : String) (t : ValueType) (cause : UnreadableCause) :
    Option α → Except Error α
  | some x => .ok x
  | none => .error (.unreadable s t cause)

/-- What a property of the type holds for a value. -/
def ofValue : (t : ValueType) → Value → Except Error t.Carrier
  | .integer t, v => (t.read v).bind t.ofInt
  | .boolean, .boolean b => .ok b
  | .boolean, .int32 i => .ok (i != 0)
  | .boolean, .int64 i => .ok (i != 0)
  | .boolean, v => .error (.mismatch v .boolean)
  | .float64, .float64 x => .ok x
  | .float64, .int32 i => .ok (Binary64.ofInt i.toInt)
  | .float64, .int64 i => .ok (Binary64.ofInt i.toInt)
  | .float64, .decimal d => .ok d.toBinary64
  | .float64, v => .error (.mismatch v .float64)
  | .decimal, .decimal d => .ok d
  | .decimal, .int32 i => .ok (Decimal.ofInt64 i.toInt64)
  | .decimal, .int64 i => .ok (Decimal.ofInt64 i)
  | .decimal, .float64 x =>
    match Decimal.ofBinary64? x with
    | some d => .ok d
    | none => .error (.floatTooWide x)
  | .decimal, .text s => orUnreadable s .decimal .decimal (DecimalText.parse s)
  | .decimal, v => .error (.mismatch v .decimal)
  | .text, .text s => .ok s
  | .text, .uuid u => .ok u.text
  | .text, v => .error (.mismatch v .text)
  | .sharedText, .text s => .ok s
  | .sharedText, .uuid u => .ok u.text
  | .sharedText, v => .error (.mismatch v .sharedText)
  | .bytes, .bytes bs => .ok bs
  | .bytes, v => .error (.mismatch v .bytes)
  | .uuid, .uuid u => .ok u
  | .uuid, .text s => orUnreadable s .uuid .uuid (Uuid.parse s)
  | .uuid, .bytes bs =>
    match Uuid.ofBytes? bs with
    | some u => .ok u
    | none => .error .uuidLength
  | .uuid, v => .error (.mismatch v .uuid)
  | .date, .date d => .ok d
  | .date, .text s => orUnreadable s .date .time (Iso8601.parseDate s)
  | .date, v => .error (.mismatch v .date)
  | .time, .time t => .ok t
  | .time, .text s => orUnreadable s .time .time (Iso8601.parseTime s)
  | .time, v => .error (.mismatch v .time)
  | .timestamp, .timestamp t => .ok t
  | .timestamp, .text s => orUnreadable s .timestamp .time (Iso8601.parseTimestamp s)
  | .timestamp, v => .error (.mismatch v .timestamp)
  | .option _, .null => .ok none
  | .option t, v => (t.ofValue v).map some
  | .list t, .list vs => vs.mapM t.ofValue
  | .list t, v => .error (.mismatch v (.list t))

/-- The value that a property of the type stores for a value. -/
def convert (t : ValueType) (v : Value) : Except Error Value := (t.ofValue v).map t.toValue

end ValueType

namespace Key

/-- The key that a value is. -/
def ofValue (v : Value) : Except Error Key :=
  match ofValue? v with
  | some key => .ok key
  | none => .error (.notAKey v)

/-- The value of a key, which has to be a single one. -/
def toValue (key : Key) : Except Error Value :=
  match key.toValue? with
  | some v => .ok v
  | none => .error (.query (.unsupported .compositeValue))

end Key

end EntitySql
