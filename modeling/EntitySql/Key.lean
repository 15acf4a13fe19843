/-
  Keys: the value of the key property of an entity, or of all of them by name.
-/
import EntitySql.Value

namespace EntitySql

/-- The key of an entity. -/
inductive Key where
  /-- An integer. -/
  | int64 (i : Int64)
  /-- A text. -/
  | text (s : String)
  /-- An identifier. -/
  | uuid (u : Uuid)
  /-- Named parts, one for each key property. -/
  | composite (parts : List (String × Key))

instance : Inhabited Key := ⟨.text ""⟩

namespace Key

/-- Whether the key has named parts. -/
def isComposite : Key → Bool
  | .composite _ => true
  | _ => false

/-- The part with a name; the first one wins. A key without parts has none. -/
def part? (key : Key) (name : String) : Option Key :=
  match key with
  | .composite parts => parts.lookup name
  | _ => none

/-- The value of a key that has no parts. -/
def toValue? : Key → Option Value
  | .int64 i => some (.int64 i)
  | .text s => some (.text s)
  | .uuid u => some (.uuid u)
  | .composite _ => none

/-- The key that a value is, if it is an integer, a text or an identifier. -/
def ofValue? : Value → Option Key
  | .int32 i => some (.int64 i.toInt64)
  | .int64 i => some (.int64 i)
  | .text s => some (.text s)
  | .uuid u => some (.uuid u)
  | .decimal d => (Value.decimal d).asInt64.map .int64
  | _ => none

mutual

/-- Whether two keys are equal. -/
def same : Key → Key → Bool
  | .int64 a, .int64 b => a == b
  | .text a, .text b => a == b
  | .uuid a, .uuid b => a == b
  | .composite a, .composite b => sameParts a b
  | _, _ => false

/-- Whether two lists have equal names and keys in the same order. -/
def sameParts : List (String × Key) → List (String × Key) → Bool
  | [], [] => true
  | (m, a) :: as, (n, b) :: bs => m == n && a.same b && sameParts as bs
  | _, _ => false

end

mutual

/-- The text of a key in messages for a reader. -/
def display : Key → String
  | .int64 i => toString i.toInt
  | .text s => s
  | .uuid u => u.text
  | .composite parts => "\x7b" ++ ", ".intercalate (displayParts parts) ++ "\x7d"

/-- The texts of named parts. -/
def displayParts : List (String × Key) → List String
  | [] => []
  | (name, key) :: parts => (name ++ ": " ++ key.display) :: displayParts parts

end

mutual

/-- The text of a key with the name of its kind. -/
def describe : Key → String
  | .int64 i => "Int64(" ++ toString i.toInt ++ ")"
  | .text s => "Varchar(" ++ Text.quoted s ++ ")"
  | .uuid u => "Uuid(" ++ u.text ++ ")"
  | .composite parts => "Composite([" ++ ", ".intercalate (describeParts parts) ++ "])"

/-- The descriptions of named parts. -/
def describeParts : List (String × Key) → List String
  | [] => []
  | (name, key) :: parts =>
    ("(" ++ Text.quoted name ++ ", " ++ key.describe ++ ")") :: describeParts parts

end

end Key

end EntitySql
