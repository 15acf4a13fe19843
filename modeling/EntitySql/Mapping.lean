/-
  Mappings: the table of an entity, and the column of each of its properties.
-/
import EntitySql.Error
import EntitySql.Text.Case

namespace EntitySql

/-- Whether a property belongs to the key, and where its value comes from. -/
inductive KeyKind where
  /-- It does not belong to the key. -/
  | notKey
  /-- The database generates it; it is read back after an insertion. -/
  | identity
  /-- An identifier is drawn for it before an insertion, when it has none. -/
  | guid
  /-- The caller supplies it. -/
  | assigned
deriving DecidableEq

/-- Whether a property of the kind belongs to the key. -/
def KeyKind.isKey (kind : KeyKind) : Bool := kind != .notKey

/-- The mapping of a property to its column. -/
structure PropertyMapping where
  /-- The name of the property. -/
  name : String
  /-- The name of the column. -/
  column : String := name
  /-- Whether the property belongs to the key. -/
  key : KeyKind := .notKey
  /-- The property has no column. -/
  ignored : Bool := false
  /-- The column is selected and never written. -/
  readOnly : Bool := false
deriving DecidableEq

/-- Whether the property belongs to the key. -/
def PropertyMapping.isKey (p : PropertyMapping) : Bool := p.key.isKey

/-- The mapping of an entity to its table. -/
structure Mapping where
  /-- The name of the entity in messages. -/
  entity : String
  /-- The schema of the table. -/
  schema : Option String
  /-- The name of the table; an empty one stands for no table. -/
  table : String
  /-- The properties, in the order of their first mention. -/
  properties : List PropertyMapping
deriving DecidableEq

namespace Mapping

/-! ## Building -/

/-- The mapping to a table, named like it, without properties. -/
def ofTable (table : String) : Mapping := ⟨table, none, table, []⟩

/-- The mapping with a schema. -/
def withSchema (m : Mapping) (schema : String) : Mapping := { m with schema := some schema }

/-- The mapping with a name for messages. -/
def withEntity (m : Mapping) (entity : String) : Mapping := { m with entity := entity }

/-- A list of properties with the one of the same name replaced, or with a new one at the
    end. -/
def put (p : PropertyMapping) : List PropertyMapping → List PropertyMapping
  | [] => [p]
  | q :: qs => if q.name = p.name then p :: qs else q :: put p qs

/-- The mapping with a property. -/
def insert (m : Mapping) (p : PropertyMapping) : Mapping :=
  { m with properties := put p m.properties }

/-- Adds a property of that name unless there is one. -/
def mention (ps : List PropertyMapping) (name : String) : List PropertyMapping :=
  if ps.any (·.name == name) then ps else ps ++ [{ name := name }]

/-- Whether a name is `id`, in any case. -/
def isIdName (name : String) : Bool := Text.equalIgnoringCase name "id"

/-- Whether a name ends with `id`, in any case. -/
def endsWithId (name : String) : Bool := ['d', 'i'].isPrefixOf (Text.lowerCase name).reverse

/-- Where the property stands that is the key by convention: the first one called `id`, or else
    the first one whose name ends so. -/
def conventionalKey? (ps : List PropertyMapping) : Option Nat :=
  match ps.findIdx? fun p => isIdName p.name with
  | some i => some i
  | none => ps.findIdx? fun p => endsWithId p.name

/-- The kind of a key by convention, from the value that a fresh entity holds for it. -/
def conventionalKind : Option Value → KeyKind
  | some (.uuid _) => .guid
  | some (.int32 _) => .identity
  | some (.int64 _) => .identity
  | _ => .assigned

/-- Maps every name that is not mapped yet to a column of that name. When nothing was a key
    before, the key by convention becomes one; `prototype` answers what a fresh entity holds. -/
def addConventional (m : Mapping) (names : List String) (prototype : String → Option Value) :
    Mapping :=
  let ps := names.foldl mention m.properties
  if m.properties.any PropertyMapping.isKey then { m with properties := ps }
  else
    match conventionalKey? ps with
    | none => { m with properties := ps }
    | some i =>
      { m with
        properties := ps.modify i fun p => { p with key := conventionalKind (prototype p.name) } }

/-! ## Looking up -/

/-- The property of that name. -/
def property? (m : Mapping) (name : String) : Option PropertyMapping :=
  m.properties.find? (·.name == name)

/-- The property of that name, which has to be mapped. -/
def property (m : Mapping) (name : String) : Except QueryError PropertyMapping :=
  match m.property? name with
  | some p => .ok p
  | none => .error (.unknownProperty m.entity name)

/-- The property of that name, which has to have a column. -/
def mapped (m : Mapping) (name : String) : Except QueryError PropertyMapping :=
  match m.property name with
  | .ok p => if p.ignored then .error (.ignoredProperty m.entity name) else .ok p
  | .error e => .error e

/-- The properties that have a column. -/
def columns (m : Mapping) : List PropertyMapping := m.properties.filter (!·.ignored)

/-- The property that a column of a result belongs to: the one of that name, or else the one
    whose column has that name in any case. -/
def ofLabel? (m : Mapping) (label : String) : Option PropertyMapping :=
  match m.columns.find? (·.name == label) with
  | some p => some p
  | none => m.columns.find? fun p => Text.equalIgnoringCase p.column label

/-- The key properties that have a column. -/
def keys (m : Mapping) : List PropertyMapping := m.columns.filter PropertyMapping.isKey

/-- The key that the database generates. -/
def identity? (m : Mapping) : Option PropertyMapping := m.keys.find? (·.key == .identity)

/-- The properties that an insertion lists. -/
def insertable (m : Mapping) : List PropertyMapping :=
  m.columns.filter fun p => !p.readOnly && p.key != .identity

/-- Whether an update may assign a property of the kind. -/
def isUpdatable (excludeAssigned : Bool) : KeyKind → Bool
  | .notKey => true
  | .assigned => !excludeAssigned
  | .identity => false
  | .guid => false

/-- The properties that an update assigns. -/
def updatable (m : Mapping) (excludeAssigned : Bool) : List PropertyMapping :=
  m.columns.filter fun p => !p.readOnly && isUpdatable excludeAssigned p.key

end Mapping

end EntitySql
