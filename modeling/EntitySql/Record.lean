/-
  Entities given as data: named fields with a type each, and the steps that build a mapping.
-/
import EntitySql.Conversion
import EntitySql.Entity

namespace EntitySql

/-- A field of a record. -/
structure Field where
  /-- The name, which is also that of the property. -/
  name : String
  /-- The type; a field without one stores any value as it is. -/
  type : Option ValueType
  /-- What a fresh record holds; a field without it holds the zero of its type. -/
  initial : Option Value := none

namespace ValueType

/-- What a fresh property of the type holds. -/
def zero : ValueType → Value
  | .integer t => if t.isWide then .int64 0 else .int32 0
  | .boolean => .boolean false
  | .float64 => .float64 Binary64.zero
  | .decimal => .decimal (Decimal.ofInt64 0)
  | .text => .text ""
  | .sharedText => .text ""
  | .bytes => .bytes []
  | .uuid => .uuid Uuid.nil
  | .list _ => .list []
  | _ => .null

end ValueType

/-- What a fresh record holds in the field. -/
def Field.fresh (f : Field) : Value :=
  match f.initial, f.type with
  | some v, _ => v
  | none, some t => t.zero
  | none, none => .null

/-- What a field of the type holds after a value was stored in it. -/
def Field.stored (type : Option ValueType) (value : Value) : Except Error Value :=
  match type with
  | some t => t.convert value
  | none => .ok value

/-- A step in the building of a mapping. -/
inductive MappingStep where
  /-- Maps one property. -/
  | insert (p : PropertyMapping)
  /-- Maps several properties by convention. -/
  | addConventional (names : List String)

/-- An entity type given as data. -/
structure RecordType where
  /-- The name of the table. -/
  table : String
  /-- The schema of the table. -/
  schema : Option String := none
  /-- The name of the entity in messages, if it is not that of the table. -/
  entity : Option String := none
  /-- The fields. -/
  fields : List Field
  /-- The steps that build the mapping. -/
  steps : List MappingStep
  /-- Whether a change of an unknown property is passed over. -/
  lenient : Bool := false

/-- A record: the values of its fields. -/
abbrev Record := List (String × Value)

namespace RecordType

/-- A record with fresh fields. -/
def fresh (t : RecordType) : Record := t.fields.map fun f => (f.name, f.fresh)

/-- A record with the value of a field replaced. -/
def put (name : String) (value : Value) : Record → Record
  | [] => []
  | (n, v) :: fields =>
    if n = name then (n, value) :: fields else (n, v) :: put name value fields

/-- A record with a property changed, if the type of the field accepts the value. -/
def set (t : RecordType) (owner : String) (r : Record) (name : String) (value : Value) :
    Except Error Record :=
  match t.fields.find? (·.name == name) with
  | none => if t.lenient then .ok r else .error (.noProperty owner name)
  | some f => (Field.stored f.type value).map fun v => put name v r

/-- The entity type with the given token. -/
def entityOf (t : RecordType) (type : EntityType) : Entity Record where
  type := type
  fresh := t.fresh
  get? r name := r.lookup name
  set := t.set type.name

/-- The mapping that the steps build. -/
def mapping (t : RecordType) : Mapping :=
  let start := Mapping.ofTable t.table
  let start := match t.schema with
    | some s => start.withSchema s
    | none => start
  let start := match t.entity with
    | some e => start.withEntity e
    | none => start
  t.steps.foldl (fun m step =>
    match step with
    | .insert p => m.insert p
    | .addConventional names => m.addConventional names fun name => t.fresh.lookup name) start

end RecordType

/-- Record types by name. -/
abbrev Registry := List (String × RecordType)

namespace Registry

/-- The record type of that name; an unknown one has no table. -/
def find (r : Registry) (name : String) : RecordType :=
  (r.lookup name).getD { table := "", fields := [], steps := [] }

/-- The registry with a record type. A later type of a name hides the earlier ones. -/
def define (r : Registry) (name : String) (t : RecordType) : Registry := (name, t) :: r

/-- The entity type of that name. -/
def entity (r : Registry) (name : String) : Entity Record := (r.find name).entityOf ⟨name⟩

/-- The mappings of the record types. -/
def model (r : Registry) : Model := fun t => (r.find t.name).mapping

end Registry

end EntitySql
