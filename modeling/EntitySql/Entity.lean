/-
  Entities: types whose values are the rows of a table, seen through their properties.
-/
import EntitySql.Log
import EntitySql.Mapping
import EntitySql.Row

namespace EntitySql

/-- The token of an entity type: the path of its name. -/
structure EntityType where
  /-- Names separated by double colons, with type arguments between angle brackets. -/
  path : String
deriving DecidableEq

namespace EntityType

/-- What follows the last double colon in front of the type arguments; `best` is what follows
    the last one seen so far. -/
def lastSegment (best : List Char) : List Char → List Char
  | [] => best
  | c :: cs =>
    if c = '<' then best
    else if c = ':' ∧ cs.head? = some ':' then lastSegment cs.tail cs
    else lastSegment best cs

/-- The name without the path in front of it. Type arguments keep theirs. -/
def name (t : EntityType) : String :=
  String.ofList (lastSegment t.path.toList t.path.toList)

end EntityType

/-- An entity type: how its values are made, read and changed by property. -/
structure Entity (ε : Type) where
  /-- The token of the type. -/
  type : EntityType
  /-- A fresh entity. -/
  fresh : ε
  /-- The value of a property; nothing when there is no such property. -/
  get? : ε → String → Option Value
  /-- The entity with a property changed. -/
  set : ε → String → Value → Except Error ε

/-- The mapping that is in force for every entity type. -/
abbrev Model := EntityType → Mapping

namespace Entity

/-- The entity of a row, and a record for every column that no property takes. A cell that its
    property refuses ends the reading. -/
def ofCells {ε : Type} (E : Entity ε) (m : Mapping) :
    ε → List (String × Value) → List LogRecord × Except Error ε
  | e, [] => ([], .ok e)
  | e, (label, v) :: cells =>
    match m.ofLabel? label with
    | none =>
      let rest := ofCells E m e cells
      (⟨.trace, "Column `" ++ label ++ "` is not mapped by `" ++ m.entity ++ "`"⟩ :: rest.1, rest.2)
    | some p =>
      match E.set e p.name v with
      | .ok e => ofCells E m e cells
      | .error cause => ([], .error (.reading label m.entity p.name cause))

/-- A fresh entity with the cells of a row stored in it. Labels without a value and values
    without a label are left out. -/
def ofRow {ε : Type} (E : Entity ε) (m : Mapping) (row : Row) : List LogRecord × Except Error ε :=
  ofCells E m E.fresh (row.labels.zip row.values)

/-- The entities of several rows, up to the first failure. -/
def ofRows {ε : Type} (E : Entity ε) (m : Mapping) :
    List Row → List LogRecord × Except Error (List ε)
  | [] => ([], .ok [])
  | row :: rows =>
    match E.ofRow m row with
    | (records, .error e) => (records, .error e)
    | (records, .ok e) =>
      let rest := ofRows E m rows
      (records ++ rest.1, rest.2.map (e :: ·))

/-- The entity with several properties changed in order. -/
def setAll {ε : Type} (E : Entity ε) (e : ε) (changes : List (String × Value)) : Except Error ε :=
  changes.foldlM (fun e change => E.set e change.1 change.2) e

/-- The values of all properties of the mapping, in its order. -/
def state {ε : Type} (E : Entity ε) (m : Mapping) (e : ε) : List (String × Option Value) :=
  m.properties.map fun p => (p.name, E.get? e p.name)

end Entity

end EntitySql
