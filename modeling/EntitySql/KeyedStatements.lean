/-
  The statements of an entity that depend on its mapping alone: select, update and delete by
  key, insertion, and the query of the generated key.
-/
import EntitySql.Dialect

namespace EntitySql

namespace Mapping

/-- The placeholder of a parameter called like the property. -/
def propertyPlaceholder (d : Dialect) (p : PropertyMapping) : String := d.placeholder p.name

/-- The comparison of a key with the parameter of its name. -/
def keyEquation (d : Dialect) (m : Mapping) (p : PropertyMapping) : String :=
  "(" ++ d.qualifiedName m p ++ " = " ++ propertyPlaceholder d p ++ ")"

/-- The condition that every key equals the parameter of its name. -/
def keyCondition (d : Dialect) (m : Mapping) : Except QueryError String :=
  match m.keys with
  | [] => .error (.noKeys m.entity)
  | [key] => .ok (keyEquation d m key)
  | keys => .ok ("(" ++ Text.separated " AND " "" (keys.map (keyEquation d m)) ++ ")")

/-- The select of the entity with a key. -/
def getStatement (d : Dialect) (m : Mapping) (columns : String) : Except QueryError String :=
  (m.keyCondition d).map fun condition =>
    d.select { mapping := m, columns := columns, condition := some condition }

/-- The insertion of an entity. -/
def insertStatement (d : Dialect) (m : Mapping) : String :=
  match m.insertable with
  | [] => "INSERT INTO " ++ d.tableName m ++ d.defaultValues
  | ps =>
    "INSERT INTO " ++ d.tableName m ++ " (" ++ Text.separated ", " "" (ps.map d.columnName) ++
      ") VALUES (" ++ Text.separated ", " "" (ps.map (propertyPlaceholder d)) ++ ")"

/-- The assignment of a parameter to the column of its name. -/
def assignment (d : Dialect) (p : PropertyMapping) : String :=
  d.columnName p ++ " = " ++ propertyPlaceholder d p

/-- The update of the entity with a key. -/
def updateStatement (d : Dialect) (m : Mapping) (excludeAssigned : Bool) :
    Except QueryError String :=
  match m.updatable excludeAssigned with
  | [] => .error (.nothingToUpdate m.entity)
  | ps =>
    (m.keyCondition d).map fun condition =>
      "UPDATE " ++ d.tableName m ++ " SET " ++ Text.separated ", " "" (ps.map (assignment d)) ++
        " WHERE " ++ condition

/-- The deletion of the entity with a key. -/
def deleteStatement (d : Dialect) (m : Mapping) : Except QueryError String :=
  (m.keyCondition d).map fun condition => "DELETE FROM " ++ d.tableName m ++ " WHERE " ++ condition

end Mapping

end EntitySql
