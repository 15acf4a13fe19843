/-
  What statements are written with: the dialect and the mappings in force, the catalog of what
  was resolved and written before, the records of it, and the parameters bound so far. What was
  done before a failure stays done.
-/
import EntitySql.Dialect
import EntitySql.Entity

namespace EntitySql

/-- What holds during a call: the dialect, and the mapping of every entity type. -/
structure Setting where
  /-- The dialect. -/
  dialect : Dialect
  /-- The mappings. -/
  model : Model

/-- The statements of an entity that depend on its mapping alone. -/
inductive StatementKind where
  /-- The selected columns. -/
  | columns
  /-- The select by key. -/
  | get
  /-- The insertion. -/
  | insert
  /-- The update by key, with or without the assigned keys. -/
  | update (excludeAssigned : Bool)
  /-- The deletion by key. -/
  | delete
  /-- The query of the generated key. -/
  | identity
deriving DecidableEq

/-- The mappings resolved and the statements written so far. -/
structure Catalog where
  /-- A mapping for an entity type. -/
  mappings : List (EntityType × Mapping) := []
  /-- A statement for an entity type and a kind. -/
  statements : List ((EntityType × StatementKind) × String) := []

namespace Catalog

/-- The mapping known for an entity type. -/
def mapping? (c : Catalog) (e : EntityType) : Option Mapping := c.mappings.lookup e

/-- The statement known for an entity type. -/
def statement? (c : Catalog) (e : EntityType) (kind : StatementKind) : Option String :=
  c.statements.lookup (e, kind)

/-- The catalog with a mapping. -/
def addMapping (c : Catalog) (e : EntityType) (m : Mapping) : Catalog :=
  { c with mappings := c.mappings ++ [(e, m)] }

/-- The catalog with a statement. -/
def addStatement (c : Catalog) (e : EntityType) (kind : StatementKind) (sql : String) : Catalog :=
  { c with statements := c.statements ++ [((e, kind), sql)] }

/-- The text of a catalog in messages. -/
def describe (c : Catalog) (d : Dialect) : String :=
  "Configuration \x7b dialect: " ++ Text.quoted d.name ++ ", maps: " ++
    toString c.mappings.length ++ ", statements: " ++ toString c.statements.length ++ " \x7d"

end Catalog

/-- What changes while statements are written. -/
structure Workspace where
  /-- What is known. -/
  catalog : Catalog := {}
  /-- The records, the oldest first. -/
  log : List LogRecord := []
  /-- The parameters bound so far. -/
  parameters : Parameters := {}

/-- Work that may fail and leaves its traces in the workspace. -/
abbrev Work := EStateM Error Workspace

namespace Work

/-- Adds a record. -/
def note (level : LogLevel) (text : String) : Work Unit :=
  modify fun w => { w with log := w.log ++ [⟨level, text⟩] }

/-- Fails for a reason of this library. -/
def refuse {α : Type} (e : QueryError) : Work α := throw (.query e)

/-- Goes on with an answer, or fails with its reason. -/
def ofExcept {α : Type} : Except QueryError α → Work α
  | .ok x => pure x
  | .error e => refuse e

/-- The mapping of an entity type: the one known, or else the one in force, which is known from
    then on. An entity without a table has none. -/
def mapping (s : Setting) (e : EntityType) : Work Mapping := do
  match (← get).catalog.mapping? e with
  | some m => return m
  | none =>
    let m := s.model e
    if m.table.isEmpty then refuse (.unknownEntity e.name)
    else
      note .debug ("Resolved class map of `" ++ e.name ++ "`: table " ++ m.table ++ ", " ++
        toString m.properties.length ++ " properties")
      modify fun w => { w with catalog := w.catalog.addMapping e m }
      return m

/-- The statement known for an entity type, or else the given one, which is known from then
    on. -/
def known (e : EntityType) (kind : StatementKind) (written : Except Error String) :
    Work String := do
  match (← get).catalog.statement? e kind with
  | some sql => return sql
  | none =>
    match written with
    | .error e => throw e
    | .ok sql =>
      modify fun w => { w with catalog := w.catalog.addStatement e kind sql }
      return sql

/-- Forgets all mappings and statements. -/
def clearCatalog : Work Unit := do
  modify fun w => { w with catalog := {} }
  note .debug "Cleared the class map and statement caches"

end Work

end EntitySql
