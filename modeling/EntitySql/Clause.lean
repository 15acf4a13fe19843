/-
  Clauses: conditions and orders as sequences of fragments, and the writing of fragments. What
  a clause says does not depend on the dialect; how it is spelled does.
-/
import EntitySql.Predicate
import EntitySql.Workspace

namespace EntitySql

/-- A step in the writing of a clause. -/
inductive Fragment where
  /-- Writes fixed text. -/
  | text (s : String)
  /-- Writes a column. -/
  | column (c : ColumnRef)
  /-- Looks a column up and writes nothing. -/
  | lookUp (c : ColumnRef)
  /-- Resolves an entity and writes nothing. -/
  | resolve (e : EntityType)
  /-- Writes a table. -/
  | table (e : EntityType)
  /-- Binds a value under a name with the given base, and writes the name. -/
  | operand (base : String) (v : Value)
  /-- Writes the condition that is always true. -/
  | everything
  /-- Fails. -/
  | refuse (e : QueryError)

namespace Fragment

/-- Sequences of fragments with a text between any two. -/
def joined (separator : String) (parts : List (List Fragment)) : List Fragment :=
  [Fragment.text separator].intercalate parts

end Fragment

namespace Predicate

/-- The fragments of a comparison with a list. -/
def listFragments (column : ColumnRef) (items : List Value) (negated : Bool) : List Fragment :=
  match items with
  | [] => [.lookUp column, .text (if negated then "(1=1)" else "(1=0)")]
  | items =>
    [.lookUp column, .text "(", .column column, .text (if negated then " NOT IN (" else " IN (")] ++
      Fragment.joined ", " (items.map fun v => [.operand column.property v]) ++ [.text "))"]

/-- The fragments of a comparison with a value. Nothing is compared by a test of its own,
    whatever the operator. -/
def fieldFragments (column : ColumnRef) (op : Operator) (value : Value) (negated : Bool) :
    List Fragment :=
  match value with
  | .null =>
    [.text "(", .column column, .text (if negated then " IS NOT NULL)" else " IS NULL)")]
  | .list items =>
    if op = .eq then listFragments column items negated else [.refuse .listOperator]
  | value =>
    [.text "(", .column column, .text " ", .text (op.sql negated), .text " ",
     .operand column.property value, .text ")"]

/-- The members of a group in parentheses, or a condition that is always true when there is
    none. -/
def groupFragments (connective : Connective) (members : List (List Fragment)) : List Fragment :=
  match members with
  | [] => [.everything]
  | members => [.text "("] ++ Fragment.joined connective.sql members ++ [.text ")"]

mutual

/-- The fragments of a condition. -/
def fragments : Predicate → List Fragment
  | .field column op value negated => fieldFragments column op value negated
  | .property column op other negated =>
    [.text "(", .column column, .text " ", .text (op.sql negated), .text " ", .column other,
     .text ")"]
  | .between column low high negated =>
    [.text "(", .column column, .text (if negated then " NOT BETWEEN " else " BETWEEN "),
     .operand column.property low, .text " AND ", .operand column.property high, .text ")"]
  | .group connective members => groupFragments connective (memberFragments members)
  | .anyRow entity condition negated =>
    [.resolve entity,
     .text (if negated then "(NOT EXISTS (SELECT 1 FROM " else "(EXISTS (SELECT 1 FROM "),
     .table entity, .text " WHERE "] ++ condition.fragments ++ [.text "))"]

/-- The fragments of the members of a group that hold a condition. -/
def memberFragments : List Predicate → List (List Fragment)
  | [] => []
  | p :: ps => if p.isEmpty then memberFragments ps else p.fragments :: memberFragments ps

end

end Predicate

namespace OrderTerm

/-- The fragments of a term. -/
def fragments (t : OrderTerm) : List Fragment :=
  [.column t.column, .text (if t.ascending then " ASC" else " DESC")]

/-- The fragments of an order. -/
def allFragments (terms : List OrderTerm) : List Fragment :=
  Fragment.joined ", " (terms.map fragments)

end OrderTerm

/-- A workspace and the text written so far. -/
structure Manuscript where
  /-- The workspace. -/
  workspace : Workspace
  /-- The text. -/
  text : String

/-- Writing that may fail and keeps what it wrote. -/
abbrev Writing := EStateM Error Manuscript

namespace Writing

/-- Work beside the text. -/
def beside {α : Type} (work : Work α) : Writing α := fun m =>
  match work m.workspace with
  | .ok x w => .ok x { m with workspace := w }
  | .error e w => .error e { m with workspace := w }

/-- Writes text. -/
def text (s : String) : Writing Unit := modify fun m => { m with text := m.text ++ s }

/-- The mapping of an entity and one of its properties that has a column. -/
def lookUp (s : Setting) (c : ColumnRef) : Writing (Mapping × PropertyMapping) := do
  let m ← beside (Work.mapping s c.entity)
  let p ← beside (Work.ofExcept (m.mapped c.property))
  return (m, p)

/-- Binds a value and writes the name it got. -/
def operand (s : Setting) (base : String) (v : Value) : Writing Unit := do
  let bound := s.dialect.bindParameter (← get).workspace.parameters base v
  modify fun m => { m with workspace := { m.workspace with parameters := bound.2 } }
  text bound.1

/-- Writes one fragment. -/
def fragment (s : Setting) : Fragment → Writing Unit
  | .text t => text t
  | .column c => do
    let (m, p) ← lookUp s c
    text (s.dialect.qualifiedName m p)
  | .lookUp c => do
    let _ ← lookUp s c
  | .resolve e => do
    let _ ← beside (Work.mapping s e)
  | .table e => do
    text (s.dialect.tableName (← beside (Work.mapping s e)))
  | .operand base v => operand s base v
  | .everything => text s.dialect.everything
  | .refuse e => throw (.query e)

/-- Writes fragments in order, up to the first failure. -/
def all (s : Setting) : List Fragment → Writing Unit
  | [] => pure ()
  | f :: fs => do
    fragment s f
    all s fs

end Writing

namespace Work

/-- The text of fragments. -/
def clause (s : Setting) (fs : List Fragment) : Work String := fun w =>
  match Writing.all s fs ⟨w, ""⟩ with
  | .ok _ m => .ok m.text m.workspace
  | .error e m => .error e m.workspace

end Work

end EntitySql
