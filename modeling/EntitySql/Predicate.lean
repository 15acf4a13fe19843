/-
  Conditions over the columns of entities, as trees, and their negation.
-/
import EntitySql.Entity

namespace EntitySql

/-- A comparison of two values. -/
inductive Operator where
  | eq | gt | ge | lt | le | like
deriving DecidableEq

/-- How a comparison is written; the negated one is a comparison of its own. -/
def Operator.sql (op : Operator) (negated : Bool) : String :=
  match op, negated with
  | .eq, false => "="
  | .eq, true => "<>"
  | .gt, false => ">"
  | .gt, true => "<="
  | .ge, false => ">="
  | .ge, true => "<"
  | .lt, false => "<"
  | .lt, true => ">="
  | .le, false => "<="
  | .le, true => ">"
  | .like, false => "LIKE"
  | .like, true => "NOT LIKE"

/-- How the conditions of a group are joined. -/
inductive Connective where
  | and | or
deriving DecidableEq

namespace Connective

/-- How the connective is written between two conditions. -/
def sql : Connective → String
  | .and => " AND "
  | .or => " OR "

/-- The connective of the negated group. -/
def dual : Connective → Connective
  | .and => .or
  | .or => .and

end Connective

/-- A property of an entity, the place where a column may stand. -/
structure ColumnRef where
  /-- The entity. -/
  entity : EntityType
  /-- The name of the property. -/
  property : String
deriving DecidableEq

/-- A condition. -/
inductive Predicate where
  /-- A column compared with a value, a list of values or nothing. -/
  | field (column : ColumnRef) (op : Operator) (value : Value) (negated : Bool)
  /-- A column compared with another. -/
  | property (column : ColumnRef) (op : Operator) (other : ColumnRef) (negated : Bool)
  /-- A column between two values. -/
  | between (column : ColumnRef) (low high : Value) (negated : Bool)
  /-- Several conditions together. -/
  | group (connective : Connective) (members : List Predicate)
  /-- A row of another table that meets a condition. -/
  | anyRow (entity : EntityType) (condition : Predicate) (negated : Bool)

instance : Inhabited Predicate := ⟨.group .and []⟩

/-- A term of an order. -/
structure OrderTerm where
  /-- The column. -/
  column : ColumnRef
  /-- Whether small values come first. -/
  ascending : Bool
deriving DecidableEq

namespace Predicate

mutual

/-- Whether there is no condition at all: a group of such groups. -/
def isEmpty : Predicate → Bool
  | .group _ members => allEmpty members
  | _ => false

/-- Whether all conditions are empty. -/
def allEmpty : List Predicate → Bool
  | [] => true
  | p :: ps => p.isEmpty && allEmpty ps

end

mutual

/-- The opposite condition, with the negation driven into the leaves. -/
def negate : Predicate → Predicate
  | .field column op value negated => .field column op value (!negated)
  | .property column op other negated => .property column op other (!negated)
  | .between column low high negated => .between column low high (!negated)
  | .group connective members => .group connective.dual (negateAll members)
  | .anyRow entity condition negated => .anyRow entity condition (!negated)

/-- The opposites of several conditions. -/
def negateAll : List Predicate → List Predicate
  | [] => []
  | p :: ps => p.negate :: negateAll ps

end

mutual

/-- Whether two conditions are equal, values being compared as values. -/
def same : Predicate → Predicate → Bool
  | .field c op v n, .field c' op' v' n' => c == c' && op == op' && v.same v' && n == n'
  | .property c op o n, .property c' op' o' n' => c == c' && op == op' && o == o' && n == n'
  | .between c l h n, .between c' l' h' n' => c == c' && l.same l' && h.same h' && n == n'
  | .group k ps, .group k' ps' => k == k' && sameAll ps ps'
  | .anyRow e p n, .anyRow e' p' n' => e == e' && p.same p' && n == n'
  | _, _ => false

/-- Whether two lists of conditions are equal. -/
def sameAll : List Predicate → List Predicate → Bool
  | [], [] => true
  | p :: ps, q :: qs => p.same q && sameAll ps qs
  | _, _ => false

end

end Predicate

end EntitySql
