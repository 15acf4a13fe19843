/-
  Conditions of SQL, and their truth values in a database.

  A comparison with nothing is unknown. A column belongs to the current row of its table, and a
  row of a sub select hides the current row of its table.
-/
import EntitySql.Parameters
import EntitySql.Proofs.Sql.Truth

namespace EntitySql.Sql

/-! ## Expressions -/

/-- The name of a table, behind that of its schema. -/
structure TableName where
  /-- The name of the schema. -/
  schema : Option String
  /-- The name of the table. -/
  table : String
deriving DecidableEq

/-- What is compared. -/
inductive Term where
  /-- A column of a table. -/
  | column (table : TableName) (name : String)
  /-- A parameter. -/
  | parameter (name : String)
  /-- A number. -/
  | number (n : Nat)
deriving DecidableEq

/-- A sign between two terms. -/
inductive Sign where
  | eq | ne | gt | ge | lt | le
deriving DecidableEq

/-- A condition. -/
inductive Expr where
  /-- A comparison. -/
  | compare (sign : Sign) (a b : Term)
  /-- `LIKE` or `NOT LIKE`. -/
  | like (negated : Bool) (a b : Term)
  /-- `IS NULL` or `IS NOT NULL`. -/
  | isNull (negated : Bool) (a : Term)
  /-- `IN` or `NOT IN`. -/
  | within (negated : Bool) (a : Term) (items : List Term)
  /-- `BETWEEN` or `NOT BETWEEN`. -/
  | between (negated : Bool) (a low high : Term)
  /-- `EXISTS` of a sub select. -/
  | anyRow (table : TableName) (condition : Expr)
  /-- `NOT`. -/
  | not (e : Expr)
  /-- `AND`. -/
  | and (a b : Expr)
  /-- `OR`. -/
  | or (a b : Expr)
deriving DecidableEq

/-! ## Databases -/

/-- The values of a row by column. -/
abbrev Cells := String → Value

/-- The current row of each table. -/
abbrev Scope := TableName → Cells

/-- The scope with another row of a table. -/
def Scope.enter (scope : Scope) (t : TableName) (row : Cells) : Scope :=
  fun t' => if t' = t then row else scope t'

/-- The rows of a database and its comparisons. -/
structure World where
  /-- The rows of each table. -/
  rows : TableName → List Cells
  /-- The order of two values, neither of them nothing. -/
  compare : Value → Value → Ordering
  /-- Integers are ordered as numbers. -/
  compare_int64 : ∀ i j : Int64,
    compare (.int64 i) (.int64 j) = Ord.compare i.toInt j.toInt
  /-- Whether a value matches a pattern. -/
  like : Value → Value → Bool

/-- Whether two values in the given order are as the sign says. -/
def Sign.holds : Sign → Ordering → Bool
  | .eq, o => o.isEq
  | .ne, o => o.isNe
  | .gt, o => o.isGT
  | .ge, o => o.isGE
  | .lt, o => o.isLT
  | .le, o => o.isLE

namespace World

/-- A test of two values, unknown when one of them is nothing. -/
def test (holds : Value → Value → Bool) (a b : Value) : Truth :=
  if a.isNull || b.isNull then .unknown else .ofBool (holds a b)

/-- A comparison of two values. -/
def compared (W : World) (sign : Sign) : Value → Value → Truth :=
  test fun a b => sign.holds (W.compare a b)

/-- A comparison of a value with a pattern. -/
def likened (W : World) : Value → Value → Truth := test W.like

/-- Whether a value is one of several. -/
def isWithin (W : World) (a : Value) (items : List Value) : Truth :=
  .any (items.map (W.compared .eq a))

/-- Whether a value is between two others. -/
def isBetween (W : World) (a low high : Value) : Truth :=
  (W.compared .ge a low).and (W.compared .le a high)

/-- Whether a row of a table meets a condition. -/
def hasRow (W : World) (t : TableName) (condition : Cells → Truth) : Truth :=
  .ofBool ((W.rows t).any fun row => condition row == .yes)

end World

/-! ## Truth values -/

/-- The value of a term. -/
def Term.value (ps : Parameters) (scope : Scope) : Term → Value
  | .column t name => scope t name
  | .parameter name => (ps.get? name).getD .null
  | .number n => .int64 (Int64.ofNat n)

/-- The truth value of a condition. -/
def Expr.value (W : World) (ps : Parameters) (scope : Scope) : Expr → Truth
  | .compare sign a b => W.compared sign (a.value ps scope) (b.value ps scope)
  | .like negated a b => (W.likened (a.value ps scope) (b.value ps scope)).negatedIf negated
  | .isNull negated a => (Truth.ofBool (a.value ps scope).isNull).negatedIf negated
  | .within negated a items =>
    (W.isWithin (a.value ps scope) (items.map (Term.value ps scope))).negatedIf negated
  | .between negated a low high =>
    (W.isBetween (a.value ps scope) (low.value ps scope) (high.value ps scope)).negatedIf negated
  | .anyRow t condition => W.hasRow t fun row => condition.value W ps (scope.enter t row)
  | .not e => (e.value W ps scope).not
  | .and a b => (a.value W ps scope).and (b.value W ps scope)
  | .or a b => (a.value W ps scope).or (b.value W ps scope)

/-! ## Comparisons and their opposites -/

/-- The sign of the opposite comparison. -/
def Sign.opposite : Sign → Sign
  | .eq => .ne
  | .ne => .eq
  | .gt => .le
  | .ge => .lt
  | .lt => .ge
  | .le => .gt

theorem Sign.holds_opposite (sign : Sign) (o : Ordering) :
    sign.opposite.holds o = !sign.holds o := by
  cases sign <;> cases o <;> rfl

/-- Opposite comparisons have opposite truth values, in any order of the values. -/
theorem World.compared_opposite (W : World) (sign : Sign) (a b : Value) :
    W.compared sign.opposite a b = (W.compared sign a b).not := by
  unfold compared test
  cases a.isNull || b.isNull with
  | true => rfl
  | false => simp [Sign.holds_opposite, Truth.not_ofBool]

end EntitySql.Sql
