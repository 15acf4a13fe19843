/-
  What a condition means: its truth value, told along its tree, and the expression that its text
  is.

  `value_expr` says that the expression has the truth value of the condition, and
  `derives_rendering` that the lexemes of its text are the expression. Both go along the tree
  with the number of the first operand.
-/
import EntitySql.Proofs.Rendering
import EntitySql.Proofs.Sql.Grammar

namespace EntitySql

open Sql (Expr Lexeme Scope Sign TableName Term Truth World)

/-! ## Names -/

/-- The name of the table. -/
def Mapping.tableName (m : Mapping) : TableName := ⟨m.schema, m.table⟩

namespace Mappings

/-- The column of a reference, as far as there is one. -/
def term (ms : Mappings) (c : ColumnRef) : Term :=
  match ms.column c with
  | .ok (m, p) => .column m.tableName p.column
  | .error _ => .number 0

/-- The value of a column in the current row of the table of its entity. -/
def cell (ms : Mappings) (scope : Scope) (c : ColumnRef) : Value :=
  match ms.column c with
  | .ok (m, p) => scope m.tableName p.column
  | .error _ => .null

/-- The table of an entity type, as far as there is one. -/
def table (ms : Mappings) (e : EntityType) : TableName :=
  match ms e with
  | .ok m => m.tableName
  | .error _ => ⟨none, ""⟩

end Mappings

/-! ## Truth of a condition -/

/-- The truth value of a comparison. -/
def Operator.truth (W : World) (op : Operator) (a b : Value) : Truth :=
  match op with
  | .eq => W.compared .eq a b
  | .gt => W.compared .gt a b
  | .ge => W.compared .ge a b
  | .lt => W.compared .lt a b
  | .le => W.compared .le a b
  | .like => W.likened a b

/-- The truth value of a group, from those of the members that hold a condition. A group without
    one is true. -/
def Connective.truth (k : Connective) : List Truth → Truth
  | [] => .yes
  | ts =>
    match k with
    | .and => .all ts
    | .or => .any ts

namespace Predicate

/-- The truth value of a comparison of `a` with an operand. Nothing is tested for, whatever the
    operator. -/
def fieldTruth (W : World) (d : Dialect) (a : Value) (op : Operator) (negated : Bool) :
    Value → Truth
  | .null => (Truth.ofBool a.isNull).negatedIf negated
  | .list items => (W.isWithin a (items.map d.bindValue)).negatedIf negated
  | v => (op.truth W a (d.bindValue v)).negatedIf negated

mutual

/-- The truth value of a condition in a database, for the current rows. -/
def truth (W : World) (d : Dialect) (ms : Mappings) (scope : Scope) : Predicate → Truth
  | .field c op v negated => fieldTruth W d (ms.cell scope c) op negated v
  | .property c op other negated =>
    (op.truth W (ms.cell scope c) (ms.cell scope other)).negatedIf negated
  | .between c low high negated =>
    (W.isBetween (ms.cell scope c) (d.bindValue low) (d.bindValue high)).negatedIf negated
  | .group k members => k.truth (memberTruths W d ms scope members)
  | .anyRow e p negated =>
    (W.hasRow (ms.table e) fun row =>
      p.truth W d ms (scope.enter (ms.table e) row)).negatedIf negated

/-- The truth values of the members of a group that hold a condition. -/
def memberTruths (W : World) (d : Dialect) (ms : Mappings) (scope : Scope) :
    List Predicate → List Truth
  | [] => []
  | p :: ps =>
    if p.isEmpty then memberTruths W d ms scope ps
    else p.truth W d ms scope :: memberTruths W d ms scope ps

end

theorem memberTruths_eq_map (W : World) (d : Dialect) (ms : Mappings) (scope : Scope)
    (ps : List Predicate) :
    memberTruths W d ms scope ps = (inhabited ps).map (truth W d ms scope) := by
  induction ps with
  | nil => rfl
  | cons p ps ih =>
    rw [memberTruths, ih]
    cases hp : p.isEmpty <;> simp [inhabited, hp]

end Predicate

/-! ## Expressions of a condition -/

/-- A sign, or the opposite one. -/
def Sql.Sign.negatedIf (negated : Bool) (sign : Sign) : Sign :=
  if negated then sign.opposite else sign

/-- The expression of a comparison. -/
def Operator.expr (op : Operator) (negated : Bool) (a b : Term) : Expr :=
  match op with
  | .eq => .compare (Sign.negatedIf negated .eq) a b
  | .gt => .compare (Sign.negatedIf negated .gt) a b
  | .ge => .compare (Sign.negatedIf negated .ge) a b
  | .lt => .compare (Sign.negatedIf negated .lt) a b
  | .le => .compare (Sign.negatedIf negated .le) a b
  | .like => .like negated a b

namespace Connective

/-- Two conditions with the connective between them. -/
def pair : Connective → Expr → Expr → Expr
  | .and => .and
  | .or => .or

/-- Conditions with the connective between any two. -/
def chain (k : Connective) : Expr → List Expr → Expr
  | e, [] => e
  | e, e' :: es => k.pair e (k.chain e' es)

/-- The expression of a group, from those of the members that hold a condition. -/
def expr (k : Connective) : List Expr → Expr
  | [] => .compare .eq (.number 1) (.number 1)
  | e :: es => k.chain e es

end Connective

namespace Predicate

/-- The expression of a comparison with a value. -/
def fieldExpr (names : Nat → String) (i : Nat) (a : Term) (op : Operator) (negated : Bool) :
    Value → Expr
  | .null => .isNull negated a
  | .list [] => .compare .eq (.number 1) (.number (if negated then 1 else 0))
  | .list items =>
    .within negated a ((List.range' i items.length).map fun j => .parameter (names j))
  | _ => op.expr negated a (.parameter (names i))

mutual

/-- The expression of a condition; `i` is the number of its first operand. -/
def expr (ms : Mappings) (names : Nat → String) (i : Nat) : Predicate → Expr
  | .field c op v negated => fieldExpr names i (ms.term c) op negated v
  | .property c op other negated => op.expr negated (ms.term c) (ms.term other)
  | .between c _ _ negated =>
    .between negated (ms.term c) (.parameter (names i)) (.parameter (names (i + 1)))
  | .group k members => k.expr (memberExprs ms names i members)
  | .anyRow e p negated =>
    if negated then .not (.anyRow (ms.table e) (p.expr ms names i))
    else .anyRow (ms.table e) (p.expr ms names i)

/-- The expressions of the members of a group that hold a condition. -/
def memberExprs (ms : Mappings) (names : Nat → String) (i : Nat) : List Predicate → List Expr
  | [] => []
  | p :: ps =>
    if p.isEmpty then memberExprs ms names i ps
    else p.expr ms names i :: memberExprs ms names (i + p.operands.length) ps

end

end Predicate

/-! ## Truth values of the expressions -/

/-- The parameters with the names of the operands hold what is bound for them; `i` is the number
    of the first one. -/
def Parameters.Hold (ps : Parameters) (d : Dialect) (names : Nat → String) :
    Nat → List (String × Value) → Prop
  | _, [] => True
  | i, op :: ops => ps.get? (names i) = some (d.bindValue op.2) ∧ Hold ps d names (i + 1) ops

theorem Parameters.hold_append (ps : Parameters) (d : Dialect) (names : Nat → String) (i : Nat)
    (ops ops' : List (String × Value)) :
    ps.Hold d names i (ops ++ ops') ↔
      ps.Hold d names i ops ∧ ps.Hold d names (i + ops.length) ops' := by
  induction ops generalizing i with
  | nil => simp [Hold]
  | cons op ops ih =>
    rw [List.cons_append, Hold, Hold, ih, List.length_cons, and_assoc, Nat.add_right_comm,
      Nat.add_assoc]

theorem Parameters.hold_of_get? {ps : Parameters} {d : Dialect} {names : Nat → String} {i : Nat}
    {ops : List (String × Value)}
    (h : ∀ j, (hj : j < ops.length) → ps.get? (names (i + j)) = some (d.bindValue ops[j].2)) :
    ps.Hold d names i ops := by
  induction ops generalizing i with
  | nil => trivial
  | cons op ops ih =>
    refine ⟨h 0 (Nat.zero_lt_succ _), ih fun j hj => ?_⟩
    have hnext := h (j + 1) (Nat.succ_lt_succ hj)
    rw [Nat.add_right_comm, Nat.add_assoc]
    exact hnext

/-- The names that operands get hold them. -/
theorem Parameters.hold_bindAll (ps : Parameters) (d : Dialect) (ops : List (String × Value)) :
    (ps.bindAll (d.bound ops)).Hold d (fun i => (ps.newNames (d.bound ops)).getD i "") 0 ops := by
  refine hold_of_get? fun j hj => ?_
  have hget := ps.get?_newNames (d.bound ops) (i := j) (by rw [d.length_bound]; exact hj)
  rw [Nat.zero_add, hget]
  simp [Dialect.bound]

/-- Operands that are held stay so when more are bound. -/
theorem Parameters.Hold.bindAll {ps : Parameters} {d : Dialect} {names : Nat → String} {i : Nat}
    {ops : List (String × Value)} (h : ps.Hold d names i ops) (more : List (String × Value)) :
    (ps.bindAll more).Hold d names i ops := by
  induction ops generalizing i with
  | nil => trivial
  | cons op ops ih => exact ⟨get?_bindAll_of_eq_some h.1 more, ih h.2⟩

section Value

variable (W : World) (ps : Parameters) (scope : Scope)

theorem Mappings.value_term {ms : Mappings} {c : ColumnRef} (h : ∃ x, ms.column c = .ok x) :
    (ms.term c).value ps scope = ms.cell scope c := by
  obtain ⟨x, hx⟩ := h
  unfold term cell
  rw [hx]
  rfl

theorem value_parameter {d : Dialect} {name : String} {v : Value}
    (h : ps.get? name = some (d.bindValue v)) :
    (Term.parameter name).value ps scope = d.bindValue v := by
  rw [Term.value, h, Option.getD_some]

theorem Operator.value_expr (op : Operator) (negated : Bool) (a b : Term) :
    (op.expr negated a b).value W ps scope =
      (op.truth W (a.value ps scope) (b.value ps scope)).negatedIf negated := by
  cases negated with
  | false => cases op <;> rfl
  | true =>
    have hopposite (sign : Sign) :=
      W.compared_opposite sign (a.value ps scope) (b.value ps scope)
    cases op with
    | eq => exact hopposite .eq
    | gt => exact hopposite .gt
    | ge => exact hopposite .ge
    | lt => exact hopposite .lt
    | le => exact hopposite .le
    | like => rfl

/-- Numbers are compared as such. -/
theorem value_compare_number (n m : Nat) (hn : n < 2) (hm : m < 2) :
    (Expr.compare .eq (.number n) (.number m)).value W ps scope = .ofBool (n == m) := by
  have hcases : ∀ n m : Fin 2, (Ord.compare (Int64.ofNat n.val).toInt
      (Int64.ofNat m.val).toInt).isEq = (n.val == m.val) := by decide
  have hcompare := hcases ⟨n, hn⟩ ⟨m, hm⟩
  simp only [Expr.value, Term.value, World.compared, World.test, Value.isNull, Bool.or_false,
    Sign.holds, W.compare_int64]
  rw [← hcompare]
  rfl

theorem Connective.value_chain (k : Connective) (e : Expr) (es : List Expr) :
    (k.chain e es).value W ps scope = k.truth ((e :: es).map (Expr.value W ps scope)) := by
  induction es generalizing e with
  | nil => cases k <;> simp [chain, truth]
  | cons e' es ih =>
    rw [chain]
    cases k with
    | and => exact congrArg ((e.value W ps scope).and ·) (ih e')
    | or => exact congrArg ((e.value W ps scope).or ·) (ih e')

theorem Connective.value_expr (k : Connective) (es : List Expr) :
    (k.expr es).value W ps scope = k.truth (es.map (Expr.value W ps scope)) := by
  cases es with
  | nil => exact value_compare_number W ps scope 1 1 (by decide) (by decide)
  | cons e es => exact k.value_chain W ps scope e es

theorem value_items (d : Dialect) (names : Nat → String) (i : Nat) (base : String)
    (items : List Value) (h : ps.Hold d names i (items.map fun v => (base, v))) :
    ((List.range' i items.length).map fun j => Term.parameter (names j)).map
      (Term.value ps scope) = items.map d.bindValue := by
  induction items generalizing i with
  | nil => rfl
  | cons v items ih =>
    obtain ⟨hv, hitems⟩ := h
    rw [List.length_cons, List.range'_succ, List.map_cons, List.map_cons, List.map_cons,
      ih (i + 1) hitems, value_parameter ps scope hv]

end Value

namespace Predicate

theorem value_fieldExpr (W : World) {ps : Parameters} (scope : Scope) (d : Dialect)
    (names : Nat → String) (i : Nat) (c : ColumnRef) (a : Term) (op : Operator) (negated : Bool)
    (v : Value) (h : ps.Hold d names i (fieldOperands c v)) :
    (fieldExpr names i a op negated v).value W ps scope =
      fieldTruth W d (a.value ps scope) op negated v := by
  cases v with
  | null => rfl
  | list items =>
    cases items with
    | nil => cases negated <;> exact value_compare_number W ps scope _ _ (by decide) (by decide)
    | cons v items =>
      unfold fieldExpr fieldTruth
      rw [Expr.value, value_items ps scope d names i c.property (v :: items) h]
  | _ =>
    unfold fieldExpr fieldTruth
    rw [op.value_expr, value_parameter ps scope h.1]

/-- The expression of a condition has its truth value when the parameters hold its operands. -/
theorem value_expr (W : World) {ps : Parameters} {d : Dialect} {ms : Mappings}
    {names : Nat → String} (scope : Scope) (i : Nat) {p : Predicate} (hc : p.Compiles ms)
    (hps : ps.Hold d names i p.operands) :
    (p.expr ms names i).value W ps scope = p.truth W d ms scope := by
  induction p using treeInduction generalizing i scope with
  | field c op v negated =>
    rw [expr, value_fieldExpr W scope d names i c _ op negated v hps, truth,
      Mappings.value_term ps scope hc.1]
  | property c op other negated =>
    rw [expr, op.value_expr, truth, Mappings.value_term ps scope hc.1,
      Mappings.value_term ps scope hc.2]
  | between c low high negated =>
    obtain ⟨hlow, hhigh, -⟩ := hps
    rw [expr, Expr.value, truth, Mappings.value_term ps scope hc, value_parameter ps scope hlow,
      value_parameter ps scope hhigh]
  | group k members ih =>
    rw [Compiles, allCompile_iff] at hc
    rw [operands] at hps
    rw [expr, k.value_expr, truth]
    congr 1
    -- an empty member has no operand, so that the numbers of the next one do not move
    induction members generalizing i with
    | nil => rfl
    | cons p members ihm =>
      rw [List.forall_mem_cons] at hc
      rw [allOperands, Parameters.hold_append] at hps
      have hmembers (j : Nat) := ihm (fun q hq => ih q (List.mem_cons_of_mem p hq)) j hc.2
      rw [memberExprs, memberTruths]
      cases hp : p.isEmpty with
      | true =>
        rw [operands_of_isEmpty hp] at hps
        exact hmembers i hps.2
      | false =>
        simp only [Bool.false_eq_true, if_false]
        rw [List.map_cons, ih p List.mem_cons_self scope i hc.1 hps.1, hmembers _ hps.2]
  | anyRow e p negated ih =>
    have hrow : (Expr.anyRow (ms.table e) (p.expr ms names i)).value W ps scope =
        W.hasRow (ms.table e) fun row =>
          p.truth W d ms (scope.enter (ms.table e) row) := by
      rw [Expr.value]
      congr 1
      funext row
      exact ih _ i hc.2 hps
    rw [expr, truth, ← hrow]
    cases negated <;> rfl

end Predicate

end EntitySql
