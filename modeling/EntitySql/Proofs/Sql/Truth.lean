/-
  The three truth values of SQL, and the laws of negation over conjunctions and disjunctions of
  any length.
-/

namespace EntitySql.Sql

/-- A truth value; a comparison with nothing has the third. -/
inductive Truth where
  | yes | no | unknown
deriving DecidableEq

namespace Truth

/-- The truth value of a decision. -/
def ofBool (b : Bool) : Truth := if b then .yes else .no

/-- Yes and no exchanged. -/
def not : Truth → Truth
  | .yes => .no
  | .no => .yes
  | .unknown => .unknown

/-- No when one is, else unknown when one is. -/
def and : Truth → Truth → Truth
  | .no, _ => .no
  | _, .no => .no
  | .yes, t => t
  | .unknown, _ => .unknown

/-- Yes when one is, else unknown when one is. -/
def or : Truth → Truth → Truth
  | .yes, _ => .yes
  | _, .yes => .yes
  | .no, t => t
  | .unknown, _ => .unknown

/-- The truth value, or the opposite one. -/
def negatedIf (negated : Bool) (t : Truth) : Truth := if negated then t.not else t

/-- Several truth values together. -/
def all (ts : List Truth) : Truth := ts.foldr and .yes

/-- One of several truth values. -/
def any (ts : List Truth) : Truth := ts.foldr or .no

@[simp] theorem not_not (t : Truth) : t.not.not = t := by cases t <;> rfl

theorem not_ofBool (b : Bool) : (ofBool b).not = ofBool (!b) := by cases b <;> rfl

@[simp] theorem not_and (a b : Truth) : (a.and b).not = a.not.or b.not := by
  cases a <;> cases b <;> rfl

@[simp] theorem not_or (a b : Truth) : (a.or b).not = a.not.and b.not := by
  cases a <;> cases b <;> rfl

@[simp] theorem and_yes (t : Truth) : t.and .yes = t := by cases t <;> rfl

@[simp] theorem or_no (t : Truth) : t.or .no = t := by cases t <;> rfl

theorem not_negatedIf (negated : Bool) (t : Truth) :
    (t.negatedIf negated).not = t.negatedIf !negated := by
  cases negated <;> simp [negatedIf]

@[simp] theorem all_nil : all [] = .yes := rfl

@[simp] theorem any_nil : any [] = .no := rfl

@[simp] theorem all_cons (t : Truth) (ts : List Truth) : all (t :: ts) = t.and (all ts) := rfl

@[simp] theorem any_cons (t : Truth) (ts : List Truth) : any (t :: ts) = t.or (any ts) := rfl

/-- Several truth values together are yes when each is. -/
theorem all_eq_yes {ts : List Truth} : all ts = .yes ↔ ∀ t ∈ ts, t = .yes := by
  induction ts with
  | nil => simp
  | cons t ts ih =>
    rw [all_cons, List.forall_mem_cons, ← ih]
    cases t <;> cases all ts <;> decide

theorem not_all (ts : List Truth) : (all ts).not = any (ts.map not) := by
  induction ts with
  | nil => rfl
  | cons t ts ih => rw [all_cons, not_and, ih, List.map_cons, any_cons]

theorem not_any (ts : List Truth) : (any ts).not = all (ts.map not) := by
  induction ts with
  | nil => rfl
  | cons t ts ih => rw [any_cons, not_or, ih, List.map_cons, all_cons]

end Truth

end EntitySql.Sql
