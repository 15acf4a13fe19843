/-
  Executors: whatever sends statements to a database, and the readings of what it answers.
-/
import EntitySql.Row
import EntitySql.Statement

namespace EntitySql

namespace Executor

/-- The rows and failures of a stream. -/
def rowStream : List (Except Error ResultItem) → List (Except Error Row)
  | [] => []
  | .ok (.row r) :: items => .ok r :: rowStream items
  | .ok (.affected _) :: items => rowStream items
  | .error e :: items => .error e :: rowStream items

/-- The rows of a stream, or its first failure. -/
def collected : List (Except Error Row) → Except Error RowSet
  | [] => .ok []
  | .ok r :: rows => (collected rows).map (r :: ·)
  | .error e :: _ => .error e

/-- The counts of a stream together, behind those before, or its first failure. Each count is added
    as it comes, so an overflow in front of a failure is the answer. -/
def affectedOf (sum : RowsAffected) : List (Except Error ResultItem) → Except Error RowsAffected
  | [] => .ok sum
  | .ok (.row _) :: items => affectedOf sum items
  | .ok (.affected n) :: items => do affectedOf (← sum.append n) items
  | .error e :: _ => .error e

end Executor

/-- A way to send statements, with a state of its own. Everything but the first function can be
    left to the readings of what the first one answers. -/
structure Executor (σ : Type) where
  /-- Sends a statement; the answer is a stream of rows, counts and failures. -/
  run : Statement → σ → List (Except Error ResultItem) × σ
  /-- Sends a statement; the answer is a stream of rows and failures. -/
  fetch : Statement → σ → List (Except Error Row) × σ :=
    fun st s => let answer := run st s; (Executor.rowStream answer.1, answer.2)
  /-- Sends a statement; the answer is the number of rows it changes. -/
  execute : Statement → σ → Except Error RowsAffected × σ :=
    fun st s => let answer := run st s; (Executor.affectedOf {} answer.1, answer.2)
  /-- Sends several selects at once; the answer is one result set for each. An executor that
      cannot tell result sets apart refuses. -/
  runBatch : Statement → σ → Except Error (List RowSet) × σ :=
    fun _ s => (.error (.query (.unsupported .resultSets)), s)

namespace Executor

/-- Sends a statement for its rows. -/
def rows {σ : Type} (x : Executor σ) (st : Statement) (s : σ) : Except Error RowSet × σ :=
  let answer := x.fetch st s
  (collected answer.1, answer.2)

/-- Sends a statement for the number of rows it changes. -/
def count {σ : Type} (x : Executor σ) (st : Statement) (s : σ) : Except Error UInt64 × σ :=
  let answer := x.execute st s
  (answer.1.map (·.rows), answer.2)

end Executor

end EntitySql
