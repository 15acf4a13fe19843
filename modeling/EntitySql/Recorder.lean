/-
  A connection that records what it is sent and answers from a script.
-/
import EntitySql.Executor

namespace EntitySql

/-- The scripted answer to a statement. -/
inductive Response where
  /-- Rows and counts. -/
  | items (items : List ResultItem)
  /-- Result sets. -/
  | sets (sets : List RowSet)
  /-- A failure. -/
  | failure (message : String)

/-- The state of a recording connection. -/
structure Recorder where
  /-- The statements received, the oldest first. -/
  statements : List Statement := []
  /-- The answers to come. -/
  responses : List Response := []
  /-- Whether the result sets of a batch are told apart. -/
  splits : Bool := true
  /-- Number of transactions begun. -/
  transactions : Nat := 0
  /-- Number of transactions committed. -/
  commits : Nat := 0
  /-- Number of transactions rolled back. -/
  rollbacks : Nat := 0

namespace Recorder

/-- Adds an answer to the script. -/
def respond (r : Recorder) (response : Response) : Recorder :=
  { r with responses := r.responses ++ [response] }

/-- Records a statement. -/
def record (r : Recorder) (st : Statement) : Recorder :=
  { r with statements := r.statements ++ [st] }

/-- The next answer, and the recorder without it. -/
def next (r : Recorder) : Option Response × Recorder :=
  (r.responses.head?, { r with responses := r.responses.tail })

/-- The stream that an answer stands for. A statement without one answers nothing. -/
def stream : Option Response → List (Except Error ResultItem)
  | none => []
  | some (.items items) => items.map .ok
  | some (.sets sets) => sets.flatten.map fun row => .ok (.row row)
  | some (.failure message) => [.error (.external message)]

/-- The result sets that an answer stands for. -/
def resultSets : Option Response → Except Error (List RowSet)
  | none => .ok []
  | some (.items items) =>
    .ok [items.filterMap fun item => match item with
      | .row row => some row
      | .affected _ => none]
  | some (.sets sets) => .ok sets
  | some (.failure message) => .error (.external message)

/-- Records a statement and answers it. -/
def run (st : Statement) (r : Recorder) : List (Except Error ResultItem) × Recorder :=
  let (response, r) := (r.record st).next
  (stream response, r)

/-- Records a batch and answers it, unless result sets are not told apart. -/
def runBatch (st : Statement) (r : Recorder) : Except Error (List RowSet) × Recorder :=
  let r := r.record st
  if r.splits then
    let (response, r) := r.next
    (resultSets response, r)
  else
    (.error (.query (.unsupported
      (.other "The mock connection does not split result sets"))), r)

/-- Begins a transaction. -/
def begin (r : Recorder) : Recorder := { r with transactions := r.transactions + 1 }

/-- Commits a transaction. -/
def commit (r : Recorder) : Recorder := { r with commits := r.commits + 1 }

/-- Rolls a transaction back. -/
def rollback (r : Recorder) : Recorder := { r with rollbacks := r.rollbacks + 1 }

/-- The connection as an executor. -/
def executor : Executor Recorder := { run := run, runBatch := runBatch }

/-- The connection as an executor that refuses batches. -/
def plainExecutor : Executor Recorder := { run := run }

end Recorder

end EntitySql
