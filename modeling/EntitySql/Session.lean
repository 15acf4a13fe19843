/-
  Sessions: what changes while statements are written and sent, and the sending itself.
-/
import EntitySql.Executor
import EntitySql.Query

namespace EntitySql

/-- What changes during a session. -/
structure Session (σ : Type) where
  /-- The workspace. -/
  workspace : Workspace := {}
  /-- Number of identifiers drawn. -/
  drawn : Nat := 0
  /-- The state of the executor. -/
  executor : σ

/-- A step of a session, which may fail and keeps what was done. -/
abbrev Act (σ : Type) := EStateM Error (Session σ)

/-- What a session works with. -/
structure Database (σ : Type) where
  /-- The dialect and the mappings. -/
  setting : Setting
  /-- The supply of identifiers. -/
  identifiers : IdentifierSource
  /-- The executor. -/
  executor : Executor σ

namespace Act

variable {σ : Type}

/-- Work in the workspace, which the executor does not see. -/
def work {α : Type} (job : Work α) : Act σ α := fun s =>
  match job s.workspace with
  | .ok x w => .ok x { s with workspace := w }
  | .error e w => .error e { s with workspace := w }

/-- Goes on with an answer, or fails with its reason. -/
def ofExcept {α : Type} : Except Error α → Act σ α
  | .ok x => pure x
  | .error e => throw e

/-- Adds a record. -/
def note (level : LogLevel) (text : String) : Act σ Unit := work (Work.note level text)

/-- Adds records, and goes on with the answer that they came with. -/
def recorded {α : Type} (answer : List LogRecord × Except Error α) : Act σ α := do
  modify fun s => { s with workspace := { s.workspace with log := s.workspace.log ++ answer.1 } }
  ofExcept answer.2

/-- A statement written with parameters of its own. -/
def statement (sql : Work String) : Act σ Statement := do
  modify fun s => { s with workspace := { s.workspace with parameters := {} } }
  let sql ← work sql
  return ⟨sql, (← get).workspace.parameters⟩

/-- Records a statement that is about to be sent, with its parameters. -/
def announce (st : Statement) : Act σ Unit := do
  note .debug st.display
  recorded (st.parameters.entries.map fun entry =>
    ⟨.trace, "  " ++ entry.1 ++ " = " ++ entry.2.display⟩, .ok ())

/-- Hands the state of the executor to one of its functions. -/
def sending {α : Type} (send : σ → Except Error α × σ) : Act σ α := fun s =>
  match send s.executor with
  | (.ok x, executor) => .ok x { s with executor := executor }
  | (.error e, executor) => .error e { s with executor := executor }

/-- Sends a statement for its rows. -/
def fetch (x : Executor σ) (st : Statement) : Act σ RowSet := do
  announce st
  sending (x.rows st)

/-- Sends a statement for the number of rows it changes. -/
def execute (x : Executor σ) (st : Statement) : Act σ UInt64 := do
  announce st
  sending (x.count st)

/-- Sends several selects at once. -/
def fetchBatch (x : Executor σ) (st : Statement) : Act σ (List RowSet) := do
  announce st
  sending (x.runBatch st)

end Act

end EntitySql
