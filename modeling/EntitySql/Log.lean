/-
  Records of what was done, with a level each.
-/

namespace EntitySql

/-- How important a record is. -/
inductive LogLevel where
  | error | warn | info | debug | trace
deriving DecidableEq

namespace LogLevel

/-- The name of the level. -/
def label : LogLevel → String
  | .error => "ERROR"
  | .warn => "WARN"
  | .info => "INFO"
  | .debug => "DEBUG"
  | .trace => "TRACE"

/-- The place of the level, the most important first. -/
def rank : LogLevel → Nat
  | .error => 1
  | .warn => 2
  | .info => 3
  | .debug => 4
  | .trace => 5

end LogLevel

/-- A record. -/
structure LogRecord where
  /-- How important it is. -/
  level : LogLevel
  /-- What it says. -/
  text : String
deriving DecidableEq

/-- The records up to the most detailed level that is kept. -/
def keptRecords (most : LogLevel) (records : List LogRecord) : List LogRecord :=
  records.filter fun r => r.level.rank ≤ most.rank

end EntitySql
