/-
  Statements: SQL text with the parameters that it names.
-/
import EntitySql.Parameters
import EntitySql.Text.Blank
import EntitySql.Text.Truncated

namespace EntitySql

/-- SQL text and its parameters. -/
structure Statement where
  /-- The text. -/
  sql : String
  /-- The parameters that the text names. -/
  parameters : Parameters := {}

instance : Inhabited Statement := ⟨⟨"", {}⟩⟩

namespace Statement

/-- How many bytes of a statement a message shows. -/
def shownBytes : Nat := 497

/-- The start of the text for messages; dots stand for the rest. -/
def display (s : Statement) : String :=
  Text.trimEnd (Text.truncated s.sql shownBytes) ++
    if s.sql.utf8ByteSize > shownBytes then "..." else ""

end Statement

end EntitySql
