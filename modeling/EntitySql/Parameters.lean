/-
  The parameters of a statement: values by name, in the order in which the names came first.
-/
import EntitySql.Value

namespace EntitySql

/-- Named values in the order of their binding. -/
structure Parameters where
  /-- The names and their values. -/
  entries : List (String × Value) := []

namespace Parameters

/-- No parameter. -/
def empty : Parameters := {}

instance : Inhabited Parameters := ⟨empty⟩

/-- The names in order. -/
def names (ps : Parameters) : List String := ps.entries.map (·.1)

/-- The value of a name. -/
def get? (ps : Parameters) (name : String) : Option Value := ps.entries.lookup name

/-- Whether a name has a value. -/
def contains (ps : Parameters) (name : String) : Bool := ps.entries.any (·.1 == name)

/-- Number of names. -/
def size (ps : Parameters) : Nat := ps.entries.length

/-- Whether there is no name. -/
def isEmpty (ps : Parameters) : Bool := ps.entries.isEmpty

/-- Entries with the value of a name replaced, or with the name at the end. -/
def put (name : String) (value : Value) : List (String × Value) → List (String × Value)
  | [] => [(name, value)]
  | (n, v) :: entries =>
    if n = name then (n, value) :: entries else (n, v) :: put name value entries

/-- The parameters with a value for a name. A name that is known keeps its place. -/
def insert (ps : Parameters) (name : String) (value : Value) : Parameters :=
  ⟨put name value ps.entries⟩

/-- The parameters with the entries of others inserted in order. -/
def extend (ps others : Parameters) : Parameters :=
  others.entries.foldl (fun ps entry => ps.insert entry.1 entry.2) ps

/-- The parameters of a list of names and values; the last value of a name counts. -/
def ofList (entries : List (String × Value)) : Parameters := empty.extend ⟨entries⟩

/-- The name made of a base and a number. -/
def numbered (base : String) (i : Nat) : String := base ++ "_" ++ toString i

/-- The first number whose name with the base is free. As many numbers as there are names, and
    one more, hold a free one. -/
def freshIndex (ps : Parameters) (base : String) : Nat :=
  ((List.range (ps.size + 1)).find? fun i => !ps.contains (numbered base i)).getD 0

/-- The name that the next binding with the base gets. -/
def freshName (ps : Parameters) (base : String) : String := numbered base (ps.freshIndex base)

/-- The parameters with a value under a fresh name. -/
def bind (ps : Parameters) (base : String) (value : Value) : Parameters :=
  ps.insert (ps.freshName base) value

end Parameters

end EntitySql
