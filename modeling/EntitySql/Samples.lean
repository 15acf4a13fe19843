/-
  Sample entities, one for every kind of key and for the options of a mapping.
-/
import EntitySql.Record

namespace EntitySql.Samples

/-- An identity key found by convention, and an ignored property. -/
def person : RecordType where
  table := "person"
  fields :=
    [⟨"id", some (.integer .int64), none⟩, ⟨"first_name", some .text, none⟩,
     ⟨"last_name", some .text, none⟩, ⟨"age", some (.option (.integer .int32)), none⟩,
     ⟨"active", some .boolean, none⟩, ⟨"date_created", some (.option .timestamp), none⟩,
     ⟨"full_name", some .text, none⟩]
  steps :=
    [.insert { name := "full_name", ignored := true },
     .addConventional ["id", "first_name", "last_name", "age", "active", "date_created"]]

/-- An identifier key found by convention. -/
def animal : RecordType where
  table := "animal"
  fields := [⟨"id", some .uuid, none⟩, ⟨"name", some .text, none⟩]
  steps := [.addConventional ["id", "name"]]

/-- A key of two assigned properties. -/
def multikey : RecordType where
  table := "multikey"
  fields :=
    [⟨"key1", some (.integer .int64), none⟩, ⟨"key2", some .text, none⟩,
     ⟨"value", some .text, none⟩]
  steps :=
    [.insert { name := "key1", key := .assigned }, .insert { name := "key2", key := .assigned },
     .insert { name := "value" }]

/-- A schema, columns with names of their own and a column that is never written. -/
def car : RecordType where
  table := "cars"
  schema := some "garage"
  entity := some "Car"
  fields :=
    [⟨"id", some .text, none⟩, ⟨"name", some .text, none⟩,
     ⟨"mileage", some (.integer .int64), none⟩]
  steps :=
    [.insert { name := "id", column := "car_id", key := .assigned },
     .insert { name := "name", column := "car_name" },
     .insert { name := "mileage", readOnly := true }]

/-- Nothing but a generated key. -/
def ticket : RecordType where
  table := "ticket"
  fields := [⟨"ticket_id", some (.integer .int64), none⟩]
  steps := [.addConventional ["ticket_id"]]
  lenient := true

/-- The samples by name. -/
def all : Registry :=
  [("Person", person), ("Animal", animal), ("Multikey", multikey), ("Car", car),
   ("Ticket", ticket)]

end EntitySql.Samples
