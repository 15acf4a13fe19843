/-
  The behaviour that every dialect shares, as a run of checks against a recording connection.
  The run ends at the first check that fails; the records made until then are kept.
-/
import EntitySql.Database
import EntitySql.Recorder
import EntitySql.Samples
import EntitySql.Text.Search

namespace EntitySql

/-- A run of checks, which fails without a reason. -/
abbrev Trial := EStateM Unit (Session Recorder)

namespace Trial

/-! ## Checks -/

/-- Fails unless a condition holds. -/
def ensure (b : Bool) : Trial Unit := if b then pure () else throw ()

/-- What there has to be. -/
def present {α : Type} : Option α → Trial α
  | some x => pure x
  | none => throw ()

/-- The answer of a step that has to succeed. -/
def answer {α : Type} (step : Act Recorder α) : Trial α := fun s =>
  match step s with
  | .ok x s => .ok x s
  | .error _ s => .error () s

/-- The failure of a step that has to fail. -/
def failure {α : Type} (step : Act Recorder α) : Trial Error := fun s =>
  match step s with
  | .ok _ s => .error () s
  | .error e s => .ok e s

/-- A step that has to fail, for a reason of this library. -/
def refusal {α : Type} (step : Act Recorder α) (expected : QueryError → Bool) : Trial Unit := do
  ensure ((← failure step).query?.any expected)

/-- Checks that leave no record. -/
def quietly (t : Trial Unit) : Trial Unit := fun s =>
  match t s with
  | .ok x after => .ok x { after with workspace := { after.workspace with log := s.workspace.log } }
  | .error e after =>
    .error e { after with workspace := { after.workspace with log := s.workspace.log } }

/-! ## The connection -/

/-- Begins with an empty catalog. The records are kept. -/
def restart : Trial Unit :=
  modify fun s => { s with workspace := { log := s.workspace.log }, executor := {} }

/-- Goes on with another connection. -/
def reconnect (r : Recorder) : Trial Unit := modify fun s => { s with executor := r }

/-- Changes the connection. -/
def onRecorder (f : Recorder → Recorder) : Trial Unit :=
  modify fun s => { s with executor := f s.executor }

/-- Adds an answer to the script. -/
def respond (response : Response) : Trial Unit := onRecorder (·.respond response)

/-- Adds rows to the script. -/
def respondRows (rows : RowSet) : Trial Unit := respond (.items (rows.map .row))

/-- Adds a count to the script. -/
def respondAffected (rows : UInt64) : Trial Unit := respond (.items [.affected ⟨rows, none⟩])

/-- The statements received since they were last taken. -/
def statements : Trial (List Statement) := do return (← get).executor.statements

/-- Takes the statements received. -/
def takeStatements : Trial (List Statement) := do
  let sent ← statements
  onRecorder fun r => { r with statements := [] }
  return sent

/-- Takes the statements received, the last of which there has to be. -/
def takeLast : Trial Statement := do present (← takeStatements).getLast?

/-- Nothing may have been sent. -/
def ensureNothingSent : Trial Unit := do ensure (← statements).isEmpty

/-! ## Data -/

/-- Whether a parameter has a value. -/
def holds (st : Statement) (name : String) (v : Value) : Bool :=
  (st.parameters.get? name).any (·.same v)

/-- Whether a property has a value. -/
def isSet (E : Entity Record) (e : Record) (name : String) (v : Value) : Bool :=
  (E.get? e name).any (·.same v)

/-- An entity with the given properties. -/
def make (E : Entity Record) (changes : List (String × Value)) : Trial Record :=
  answer (Act.ofExcept (E.setAll E.fresh changes))

/-- An integer of 64 bits. -/
def int (i : Int) : Value := .int64 (Int64.ofInt i)

/-- Rows under the same labels. -/
def rows (labels : List String) (values : List (List Value)) : RowSet := values.map (Row.mk labels)

/-- Inserts an entity, and answers its key and what became of it. -/
def insert (db : Database Recorder) (E : Entity Record) (e : Record) : Trial (Key × Record) :=
  fun s =>
    match db.insertOne E e s with
    | (.ok key, e, s) => .ok (key, e) s
    | (.error _, _, s) => .error () s

end Trial

namespace Conformance

open Trial

/-- The sample of a name. -/
def sample (name : String) : Entity Record := Samples.all.entity name

/-- A connection of a dialect to the samples. -/
def database (d : Dialect) : Database Recorder :=
  ⟨⟨d, Samples.all.model⟩, IdentifierSource.scattered, Recorder.executor⟩

/-- A column of a sample. -/
def column (entity property : String) : ColumnRef := ⟨⟨entity⟩, property⟩

/-- A comparison of a column of a sample. -/
def comparison (entity property : String) (op : Operator) (v : Value) : Predicate :=
  .field (column entity property) op v false

/-- Scripts an insertion that generates a key. -/
def respondIdentity (d : Dialect) (id : Int) : Trial Unit := do
  let identity := rows ["Id"] [[int id]]
  if d.batches then respond (.items (.affected ⟨1, none⟩ :: identity.map .row))
  else
    respondAffected 1
    respondRows identity

/-! ## Keys -/

/-- Insertions with a generated key. -/
def insertsIdentity (d : Dialect) : Trial Record := do
  let db := database d
  let E := sample "Person"
  respondIdentity d 42
  let person ← make E
    [("first_name", .text "Foo"), ("last_name", .text "Bar"), ("age", .int32 30),
     ("active", .boolean true), ("full_name", .text "Foo Bar")]
  let (key, person) ← insert db E person
  ensure (key.same (.int64 42))
  ensure (isSet E person "id" (int 42))
  let sent ← takeStatements
  ensure (sent.length == if d.batches then 1 else 2)
  let insertion ← present sent.head?
  ensure (Text.beginsWith insertion.sql "INSERT INTO ")
  ensure (Text.occursIn d.separator insertion.sql == d.batches)
  ensure (!insertion.parameters.contains "id")
  ensure (!insertion.parameters.contains "full_name")
  ensure (insertion.parameters.size == 5)
  ensure (holds insertion "first_name" (.text "Foo"))
  ensure (holds insertion "age" (.int32 30))
  ensure (holds insertion "date_created" .null)
  respondIdentity d 7
  let (_, ticket) ← insert db (sample "Ticket") (sample "Ticket").fresh
  ensure (isSet (sample "Ticket") ticket "ticket_id" (int 7))
  ensure (← present (← takeStatements).head?).parameters.isEmpty
  return person

/-- Insertions with a key that is drawn, or was set. -/
def insertsGuid (d : Dialect) : Trial Unit := do
  let db := database d
  let E := sample "Animal"
  let keyIs (key : Key) (e : Record) : Bool :=
    match E.get? e "id" with
    | some (.uuid u) => !u.isNil && key.same (.uuid u)
    | _ => false
  let (key, animal) ← insert db E (← make E [("name", .text "Bella")])
  ensure (keyIs key animal)
  let id ← present (E.get? animal "id")
  ensure (holds (← takeLast) "id" (d.bindValue id))
  let given ← answer (Inserting.draw db.identifiers)
  let (key, animal) ← insert db E (← make E [("id", .uuid given), ("name", .text "Luna")])
  ensure (key.same (.uuid given))
  ensure (isSet E animal "id" (.uuid given))

/-- Insertions with a key of several parts. -/
def insertsComposite (d : Dialect) : Trial Record := do
  let E := sample "Multikey"
  let multikey ← make E [("key1", int 1), ("key2", .text "a"), ("value", .text "first")]
  let (key, multikey) ← insert (database d) E multikey
  ensure (key.same (.composite [("key1", .int64 1), ("key2", .text "a")]))
  ensure ((key.part? "key2").any (·.same (.text "a")))
  ensure ((← takeLast).parameters.size == 3)
  return multikey

/-- Updates by key; the answer is the updated entity. -/
def updates (d : Dialect) (person multikey : Record) : Trial (Record × Record) := do
  let db := database d
  let E := sample "Person"
  respondAffected 1
  let person ← answer (Act.ofExcept (E.set person "age" (.int32 31)))
  ensure (← answer (db.update E person false))
  let update ← takeLast
  ensure (Text.beginsWith update.sql "UPDATE ")
  ensure (holds update "id" (int 42))
  ensure (holds update "age" (.int32 31))
  ensure (!update.parameters.contains "full_name")
  respondAffected 0
  ensure (!(← answer (db.update E person false)))
  respondAffected 1
  let M := sample "Multikey"
  let multikey ← answer (Act.ofExcept (M.set multikey "value" (.text "second")))
  ensure (← answer (db.update M multikey true))
  let (assignments, condition) ←
    present (Text.splitAround " WHERE ".toList (← takeLast).sql.toList)
  let mentions (cs : List Char) (name : String) : Bool := Text.occursIn name (String.ofList cs)
  ensure (!mentions assignments "key1")
  ensure (mentions condition "key1" && mentions condition "key2")
  ensure (mentions condition " AND ")
  return (person, multikey)

/-- Selects by key. -/
def finds (d : Dialect) : Trial Unit := do
  let db := database d
  let E := sample "Person"
  let M := sample "Multikey"
  respondRows (rows ["id", "first_name", "last_name", "age", "active", "date_created"]
    [[int 42, .text "Foo", .text "Bar", .int32 31, .boolean true, .null]])
  let found ← present (← answer (db.get E (.int64 42)))
  ensure (isSet E found "first_name" (.text "Foo"))
  ensure (isSet E found "age" (.int32 31))
  ensure (isSet E found "full_name" (.text ""))
  ensure (holds (← takeLast) "id" (int 42))
  ensure (← answer (db.get E (.int64 43))).isNone
  let isMismatch (e : QueryError) : Bool :=
    match e with
    | .keyMismatch .. => true
    | _ => false
  refusal (db.get M (.int64 1)) isMismatch
  refusal (db.get M (.composite [("key1", .int64 1)])) isMismatch
  let _ ← answer (db.get M (.composite [("key1", .int64 1), ("key2", .text "a")]))
  ensure ((← takeLast).parameters.size == 2)

/-- Deletions by key. -/
def deletes (d : Dialect) (person multikey : Record) : Trial Unit := do
  let db := database d
  let E := sample "Person"
  respondAffected 1
  ensure (← answer (db.delete E person))
  let deletion ← takeLast
  ensure (Text.beginsWith deletion.sql "DELETE FROM ")
  ensure (deletion.parameters.size == 1)
  ensure (!(← answer (db.delete E person)))
  respond (.failure "constraint violated")
  let e ← failure (db.delete (sample "Multikey") multikey)
  ensure e.query?.isNone
  ensure (e.message == "constraint violated")
  ensure (← get).executor.responses.isEmpty

/-- The operations by key. -/
def keys (d : Dialect) : Trial Unit := do
  restart
  let person ← insertsIdentity d
  insertsGuid d
  let multikey ← insertsComposite d
  let (person, multikey) ← updates d person multikey
  finds d
  deletes d person multikey

/-! ## Conditions -/

/-- Selects by a condition, and all rows. -/
def lists (d : Dialect) : Trial Unit := do
  let db := database d
  let E := sample "Animal"
  let bella ← answer (Inserting.draw db.identifiers)
  let luna ← answer (Inserting.draw db.identifiers)
  respondRows (rows ["id", "name"]
    [[.uuid bella, .text "Bella"], [.uuid luna, .text "Luna"]])
  let animals ← answer (db.getList E (some (comparison "Animal" "name" .like (.text "%a")))
    [⟨column "Animal" "name", true⟩])
  ensure (animals.length == 2)
  ensure (isSet E (← present animals[1]?) "name" (.text "Luna"))
  let select ← takeLast
  ensure (Text.beginsWith select.sql "SELECT ")
  ensure (Text.occursIn ("LIKE " ++ d.placeholder "name_0") select.sql)
  ensure (Text.endsWith select.sql " ASC")
  ensure (holds select "name_0" (.text "%a"))
  let _ ← answer (db.getList E none [])
  let select ← takeLast
  ensure (!Text.occursIn " WHERE " select.sql)
  ensure select.parameters.isEmpty

/-- Windows of rows. -/
def windows (d : Dialect) : Trial Unit := do
  let db := database d
  let E := sample "Person"
  let byName : List OrderTerm :=
    [⟨column "Person" "last_name", true⟩, ⟨column "Person" "first_name", false⟩]
  let _ ← answer (db.getPage E none byName 3 10)
  let page ← takeLast
  ensure (holds page "_skip_0" (int 20))
  ensure (holds page "_take_0" (int 10))
  let active := comparison "Person" "active" .eq (.boolean true)
  let _ ← answer (db.getSet E (some active) byName 5 3)
  let set ← takeLast
  ensure (holds set "_skip_0" (int 5))
  ensure (holds set "_take_0" (int 3))
  ensure (holds set "active_0" (.boolean true))
  quietly (refusal (db.getPage E none [] 1 10) fun e =>
    match e with
    | .missingSort _ => true
    | _ => false)
  let isInvalid (e : QueryError) : Bool :=
    match e with
    | .invalidWindow _ => true
    | _ => false
  refusal (db.getPage E none byName 0 10) isInvalid
  refusal (db.getSet E none byName 0 0) isInvalid
  ensureNothingSent

/-- Counts and deletions by a condition. -/
def countsAndDeletes (d : Dialect) : Trial Unit := do
  let db := database d
  let person : EntityType := ⟨"Person"⟩
  respondRows (rows ["Total"] [[int 12]])
  ensure ((← answer (db.count person (some (comparison "Person" "age" .eq .null).negate))) == 12)
  let select ← takeLast
  ensure (Text.beginsWith select.sql "SELECT COUNT(*)")
  ensure (Text.occursIn "IS NOT NULL" select.sql)
  ensure select.parameters.isEmpty
  let isEmpty (e : QueryError) : Bool :=
    match e with
    | .emptyPredicate _ => true
    | _ => false
  quietly (refusal (db.deleteWhere person none) isEmpty)
  quietly (refusal (db.deleteWhere person (some (.group .and []))) isEmpty)
  ensureNothingSent
  respondAffected 3
  let old : Predicate := .group .or
    [comparison "Person" "age" .gt (.int32 90), comparison "Person" "age" .lt (.int32 10)]
  ensure (← answer (db.deleteWhere person (some old)))
  let deletion ← takeLast
  ensure (Text.beginsWith deletion.sql "DELETE FROM ")
  ensure (Text.occursIn " OR " deletion.sql)
  ensure (holds deletion "age_0" (.int32 90))
  ensure (holds deletion "age_1" (.int32 10))

/-- The operations by condition. -/
def conditions (d : Dialect) : Trial Unit := do
  restart
  lists d
  windows d
  countsAndDeletes d
  let find (property : String) : Act Recorder (List Record) :=
    (database d).getList (sample "Person")
      (some (comparison "Person" property .eq (.text "x"))) []
  refusal (find "nickname") fun e =>
    match e with
    | .unknownProperty .. => true
    | _ => false
  refusal (find "full_name") fun e =>
    match e with
    | .ignoredProperty .. => true
    | _ => false
  ensureNothingSent

/-! ## Several selects -/

/-- Rows of the first select. -/
def people : RowSet :=
  rows ["id", "first_name", "last_name"]
    [[int 1, .text "Ada", .text "Lovelace"], [int 2, .text "Alan", .text "Turing"]]

/-- Rows of the second select. -/
def animals (id : Uuid) : RowSet := rows ["id", "name"] [[.text id.text, .text "Bella"]]

/-- Two selects of different entities. -/
def twoSelects : List Selection :=
  [{ entity := ⟨"Person"⟩, condition := some (comparison "Person" "active" .eq (.boolean true))
     order := [⟨column "Person" "last_name", true⟩], window := some (.page 1 10) },
   { entity := ⟨"Animal"⟩, condition := some (comparison "Animal" "name" .eq (.text "Bella")) }]

/-- The entities of the next result set. -/
def read (d : Dialect) (name : String) (r : ResultReader) :
    Trial (Except Error (List Record) × ResultReader) := fun s =>
  let (entities, r, w) := r.read (database d).setting (sample name) s.workspace
  .ok (entities, r) { s with workspace := w }

/-- The entities of the next result set, which has to be readable. -/
def readAll (d : Dialect) (name : String) (r : ResultReader) :
    Trial (List Record × ResultReader) := do
  let (entities, r) ← read d name r
  return (← answer (Act.ofExcept entities), r)

/-- The next result set may not be readable, for a reason of this library. -/
def refusesReading (d : Dialect) (name : String) (r : ResultReader)
    (expected : QueryError → Bool) : Trial Unit := do
  let (entities, _) ← read d name r
  refusal (Act.ofExcept entities) expected

/-- Result sets are handed out in order, each once. -/
def readsInOrder (d : Dialect) (reader : ResultReader) : Trial Unit := do
  ensure (reader.remaining == 2)
  refusesReading d "Animal" reader fun e =>
    match e with
    | .resultSetMismatch .. => true
    | _ => false
  let (persons, reader) ← readAll d "Person" reader
  ensure (persons.length == 2)
  ensure (isSet (sample "Person") (← present persons[1]?) "last_name" (.text "Turing"))
  let (pets, reader) ← readAll d "Animal" reader
  ensure (pets.length == 1)
  ensure (!isSet (sample "Animal") (← present pets[0]?) "id" (.uuid Uuid.nil))
  refusesReading d "Person" reader fun e =>
    match e with
    | .noMoreResults => true
    | _ => false

/-- Several selects at once, or one after the other. -/
def severalSelects (d : Dialect) : Trial Unit := do
  restart
  let db := database d
  let pets := animals (← answer (Inserting.draw db.identifiers))
  if d.batches then respond (.sets [people, pets])
  else
    respondRows people
    respondRows pets
  let reader ← answer (db.getMultiple twoSelects)
  let sent ← takeStatements
  if d.batches then
    ensure (sent.length == 1)
    let batch ← present sent.head?
    ensure (Text.occursIn d.separator batch.sql)
    ensure (batch.parameters.contains "active_0")
    ensure (batch.parameters.contains "name_0")
  else ensure (sent.length == 2)
  readsInOrder d reader
  reconnect {}
  ensure ((← answer (db.getMultiple [])).remaining == 0)
  ensureNothingSent
  if d.batches then
    reconnect { splits := false }
    respondRows people
    respondRows pets
    let reader ← answer (db.getMultiple twoSelects)
    ensure ((← statements).length == 3)
    let (persons, reader) ← readAll d "Person" reader
    ensure (persons.length == 2)
    let (pets, _) ← readAll d "Animal" reader
    ensure (pets.length == 1)

/-! ## Transactions -/

/-- Statements inside a transaction go to its connection. -/
def transactions (d : Dialect) : Trial Unit := do
  restart
  let db := database d
  let E := sample "Animal"
  onRecorder Recorder.begin
  let (_, animal) ← insert db E (← make E [("name", .text "Rex")])
  onRecorder Recorder.commit
  onRecorder Recorder.begin
  let _ ← answer (db.delete E animal)
  onRecorder Recorder.rollback
  let r := (← get).executor
  ensure (r.transactions == 2)
  ensure (r.commits == 1)
  ensure (r.rollbacks == 1)
  ensure (r.statements.length == 2)
  ensure (Text.beginsWith (← present r.statements[0]?).sql "INSERT INTO ")
  ensure (Text.beginsWith (← present r.statements[1]?).sql "DELETE FROM ")

/-- All checks of a dialect. -/
def all (d : Dialect) : Trial Unit := do
  keys d
  conditions d
  severalSelects d
  transactions d

/-- Whether a dialect passes, and the records made until the end or the first failed check. -/
def run (d : Dialect) : Bool × List LogRecord :=
  match all d { executor := {} } with
  | .ok _ s => (true, s.workspace.log)
  | .error _ s => (false, s.workspace.log)

end Conformance

end EntitySql
