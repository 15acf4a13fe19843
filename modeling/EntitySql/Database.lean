/-
  The operations on a database: entities found, inserted, updated and deleted by their keys,
  and rows found, counted and deleted by a condition. Everything that can be checked is checked
  before a statement is sent.
-/
import EntitySql.Conversion
import EntitySql.ResultReader
import EntitySql.Session

namespace EntitySql

/-! ## Keys -/

namespace Mapping

/-- The parameters of a key that was given, one for each key property. -/
def keyParameters (m : Mapping) (d : Dialect) (key : Key) : Except QueryError Parameters :=
  let single (key : Key) : Except QueryError Value :=
    match key.toValue? with
    | some v => .ok (d.bindValue v)
    | none => .error (.unsupported .compositeValue)
  match m.keys, key with
  | [], _ => .error (.noKeys m.entity)
  | keys, .composite parts =>
    match parts.find? fun part => !keys.any (·.name == part.1) with
    | some part => .error (.keyMismatch m.entity (.notAKey part.1))
    | none =>
      keys.foldlM (fun ps k =>
        match parts.lookup k.name with
        | none => .error (.keyMismatch m.entity (.missing k.name))
        | some part => (single part).map (ps.insert k.name ·)) {}
  | [k], key => (single key).map (Parameters.empty.insert k.name ·)
  | keys, _ => .error (.keyMismatch m.entity (.compositeRequired keys.length))

variable {ε : Type}

/-- The value of a key property, which has to have one. -/
def keyValue (m : Mapping) (E : Entity ε) (e : ε) (k : PropertyMapping) :
    Except QueryError Value :=
  match E.get? e k.name with
  | none => .error (.missingKeyValue m.entity k.name)
  | some .null => .error (.missingKeyValue m.entity k.name)
  | some v => .ok v

/-- The parameters of the key of an entity. -/
def entityKeyParameters (m : Mapping) (d : Dialect) (E : Entity ε) (e : ε) :
    Except QueryError Parameters :=
  match m.keys with
  | [] => .error (.noKeys m.entity)
  | keys =>
    keys.foldlM (fun ps k => (m.keyValue E e k).map fun v => ps.insert k.name (d.bindValue v)) {}

/-- The parameters of several properties of an entity; a missing value is bound as nothing. -/
def entityParameters (d : Dialect) (E : Entity ε) (e : ε) (ps : List PropertyMapping) :
    Parameters :=
  ps.foldl (fun bound p => bound.insert p.name (d.bindValue ((E.get? e p.name).getD .null))) {}

/-- The key of an entity: a single one, or the parts of several. -/
def keyOf (m : Mapping) (E : Entity ε) (e : ε) : Except Error Key := do
  let parts ← m.keys.mapM fun k => do
    let v ← (m.keyValue E e k).mapError .query
    return (k.name, ← Key.ofValue v)
  match parts with
  | [] => .error (.query (.noKeys m.entity))
  | [part] => .ok part.2
  | parts => .ok (.composite parts)

end Mapping

/-! ## Insertion -/

/-- A session and the entity that is being inserted. -/
structure Insertion (σ ε : Type) where
  /-- The session. -/
  session : Session σ
  /-- The entity, with the values that it got so far. -/
  entity : ε

/-- A step of an insertion. -/
abbrev Inserting (σ ε : Type) := EStateM Error (Insertion σ ε)

namespace Inserting

variable {σ ε : Type}

/-- A step of the session. -/
def act {α : Type} (step : Act σ α) : Inserting σ ε α := fun x =>
  match step x.session with
  | .ok a s => .ok a { x with session := s }
  | .error e s => .error e { x with session := s }

/-- Changes a property of the entity. -/
def assign (E : Entity ε) (name : String) (v : Value) : Inserting σ ε Unit := fun x =>
  match E.set x.entity name v with
  | .ok entity => .ok () { x with entity := entity }
  | .error e => .error e x

/-- Whether a value leaves a key to be filled. -/
def isUnset : Option Value → Bool
  | none => true
  | some .null => true
  | some (.uuid u) => u.isNil
  | some _ => false

/-- Draws an identifier. -/
def draw (ids : IdentifierSource) : Act σ Uuid := fun s =>
  .ok (ids s.drawn) { s with drawn := s.drawn + 1 }

/-- Fills the given keys that have no value with identifiers. -/
def fillKeys (ids : IdentifierSource) (E : Entity ε) (m : Mapping) :
    List PropertyMapping → Inserting σ ε Unit
  | [] => pure ()
  | k :: ks => do
    if isUnset (E.get? (← get).entity k.name) then
      let id ← act (draw ids)
      act (Act.note .trace
        ("Generated " ++ id.text ++ " for `" ++ m.entity ++ "." ++ k.name ++ "`"))
      assign E k.name (.uuid id)
    fillKeys ids E m ks

/-- The generated key that the last row of an answer holds, in a column called `Id` or else in
    its first one. -/
def identityOf (rows : RowSet) : Except Error (Option Int64) :=
  match rows.getLast? with
  | none => .ok none
  | some row => (row.columnOrFirst "Id").map (·.bind Value.asInt64)

end Inserting

namespace Database

variable {σ ε : Type}

/-- Sends an insertion and the query of the key it generates, at once or one after the other. -/
def sendIdentity (db : Database σ) (insert identity : String) (ps : Parameters) :
    Act σ RowSet := do
  if db.setting.dialect.batches then
    Act.fetch db.executor ⟨insert ++ db.setting.dialect.separator ++ identity, ps⟩
  else
    let _ ← Act.execute db.executor ⟨insert, ps⟩
    Act.fetch db.executor ⟨identity, {}⟩

/-- Inserts the entity and answers its key. Keys to be drawn are drawn before the statement is
    sent; a generated key is read back and stored in the entity. -/
def insert (db : Database σ) (E : Entity ε) : Inserting σ ε Key := do
  let s := db.setting
  let m ← Inserting.act (Act.work (Work.mapping s E.type))
  if m.keys.isEmpty then throw (.query (.noKeys m.entity))
  Inserting.fillKeys db.identifiers E m (m.keys.filter (·.key == .guid))
  let sql ← Inserting.act (Act.work (Work.insertStatement s E.type))
  let ps := Mapping.entityParameters s.dialect E (← get).entity m.insertable
  match m.identity? with
  | some identity =>
    let query ← Inserting.act (Act.work (Work.identityStatement s E.type))
    let rows ← Inserting.act (db.sendIdentity sql query ps)
    match ← Inserting.act (Act.ofExcept (Inserting.identityOf rows)) with
    | none => throw (.identityMissing m.entity)
    | some id => Inserting.assign E identity.name (.int64 id)
  | none =>
    let _ ← Inserting.act (Act.execute db.executor ⟨sql, ps⟩)
  Inserting.act (Act.ofExcept (m.keyOf E (← get).entity))

/-- Inserts an entity; the answer is its key, what became of it and of the session. -/
def insertOne (db : Database σ) (E : Entity ε) (e : ε) (s : Session σ) :
    Except Error Key × ε × Session σ :=
  match db.insert E ⟨s, e⟩ with
  | .ok key x => (.ok key, x.entity, x.session)
  | .error error x => (.error error, x.entity, x.session)

/-- Inserts entities in order up to the first failure; the answer is their keys, and what became
    of them and of the session. -/
def insertMany (db : Database σ) (E : Entity ε) :
    List ε → Session σ → Except Error (List Key) × List ε × Session σ
  | [], s => (.ok [], [], s)
  | e :: es, s =>
    match db.insertOne E e s with
    | (.error error, e, s) => (.error error, e :: es, s)
    | (.ok key, e, s) =>
      let (keys, es, s) := insertMany db E es s
      (keys.map (key :: ·), e :: es, s)

/-! ## Operations by key -/

/-- The entity with a key; nothing when no row has it. -/
def get (db : Database σ) (E : Entity ε) (key : Key) : Act σ (Option ε) := do
  let s := db.setting
  let m ← Act.work (Work.mapping s E.type)
  let ps ← Act.work (Work.ofExcept (m.keyParameters s.dialect key))
  let sql ← Act.work (Work.getStatement s E.type)
  match ← Act.fetch db.executor ⟨sql, ps⟩ with
  | [] => return none
  | row :: _ => return some (← Act.recorded (E.ofRow m row))

/-- Records that a statement by key did not change exactly one row, and tells whether it changed
    any. -/
def checkSingleRow (m : Mapping) (action : String) (rows : UInt64) : Act σ Bool := do
  if rows ≠ 1 then
    Act.note (if rows = 0 then .info else .error)
      ("The statement " ++ action ++ " " ++ toString rows.toNat ++ " rows of `" ++ m.entity ++
        "` instead of the expected 1")
  return rows > 0

/-- Updates the row with the key of the entity; false when there is none. -/
def update (db : Database σ) (E : Entity ε) (e : ε) (excludeAssigned : Bool) : Act σ Bool := do
  let s := db.setting
  let m ← Act.work (Work.mapping s E.type)
  let sql ← Act.work (Work.updateStatement s E.type excludeAssigned)
  let ps := Mapping.entityParameters s.dialect E e (m.updatable excludeAssigned)
  let keys ← Act.work (Work.ofExcept (m.entityKeyParameters s.dialect E e))
  checkSingleRow m "updated" (← Act.execute db.executor ⟨sql, ps.extend keys⟩)

/-- Deletes the row with the key of the entity; false when there is none. -/
def delete (db : Database σ) (E : Entity ε) (e : ε) : Act σ Bool := do
  let s := db.setting
  let m ← Act.work (Work.mapping s E.type)
  let sql ← Act.work (Work.deleteStatement s E.type)
  let keys ← Act.work (Work.ofExcept (m.entityKeyParameters s.dialect E e))
  checkSingleRow m "deleted" (← Act.execute db.executor ⟨sql, keys⟩)

/-! ## Operations by condition -/

/-- Deletes the rows that meet a condition, and tells whether there were any. -/
def deleteWhere (db : Database σ) (e : EntityType) (p : Option Predicate) : Act σ Bool := do
  let st ← Act.statement (Work.deleteWhere db.setting e p)
  return (← Act.execute db.executor st) > 0

/-- The entities of the rows that a select answers. -/
def fetchEntities (db : Database σ) (E : Entity ε) (sql : Work String) : Act σ (List ε) := do
  let st ← Act.statement sql
  let m ← Act.work (Work.mapping db.setting E.type)
  Act.recorded (E.ofRows m (← Act.fetch db.executor st))

/-- The entities that meet a condition, in an order. -/
def getList (db : Database σ) (E : Entity ε) (p : Option Predicate) (terms : List OrderTerm) :
    Act σ (List ε) :=
  db.fetchEntities E (Work.select db.setting E.type p terms)

/-- The entities of a page, counted from one. -/
def getPage (db : Database σ) (E : Entity ε) (p : Option Predicate) (terms : List OrderTerm)
    (page rows : UInt64) : Act σ (List ε) :=
  db.fetchEntities E (Work.selectPage db.setting E.type p terms page rows)

/-- At most `count` entities behind the first ones. -/
def getSet (db : Database σ) (E : Entity ε) (p : Option Predicate) (terms : List OrderTerm)
    (first count : UInt64) : Act σ (List ε) :=
  db.fetchEntities E (Work.selectSet db.setting E.type p terms first count)

/-- The number that the first row of an answer holds, in a column called `Total` or else in its
    first one. -/
def totalOf (rows : RowSet) : Except Error Nat :=
  match rows with
  | [] => .error .countMissing
  | row :: _ =>
    match row.columnOrFirst "Total" with
    | .error e => .error e
    | .ok v =>
      match v.bind Value.asInt64 with
      | none => .error .countMissing
      | some i => if 0 ≤ i.toInt then .ok i.toInt.toNat else .error .countMissing

/-- The number of rows that meet a condition. -/
def count (db : Database σ) (e : EntityType) (p : Option Predicate) : Act σ Nat := do
  let st ← Act.statement (Work.count db.setting e p)
  Act.ofExcept (totalOf (← Act.fetch db.executor st))

/-! ## Several selects -/

/-- Sends selects one after the other. -/
def fetchOneByOne (db : Database σ) : List Selection → Act σ (List RowSet)
  | [] => return []
  | x :: xs => do
    let rows ← Act.fetch db.executor (← Act.statement (Work.selection db.setting x))
    return rows :: (← fetchOneByOne db xs)

/-- Sends selects at once; nothing when the executor refuses to. -/
def fetchAtOnce (db : Database σ) (xs : List Selection) : Act σ (Option (List RowSet)) := do
  let st ← Act.statement do
    return db.setting.dialect.separator.intercalate (← Work.selections db.setting xs)
  fun s =>
    match Act.fetchBatch db.executor st s with
    | .ok sets s =>
      if sets.length = xs.length then .ok (some sets) s
      else .error (.setCount xs.length sets.length) s
    | .error e s =>
      match e.query? with
      | some (.unsupported _) =>
        (do Act.note .debug (e.fullMessage ++ ", sending the selects one by one")
            return none : Act σ (Option (List RowSet))) s
      | _ => .error e s

/-- The result sets of several selects, sent at once if that is possible. -/
def getMultiple (db : Database σ) (xs : List Selection) : Act σ ResultReader := do
  let reader (sets : List RowSet) : ResultReader := ⟨(xs.map (·.entity)).zip sets⟩
  if xs.isEmpty then return {}
  else
    let sets ← if db.setting.dialect.batches then db.fetchAtOnce xs else pure none
    match sets with
    | some sets => return reader sets
    | none => return reader (← db.fetchOneByOne xs)

end Database

end EntitySql
