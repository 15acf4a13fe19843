/-
  Insertions: what happens before anything is sent, what is sent, and what is made of the answer.

  An insertion has four parts (`insert_eq_parts`). The first one draws the keys to be drawn and
  writes the statements; it follows `Database.prepared` and leaves the executor alone
  (`prepares_prepare`). The second one makes one request or two (`PreparedInsertion.requests`), the
  third one stores the generated key, and only the last one reads the key of the entity. So a key
  without a value is noticed when the row is already there (`insert_checks_keys_last`).
-/
import EntitySql.Proofs.Sending
import EntitySql.Record
import EntitySql.Recorder

namespace EntitySql

/-! ## Steps that send nothing -/

namespace Inserting

variable {σ ε α β : Type} {s : Setting} {x : Insertion σ ε}

theorem act_run {step : Act σ α} {r : Except Error α} {a : Session σ}
    (h : step x.session = ended r a) :
    (act step : Inserting σ ε α) x = ended r { x with session := a } := by
  unfold act
  rw [h]
  cases r <;> rfl

/-- What follows an answer, the number of identifiers drawn and the entity then; a failure
    stays. -/
def andThen (r : Except Error α × Nat × ε) (f : α → Nat → ε → Except Error β × Nat × ε) :
    Except Error β × Nat × ε :=
  match r with
  | (.ok y, n, e) => f y n e
  | (.error cause, n, e) => (.error cause, n, e)

/-- The step answers as told, and ends with so many identifiers drawn and with that entity. It only
    adds to the catalog, and the executor stays as it is. -/
def Prepares (s : Setting) (step : Inserting σ ε α) (x : Insertion σ ε)
    (r : Except Error α × Nat × ε) : Prop :=
  ∃ w, s.Grows x.session.workspace.catalog w.catalog ∧
    step x = ended r.1 ⟨⟨w, r.2.1, x.session.executor⟩, r.2.2⟩

theorem prepares_act {step : Act σ α} {r : Except Error α}
    (h : Act.Checks s step x.session r) :
    Prepares s (act step) x (r, x.session.drawn, x.entity) := by
  obtain ⟨w, hw, hg⟩ := h
  exact ⟨w, hg, act_run hw⟩

theorem prepares_pure (y : α) :
    Prepares s (pure y) x (.ok y, x.session.drawn, x.entity) := ⟨x.session.workspace, .refl, rfl⟩

theorem prepares_throw (cause : Error) :
    Prepares s (throw cause : Inserting σ ε α) x (.error cause, x.session.drawn, x.entity) :=
  ⟨x.session.workspace, .refl, rfl⟩

theorem Prepares.bind {step : Inserting σ ε α} {r : Except Error α × Nat × ε}
    {f : α → Inserting σ ε β} {g : α → Nat → ε → Except Error β × Nat × ε}
    (h : Prepares s step x r)
    (hf : ∀ y w, r.1 = .ok y → s.Grows x.session.workspace.catalog w.catalog →
      Prepares s (f y) ⟨⟨w, r.2.1, x.session.executor⟩, r.2.2⟩ (g y r.2.1 r.2.2)) :
    Prepares s (step >>= f) x (andThen r g) := by
  obtain ⟨w₁, hg₁, hw₁⟩ := h
  obtain ⟨answer, n, e⟩ := r
  unfold Prepares
  rw [bind_run, hw₁]
  cases answer with
  | error cause => exact ⟨w₁, hg₁, rfl⟩
  | ok y =>
    obtain ⟨w₂, hg₂, hw₂⟩ := hf y w₁ rfl hg₁
    exact ⟨w₂, hg₁.trans hg₂, hw₂⟩

theorem prepares_get {f : Insertion σ ε → Inserting σ ε α} {r : Except Error α × Nat × ε}
    (h : Prepares s (f x) x r) : Prepares s (get >>= f) x r := h

/-! ## Keys that are drawn -/

/-- What becomes of an entity with a property changed. -/
def assigned (E : Entity ε) (name : String) (v : Value) (n : Nat) (e : ε) :
    Except Error Unit × Nat × ε :=
  match E.set e name v with
  | .ok e => (.ok (), n, e)
  | .error cause => (.error cause, n, e)

/-- What becomes of an entity whose given keys are filled with identifiers where they have no
    value, up to the first identifier that is refused. -/
def filled (ids : IdentifierSource) (E : Entity ε) :
    List PropertyMapping → Nat → ε → Except Error Unit × Nat × ε
  | [], n, e => (.ok (), n, e)
  | k :: ks, n, e =>
    if isUnset (E.get? e k.name) then
      andThen (assigned E k.name (.uuid (ids n)) (n + 1) e) fun _ n e => filled ids E ks n e
    else filled ids E ks n e

theorem prepares_draw (ids : IdentifierSource) (x : Insertion σ ε) :
    Prepares s (act (draw ids)) x (.ok (ids x.session.drawn), x.session.drawn + 1, x.entity) :=
  ⟨x.session.workspace, .refl, rfl⟩

theorem prepares_note (level : LogLevel) (text : String) (x : Insertion σ ε) :
    Prepares s (act (Act.note level text)) x (.ok (), x.session.drawn, x.entity) :=
  ⟨{ x.session.workspace with log := x.session.workspace.log ++ [⟨level, text⟩] }, .refl, rfl⟩

theorem prepares_assign (E : Entity ε) (name : String) (v : Value) (x : Insertion σ ε) :
    Prepares s (assign E name v) x (assigned E name v x.session.drawn x.entity) := by
  refine ⟨x.session.workspace, .refl, ?_⟩
  unfold assign assigned
  cases E.set x.entity name v <;> rfl

theorem prepares_fillKeys (ids : IdentifierSource) (E : Entity ε) (m : Mapping)
    (ks : List PropertyMapping) (x : Insertion σ ε) :
    Prepares s (fillKeys ids E m ks) x (filled ids E ks x.session.drawn x.entity) := by
  induction ks generalizing x with
  | nil => exact prepares_pure ()
  | cons k ks ih =>
    unfold fillKeys filled
    refine prepares_get ?_
    cases isUnset (E.get? x.entity k.name) with
    | false => exact ih x
    | true =>
      let rest (id : Uuid) (n : Nat) (e : ε) : Except Error Unit × Nat × ε :=
        andThen (assigned E k.name (.uuid id) n e) fun _ n e => filled ids E ks n e
      refine (prepares_draw ids x).bind (g := rest) fun id w _ _ => ?_
      refine (prepares_note _ _ _).bind (g := fun _ => rest id) fun _ w _ _ => ?_
      exact (prepares_assign E k.name _ _).bind fun _ w _ _ => ih _

end Inserting

/-! ## Preparation -/

/-- An insertion that is ready to be sent. -/
structure PreparedInsertion where
  /-- The mapping of the entity. -/
  mapping : Mapping
  /-- The insertion. -/
  insert : Statement
  /-- The key that the database generates, with its query. -/
  identity : Option (PropertyMapping × String)

/-- The statements for an entity whose keys are filled. -/
def PreparedInsertion.of {ε : Type} (s : Setting) (c : Catalog) (E : Entity ε) (m : Mapping)
    (e : ε) : Except Error PreparedInsertion := do
  let sql ← s.statement c E.type .insert
  let insert : Statement := ⟨sql, Mapping.entityParameters s.dialect E e m.insertable⟩
  match m.identity? with
  | none => return ⟨m, insert, none⟩
  | some identity => return ⟨m, insert, some (identity, ← s.statement c E.type .identity)⟩

theorem PreparedInsertion.of_grows {ε : Type} {s : Setting} {c c' : Catalog} (h : s.Grows c c') :
    PreparedInsertion.of (ε := ε) s c' = PreparedInsertion.of s c := by
  funext E m e
  unfold PreparedInsertion.of
  rw [Setting.statement_of_grows h]

/-- What is prepared for an entity, and what becomes of it before anything is sent. -/
def Database.prepared {σ ε : Type} (db : Database σ) (E : Entity ε) (c : Catalog) (n : Nat)
    (e : ε) : Except Error PreparedInsertion × Nat × ε :=
  Inserting.andThen (db.setting.mappings c E.type, n, e) fun m n e =>
    if m.keys.isEmpty then (.error (.query (.noKeys m.entity)), n, e)
    else
      Inserting.andThen
        (Inserting.filled db.identifiers E (m.keys.filter (·.key == .guid)) n e) fun _ n e =>
          (PreparedInsertion.of db.setting c E m e, n, e)

namespace Inserting

variable {σ ε : Type} (db : Database σ) (E : Entity ε)

/-- The statements of an insertion. -/
def statements (m : Mapping) : Inserting σ ε PreparedInsertion := do
  let s := db.setting
  let sql ← act (Act.work (Work.insertStatement s E.type))
  let insert : Statement := ⟨sql, Mapping.entityParameters s.dialect E (← get).entity m.insertable⟩
  match m.identity? with
  | none => return ⟨m, insert, none⟩
  | some identity =>
    return ⟨m, insert, some (identity, ← act (Act.work (Work.identityStatement s E.type)))⟩

/-- The part of an insertion that sends nothing. -/
def prepare : Inserting σ ε PreparedInsertion := do
  let m ← act (Act.work (Work.mapping db.setting E.type))
  if m.keys.isEmpty then throw (.query (.noKeys m.entity))
  else
    fillKeys db.identifiers E m (m.keys.filter (·.key == .guid))
    statements db E m

/-- The part of an insertion that sends; the answer is that to the query of the generated key. -/
def send (p : PreparedInsertion) : Act σ RowSet :=
  match p.identity with
  | some (_, query) => db.sendIdentity p.insert.sql query p.insert.parameters
  | none => do
    let _ ← Act.execute db.executor p.insert
    return []

/-- The part of an insertion that stores the generated key. -/
def store (p : PreparedInsertion) (rows : RowSet) : Inserting σ ε Unit :=
  match p.identity with
  | none => pure ()
  | some (identity, _) => do
    match ← act (Act.ofExcept (identityOf rows)) with
    | none => throw (.identityMissing p.mapping.entity)
    | some id => assign E identity.name (.int64 id)

/-- The part of an insertion that reads the key of the entity, at the end. -/
def readKey (m : Mapping) : Inserting σ ε Key := do
  act (Act.ofExcept (m.keyOf E (← get).entity))

theorem act_bind {α β : Type} (step : Act σ α) (f : α → Act σ β) :
    (act (step >>= f) : Inserting σ ε β) = act step >>= fun y => act (f y) := by
  funext x
  have hstep := bind_run step f x.session
  rw [bind_run]
  unfold act
  rw [hstep]
  cases step x.session <;> rfl

/-- The parts of an insertion. -/
theorem insert_eq_parts :
    db.insert E = (do
      let p ← prepare db E
      let rows ← act (send db p)
      store E p rows
      readKey E p.mapping) := by
  unfold Database.insert prepare statements
  simp only [bind_assoc]
  refine bind_congr fun m => ?_
  split
  · rfl
  · simp only [bind_assoc]
    refine bind_congr fun _ => bind_congr fun sql => bind_congr fun x => ?_
    cases m.identity? with
    | none =>
      simp only [pure_bind, send, store, readKey, act_bind, bind_assoc]
      rfl
    | some identity =>
      simp only [bind_assoc, pure_bind, send, store, readKey]
      refine bind_congr fun query => bind_congr fun rows => bind_congr fun id => ?_
      cases id <;> rfl

variable {db E}

theorem prepares_statements {x : Insertion σ ε} {m : Mapping}
    (hm : db.setting.mappings x.session.workspace.catalog E.type = .ok m) :
    Prepares db.setting (statements db E m) x
      (PreparedInsertion.of db.setting x.session.workspace.catalog E m x.entity,
        x.session.drawn, x.entity) := by
  have hof : (PreparedInsertion.of db.setting x.session.workspace.catalog E m x.entity,
      x.session.drawn, x.entity) =
      andThen (db.setting.statement x.session.workspace.catalog E.type .insert,
        x.session.drawn, x.entity) fun sql n e =>
        let insert := ⟨sql, Mapping.entityParameters db.setting.dialect E e m.insertable⟩
        match m.identity? with
        | none => (.ok ⟨m, insert, none⟩, n, e)
        | some identity =>
          andThen (db.setting.statement x.session.workspace.catalog E.type .identity, n, e)
            fun query n e => (.ok ⟨m, insert, some (identity, query)⟩, n, e) := by
    unfold PreparedInsertion.of
    cases db.setting.statement x.session.workspace.catalog E.type .insert with
    | error cause => rfl
    | ok sql =>
      cases m.identity? with
      | none => rfl
      | some identity =>
        cases db.setting.statement x.session.workspace.catalog E.type .identity <;> rfl
  rw [hof]
  refine (prepares_act (Act.checks_work (Work.yields_insertStatement _ _ _))).bind
    fun sql w _ hg => prepares_get ?_
  cases hi : m.identity? with
  | none => exact prepares_pure _
  | some identity =>
    have hm' : db.setting.mappings w.catalog E.type = .ok m := by
      rw [Setting.mappings_of_grows hg, hm]
    rw [← Setting.statement_of_grows hg]
    refine (prepares_act (Act.checks_work
      (Work.yields_identityStatement hm' (by rw [hi]; rfl)))).bind fun query w _ _ => ?_
    exact prepares_pure _

variable (db E)

theorem prepares_prepare (x : Insertion σ ε) :
    Prepares db.setting (prepare db E) x
      (db.prepared E x.session.workspace.catalog x.session.drawn x.entity) := by
  refine (prepares_act (Act.checks_mapping _ _ _)).bind fun m w₁ hm hg₁ => ?_
  split
  · exact prepares_throw _
  · refine (prepares_fillKeys _ _ _ _ _).bind fun _ w₂ _ hg₂ => ?_
    have hgrows : db.setting.Grows x.session.workspace.catalog w₂.catalog := hg₁.trans hg₂
    rw [← PreparedInsertion.of_grows hgrows]
    exact prepares_statements ((congrFun (Setting.mappings_of_grows hgrows) E.type).trans hm)

end Inserting

/-! ## Sending -/

namespace PreparedInsertion

variable {σ ε : Type} (p : PreparedInsertion)

/-- The insertion and the query of the generated key in one statement. -/
def joined (d : Dialect) (query : String) : Statement :=
  ⟨p.insert.sql ++ d.separator ++ query, p.insert.parameters⟩

/-- The requests, when none of them fails. -/
def requests (d : Dialect) : List Request :=
  match p.identity with
  | none => [.count p.insert]
  | some (_, query) =>
    if d.batches then [.rows (p.joined d query)] else [.count p.insert, .rows ⟨query, {}⟩]

/-- The answer of an executor to the query of the generated key, or its first failure. -/
def sent (d : Dialect) (x : Executor σ) (s : σ) : Except Error RowSet × σ :=
  match p.identity with
  | none => ((x.count p.insert s).1.map fun _ => [], (x.count p.insert s).2)
  | some (_, query) =>
    if d.batches then x.rows (p.joined d query) s
    else
      match (x.count p.insert s).1 with
      | .error cause => (.error cause, (x.count p.insert s).2)
      | .ok _ => x.rows ⟨query, {}⟩ (x.count p.insert s).2

/-- A watched executor lists the requests up to the first failure, and the first one at least. -/
theorem sent_watched (d : Dialect) (x : Executor σ) (s : σ × List Request) :
    ∃ n, 0 < n ∧ ((p.sent d x s.1).1.isOk = true → n = (p.requests d).length) ∧
      p.sent d x.watched s = ((p.sent d x s.1).1,
        ((p.sent d x s.1).2, s.2 ++ (p.requests d).take n)) := by
  unfold sent requests
  cases p.identity with
  | none => exact ⟨1, by simp, fun _ => rfl, rfl⟩
  | some identity =>
    dsimp only
    cases d.batches with
    | true => exact ⟨1, by simp, fun _ => rfl, rfl⟩
    | false =>
      simp only [Bool.false_eq_true, if_false]
      rw [Executor.count_watched]
      unfold Executor.listing
      dsimp only
      cases (x.count p.insert s.1).1 with
      | error cause =>
        refine ⟨1, by simp, ?_, rfl⟩
        intro h
        cases h
      | ok rows =>
        refine ⟨2, by simp, fun _ => rfl, ?_⟩
        dsimp only
        rw [Executor.rows_watched]
        simp [Executor.listing]

/-- What becomes of an entity when the generated key is stored. -/
def stored (E : Entity ε) (rows : RowSet) (e : ε) : Except Error ε :=
  match p.identity with
  | none => .ok e
  | some (identity, _) =>
    match Inserting.identityOf rows with
    | .error cause => .error cause
    | .ok none => .error (.identityMissing p.mapping.entity)
    | .ok (some id) => E.set e identity.name (.int64 id)

/-- The key of an insertion and its entity, by the answer of the executor. -/
def outcome (E : Entity ε) (answer : Except Error RowSet) (e : ε) : Except Error Key × ε :=
  match answer >>= fun rows => p.stored E rows e with
  | .error cause => (.error cause, e)
  | .ok e => (p.mapping.keyOf E e, e)

theorem outcome_ok (E : Entity ε) (rows : RowSet) (e : ε) :
    p.outcome E (.ok rows) e =
      match p.stored E rows e with
      | .error cause => (.error cause, e)
      | .ok e => (p.mapping.keyOf E e, e) := rfl

end PreparedInsertion

namespace Inserting

variable {σ ε : Type} (db : Database σ) (E : Entity ε)

theorem asks_send (p : PreparedInsertion) :
    Act.Asks (send db p) (p.sent db.setting.dialect db.executor) := by
  intro a
  unfold send PreparedInsertion.sent
  cases p.identity with
  | none =>
    obtain ⟨w, hc, hw⟩ := Act.asks_execute db.executor p.insert a
    refine ⟨w, hc, ?_⟩
    dsimp only
    rw [bind_run, hw]
    cases (db.executor.count p.insert a.executor).1 <;> rfl
  | some identity =>
    dsimp only
    unfold Database.sendIdentity
    cases db.setting.dialect.batches with
    | true => exact Act.asks_fetch db.executor _ a
    | false =>
      obtain ⟨w₁, hc₁, hw₁⟩ := Act.asks_execute db.executor p.insert a
      simp only [Bool.false_eq_true, if_false]
      rw [bind_run, hw₁]
      cases hcount : (db.executor.count p.insert a.executor).1 with
      | error cause => exact ⟨w₁, hc₁, rfl⟩
      | ok n =>
        obtain ⟨w₂, hc₂, hw₂⟩ := Act.asks_fetch db.executor ⟨identity.2, {}⟩
          ⟨w₁, a.drawn, (db.executor.count p.insert a.executor).2⟩
        exact ⟨w₂, hc₂.trans hc₁, hw₂⟩

theorem store_run (p : PreparedInsertion) (rows : RowSet) (x : Insertion σ ε) :
    store E p rows x =
      match p.stored E rows x.entity with
      | .ok e => .ok () { x with entity := e }
      | .error cause => .error cause x := by
  unfold store PreparedInsertion.stored
  cases p.identity with
  | none => rfl
  | some identity =>
    dsimp only
    cases identityOf rows with
    | error cause => rfl
    | ok id => cases id <;> rfl

theorem readKey_run (m : Mapping) (x : Insertion σ ε) :
    readKey E m x = ended (m.keyOf E x.entity) x := by
  unfold readKey
  change act (Act.ofExcept (m.keyOf E x.entity)) x = _
  cases m.keyOf E x.entity <;> rfl

/-- The whole of an insertion. -/
theorem insert_run (x : Insertion σ ε) :
    ∃ w, db.setting.Grows x.session.workspace.catalog w.catalog ∧
      db.insert E x =
        match db.prepared E x.session.workspace.catalog x.session.drawn x.entity with
        | (.error cause, n, e) => .error cause ⟨⟨w, n, x.session.executor⟩, e⟩
        | (.ok p, n, e) =>
          let answer := p.sent db.setting.dialect db.executor x.session.executor
          ended (p.outcome E answer.1 e).1 ⟨⟨w, n, answer.2⟩, (p.outcome E answer.1 e).2⟩ := by
  obtain ⟨w₁, hg₁, hw₁⟩ := prepares_prepare db E x
  generalize db.prepared E x.session.workspace.catalog x.session.drawn x.entity = r at hw₁
  obtain ⟨r, n, e⟩ := r
  rw [insert_eq_parts, bind_run, hw₁]
  cases r with
  | error cause => exact ⟨w₁, hg₁, rfl⟩
  | ok p =>
    obtain ⟨w₂, hc₂, hw₂⟩ := asks_send db p ⟨w₁, n, x.session.executor⟩
    refine ⟨w₂, hc₂ ▸ hg₁, ?_⟩
    dsimp only [ended] at hw₂ ⊢
    generalize p.sent db.setting.dialect db.executor x.session.executor = answer at hw₂
    obtain ⟨answer, y⟩ := answer
    have hact := act_run (x := ⟨⟨w₁, n, x.session.executor⟩, e⟩) hw₂
    rw [bind_run, hact]
    cases answer with
    | error cause => rfl
    | ok rows =>
      dsimp only [ended]
      rw [bind_run, store_run]
      rw [p.outcome_ok]
      dsimp only
      cases p.stored E rows e with
      | error cause => rfl
      | ok e => exact readKey_run E p.mapping _

/-- An insertion that is not prepared ends in front of the sending. -/
theorem insert_of_unprepared {a : Session σ} {e e' : ε} {cause : Error} {n : Nat}
    (h : db.prepared E a.workspace.catalog a.drawn e = (.error cause, n, e')) :
    ∃ w, db.insert E ⟨a, e⟩ = .error cause ⟨⟨w, n, a.executor⟩, e'⟩ := by
  obtain ⟨w, -, hw⟩ := insert_run db E ⟨a, e⟩
  dsimp only at hw
  rw [h] at hw
  exact ⟨w, hw⟩

/-- An insertion that is prepared ends by the answer of the executor. -/
theorem insert_of_prepared {a : Session σ} {e e' : ε} {p : PreparedInsertion} {n : Nat}
    (h : db.prepared E a.workspace.catalog a.drawn e = (.ok p, n, e')) :
    ∃ w, db.insert E ⟨a, e⟩ =
      let answer := p.sent db.setting.dialect db.executor a.executor
      ended (p.outcome E answer.1 e').1 ⟨⟨w, n, answer.2⟩, (p.outcome E answer.1 e').2⟩ := by
  obtain ⟨w, -, hw⟩ := insert_run db E ⟨a, e⟩
  dsimp only at hw
  rw [h] at hw
  exact ⟨w, hw⟩

end Inserting

/-! ## Keys that are read -/

/-- Several answers are there when each of them is. -/
theorem isOk_mapM {ε α β : Type} (f : α → Except ε β) (xs : List α) :
    (xs.mapM f).isOk = true ↔ ∀ x ∈ xs, (f x).isOk = true := by
  induction xs with
  | nil => simp [Except.isOk, Except.toBool, pure, Except.pure]
  | cons x xs ih =>
    rw [List.mapM_cons, List.forall_mem_cons, ← ih]
    cases f x with
    | error e => simp [Except.isOk, Except.toBool, bind, Except.bind]
    | ok y =>
      cases xs.mapM f <;>
        simp [Except.isOk, Except.toBool, bind, Except.bind, pure, Except.pure]

namespace Mapping

variable {ε : Type} (m : Mapping) (E : Entity ε) (e : ε)

/-- The part of the key of an entity that a property is. -/
def keyPart (k : PropertyMapping) : Except Error (String × Key) := do
  let v ← (m.keyValue E e k).mapError .query
  return (k.name, ← Key.ofValue v)

theorem isOk_keyOf (h : m.keys.isEmpty = false) :
    (m.keyOf E e).isOk = true ↔ ∀ k ∈ m.keys, (m.keyPart E e k).isOk = true := by
  rw [← isOk_mapM]
  change ((m.keys.mapM (m.keyPart E e)) >>= _).isOk = true ↔ _
  cases hparts : m.keys.mapM (m.keyPart E e) with
  | error cause => exact Iff.rfl
  | ok parts =>
    have hne : parts ≠ [] := by
      rintro rfl
      cases hk : m.keys with
      | nil =>
        rw [hk] at h
        cases h
      | cons k ks =>
        rw [hk, List.mapM_cons] at hparts
        obtain ⟨part, -, hparts⟩ := bind_eq_ok_iff.mp hparts
        obtain ⟨parts, -, hparts⟩ := bind_eq_ok_iff.mp hparts
        cases hparts
    obtain ⟨part, rest, rfl⟩ := List.exists_cons_of_ne_nil hne
    cases rest <;> exact Iff.rfl

end Mapping

/-- What is prepared has the mapping, and the values of the properties that it lists. -/
theorem PreparedInsertion.fields_of {ε : Type} {s : Setting} {c : Catalog} {E : Entity ε}
    {m : Mapping} {e : ε} {p : PreparedInsertion} (h : of s c E m e = .ok p) :
    p.mapping = m ∧
      p.insert.parameters = Mapping.entityParameters s.dialect E e m.insertable := by
  obtain ⟨sql, -, h⟩ := bind_eq_ok_iff.mp h
  dsimp only at h
  cases hi : m.identity? with
  | none =>
    rw [hi] at h
    cases h
    exact ⟨rfl, rfl⟩
  | some identity =>
    rw [hi] at h
    obtain ⟨query, -, h⟩ := bind_eq_ok_iff.mp h
    cases h
    exact ⟨rfl, rfl⟩

/-- Only an entity with keys is prepared, when those to be drawn are there. -/
theorem Database.of_prepared {σ ε : Type} {db : Database σ} {E : Entity ε} {c : Catalog}
    {m : Mapping} (hm : db.setting.mappings c E.type = .ok m) {n n' : Nat} {e e' : ε}
    {p : PreparedInsertion} (h : db.prepared E c n e = (.ok p, n', e')) :
    m.keys.isEmpty = false ∧
      Inserting.filled db.identifiers E (m.keys.filter (·.key == .guid)) n e = (.ok (), n', e') ∧
      PreparedInsertion.of db.setting c E m e' = .ok p := by
  unfold Database.prepared at h
  rw [hm] at h
  dsimp only [Inserting.andThen] at h
  cases hk : m.keys.isEmpty with
  | true =>
    rw [hk] at h
    cases h
  | false =>
    rw [hk] at h
    generalize Inserting.filled db.identifiers E (m.keys.filter (·.key == .guid)) n e = r at h ⊢
    obtain ⟨r, n₁, e₁⟩ := r
    cases r with
    | error cause => cases h
    | ok _ =>
      obtain ⟨hof, hrest⟩ := Prod.mk.inj h
      obtain ⟨rfl, rfl⟩ := Prod.mk.inj hrest
      exact ⟨rfl, rfl, hof⟩

theorem Database.keys_of_prepared {σ ε : Type} {db : Database σ} {E : Entity ε} {c : Catalog}
    {n n' : Nat} {e e' : ε} {p : PreparedInsertion}
    (h : db.prepared E c n e = (.ok p, n', e')) : p.mapping.keys.isEmpty = false := by
  cases hm : db.setting.mappings c E.type with
  | error cause =>
    unfold Database.prepared at h
    rw [hm] at h
    cases h
  | ok m =>
    obtain ⟨hkeys, -, hof⟩ := Database.of_prepared hm h
    rw [(PreparedInsertion.fields_of hof).1, hkeys]

/-- The key of an entity is read at the end. What fails before that keeps the insertion back: the
    mapping, the keys to be drawn and the statements. Otherwise the executor is handed the insertion
    whatever the other keys hold, and when it does not fail, all requests have been made when a key
    without a value, or with a value that is no key, makes the call fail. -/
theorem insert_checks_keys_last {σ ε : Type} (db : Database σ) (E : Entity ε)
    (a : Session (σ × List Request)) (e : ε) :
    (∀ cause n e₁, db.prepared E a.workspace.catalog a.drawn e = (.error cause, n, e₁) →
      ∃ w, db.watched.insert E ⟨a, e⟩ =
        .error cause ⟨{ a with workspace := w, drawn := n }, e₁⟩) ∧
    ∀ p n e₁, db.prepared E a.workspace.catalog a.drawn e = (.ok p, n, e₁) →
      ∃ (answer : Except Error RowSet × σ) (w : Workspace) (made : Nat),
        answer = p.sent db.setting.dialect db.executor a.executor.1 ∧ 0 < made ∧
        db.watched.insert E ⟨a, e⟩ =
          ended (p.outcome E answer.1 e₁).1
            ⟨⟨w, n, answer.2, a.executor.2 ++ (p.requests db.setting.dialect).take made⟩,
              (p.outcome E answer.1 e₁).2⟩ ∧
        ∀ rows e₂, answer.1 = .ok rows → p.stored E rows e₁ = .ok e₂ →
          made = (p.requests db.setting.dialect).length ∧
          p.outcome E answer.1 e₁ = (p.mapping.keyOf E e₂, e₂) ∧
          ((p.mapping.keyOf E e₂).isOk = true ↔
            ∀ k ∈ p.mapping.keys, (p.mapping.keyPart E e₂ k).isOk = true) := by
  obtain ⟨w, -, hw⟩ := Inserting.insert_run db.watched E ⟨a, e⟩
  have hprepared : db.watched.prepared E = db.prepared E := rfl
  rw [hprepared] at hw
  constructor
  · intro cause n e₁ h
    dsimp only at hw
    rw [h] at hw
    exact ⟨w, hw⟩
  · intro p n e₁ h
    dsimp only at hw
    rw [h] at hw
    obtain ⟨made, hmade, hall, hlist⟩ := p.sent_watched db.setting.dialect db.executor a.executor
    dsimp only at hw
    rw [db.setting_watched, db.executor_watched, hlist] at hw
    refine ⟨_, w, made, rfl, hmade, hw, fun rows e₂ hrows hstored => ⟨?_, ?_, ?_⟩⟩
    · rw [hall (by rw [hrows]; rfl)]
    · rw [hrows, p.outcome_ok, hstored]
    · exact p.mapping.isOk_keyOf E e₂ (Database.keys_of_prepared h)

/-! ## A sample -/

namespace Samples

/-- A key that the caller supplies, and that may be missing. -/
def voucher : RecordType where
  table := "voucher"
  fields := [⟨"code", some (.option .text), none⟩, ⟨"holder", some .text, none⟩]
  steps := [.insert { name := "code", key := .assigned }, .insert { name := "holder" }]

/-- Vouchers. -/
def vouchers : Database Recorder where
  setting := { dialect := .generic, model := fun _ => voucher.mapping }
  identifiers _ := Uuid.nil
  executor := Recorder.executor

/-- The type of vouchers. -/
def voucherType : Entity Record := voucher.entityOf ⟨"Voucher"⟩

/-- What is prepared for a voucher without a code. -/
def preparedVoucher : PreparedInsertion where
  mapping := voucher.mapping
  insert :=
    ⟨"INSERT INTO \"voucher\" (\"code\", \"holder\") VALUES (@code, @holder)",
      ⟨[("code", .null), ("holder", .text "")]⟩⟩
  identity := none

theorem prepared_voucher :
    vouchers.prepared voucherType {} 0 voucher.fresh = (.ok preparedVoucher, 0, voucher.fresh) := by
  rfl

end Samples

/-- The voucher has no code, and its insertion is handed over all the same. -/
theorem insert_checks_keys_last_voucher :
    Samples.vouchers.prepared Samples.voucherType {} 0 Samples.voucher.fresh =
      (.ok Samples.preparedVoucher, 0, Samples.voucher.fresh) ∧
    ∃ w r, Samples.vouchers.watched.insert Samples.voucherType
        ⟨Samples.fresh, Samples.voucher.fresh⟩ =
      .error (.query (.missingKeyValue "voucher" "code"))
        ⟨⟨w, 0, r, [.count Samples.preparedVoucher.insert]⟩, Samples.voucher.fresh⟩ := by
  obtain ⟨-, hsent⟩ := insert_checks_keys_last Samples.vouchers Samples.voucherType Samples.fresh
    Samples.voucher.fresh
  obtain ⟨answer, w, made, hanswer, -, hrun, hstored⟩ := hsent _ _ _ Samples.prepared_voucher
  have hnone : answer.1 = .ok [] := by rw [hanswer]; rfl
  obtain ⟨hmade, houtcome, -⟩ := hstored [] Samples.voucher.fresh hnone rfl
  rw [houtcome, hmade] at hrun
  exact ⟨Samples.prepared_voucher, w, _, hrun⟩

/-- An insertion that fails because a key has no value has been handed over, although the
    executor raises nothing. -/
theorem insert_sends_before_key_check :
    (Samples.vouchers.executor.count Samples.preparedVoucher.insert {}).1.isOk = true ∧
    ¬ ∀ k ∈ Samples.voucher.mapping.keys, ∀ x,
      Samples.vouchers.watched.insert Samples.voucherType ⟨Samples.fresh, Samples.voucher.fresh⟩ =
        .error (.query (.missingKeyValue "voucher" k.name)) x → x.session.executor.2 = [] := by
  refine ⟨rfl, fun h => ?_⟩
  obtain ⟨w, -, hw⟩ := Inserting.insert_run Samples.vouchers.watched Samples.voucherType
    ⟨Samples.fresh, Samples.voucher.fresh⟩
  have hlist := h _ (List.mem_cons_self ..) _ hw
  cases hlist

end EntitySql
