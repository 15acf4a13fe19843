/-
  What a session hands to its executor.

  `Executor.watched` lists the requests of an executor and answers as the executor does. A step of
  a session that only works in the workspace changes neither the list nor the state of the executor
  (`Act.Checks`); a step that sends ends where the executor ends (`Act.Asks`).

  `SendsOnce` says of a call that it fails at a check and sends nothing, or else sends one request
  and answers what is made of the answer to it. It is carried over a check by `SendsOnce.after`;
  `HandsOver` tells it by the list of requests.
-/
import EntitySql.Database
import EntitySql.Proofs.CatalogRuns
import EntitySql.Proofs.Refusals
import EntitySql.Proofs.StatementRuns
import EntitySql.Recorder

namespace EntitySql

/-! ## Requests -/

/-- A statement with the function of an executor that it is handed to. -/
inductive Request where
  /-- For a stream of rows and counts. -/
  | run (st : Statement)
  /-- For its rows. -/
  | rows (st : Statement)
  /-- For the number of rows it changes. -/
  | count (st : Statement)
  /-- For several result sets. -/
  | batch (st : Statement)

/-- The statement of a request. -/
def Request.statement : Request → Statement
  | .run st => st
  | .rows st => st
  | .count st => st
  | .batch st => st

namespace Executor

variable {σ α : Type}

/-- Lists a request behind those before, and passes it on. -/
def listing (request : Request) (send : σ → α × σ) (s : σ × List Request) :
    α × (σ × List Request) :=
  let answer := send s.1
  (answer.1, (answer.2, s.2 ++ [request]))

/-- The executor with a list of what it was handed. -/
def watched (x : Executor σ) : Executor (σ × List Request) where
  run st := listing (.run st) (x.run st)
  fetch st := listing (.rows st) (x.fetch st)
  execute st := listing (.count st) (x.execute st)
  runBatch st := listing (.batch st) (x.runBatch st)

theorem rows_watched (x : Executor σ) (st : Statement) (s : σ × List Request) :
    x.watched.rows st s = listing (.rows st) (x.rows st) s := rfl

theorem count_watched (x : Executor σ) (st : Statement) (s : σ × List Request) :
    x.watched.count st s = listing (.count st) (x.count st) s := rfl

end Executor

/-- The database with a list of what its executor was handed. -/
def Database.watched {σ : Type} (db : Database σ) : Database (σ × List Request) :=
  { db with executor := db.executor.watched }

@[simp] theorem Database.setting_watched {σ : Type} (db : Database σ) :
    db.watched.setting = db.setting := rfl

@[simp] theorem Database.executor_watched {σ : Type} (db : Database σ) :
    db.watched.executor = db.executor.watched := rfl

/-! ## Steps that send nothing -/

/-- The statement of a plan, with parameters of its own. -/
def Plan.statement (d : Dialect) (p : Plan) : Statement := ⟨p.text d {}, p.parameters d {}⟩

namespace Act

variable {σ α β : Type} {s : Setting} {a : Session σ}

/-- The step answers `r` and only adds to the catalog; the executor and the supply of identifiers
    stay as they are. -/
def Checks (s : Setting) (step : Act σ α) (a : Session σ) (r : Except Error α) : Prop :=
  ∃ w, step a = ended r { a with workspace := w } ∧ s.Grows a.workspace.catalog w.catalog

theorem checks_work {job : Work α} {r : Except Error α} (h : Work.Yields s job a.workspace r) :
    Checks s (work job) a r := by
  obtain ⟨w, hw, hg, -⟩ := h
  refine ⟨w, ?_, hg⟩
  unfold work
  rw [hw]
  cases r <;> rfl

theorem checks_mapping (s : Setting) (a : Session σ) (e : EntityType) :
    Checks s (work (Work.mapping s e)) a (s.mappings a.workspace.catalog e) :=
  checks_work (Work.yields_mapping s e a.workspace)

/-- A check that the catalog has no part in. -/
theorem checks_ofExcept (s : Setting) (r : Except QueryError α) (a : Session σ) :
    Checks s (work (Work.ofExcept r)) a (r.mapError .query) := by
  refine ⟨a.workspace, ?_, .refl⟩
  cases r <;> rfl

/-- A statement with parameters of its own follows its plan. -/
theorem checks_statement {job : Work String} {r : Except Error Plan}
    (h : Work.Follows s job { a.workspace with parameters := {} } r)
    (hextends : Work.Extends s job) :
    Checks s (statement job) a (r.map (·.statement s.dialect)) := by
  obtain ⟨w, hw, -, hp⟩ := h
  have hgrows := hextends { a.workspace with parameters := {} }
  rw [hw, lastState_ended] at hgrows
  refine ⟨w, ?_, hgrows⟩
  unfold statement
  rw [bind_run]
  change ((work job) >>= fun sql => _) _ = _
  rw [bind_run, work, hw]
  cases r with
  | error e => rfl
  | ok p =>
    change EStateM.Result.ok (Statement.mk _ w.parameters) _ = _
    rw [hp p rfl]
    rfl

/-- The step answers `r` wherever it starts, and leaves the catalog, the executor and the supply of
    identifiers as they are. -/
def Answers (step : Act σ α) (r : Except Error α) : Prop :=
  ∀ a, ∃ w, w.catalog = a.workspace.catalog ∧ step a = ended r { a with workspace := w }

theorem answers_pure (x : α) : Answers (pure x : Act σ α) (.ok x) :=
  fun a => ⟨a.workspace, rfl, rfl⟩

theorem answers_note (level : LogLevel) (text : String) :
    Answers (note level text : Act σ Unit) (.ok ()) := by
  intro a
  exact ⟨{ a.workspace with log := a.workspace.log ++ [⟨level, text⟩] }, rfl, rfl⟩

theorem answers_ofExcept (r : Except Error α) : Answers (ofExcept r : Act σ α) r := by
  intro a
  refine ⟨a.workspace, rfl, ?_⟩
  cases r <;> rfl

theorem answers_recorded (answer : List LogRecord × Except Error α) :
    Answers (recorded answer : Act σ α) answer.2 := by
  intro a
  exact answers_ofExcept answer.2
    { a with workspace := { a.workspace with log := a.workspace.log ++ answer.1 } }

theorem Answers.bind {step : Act σ α} {r : Except Error α} {f : α → Act σ β}
    {r' : α → Except Error β} (h : Answers step r) (hf : ∀ x, r = .ok x → Answers (f x) (r' x)) :
    Answers (step >>= f) (r >>= r') := by
  intro a
  obtain ⟨w₁, hc₁, hw₁⟩ := h a
  rw [bind_run, hw₁]
  cases r with
  | error e => exact ⟨w₁, hc₁, rfl⟩
  | ok x =>
    obtain ⟨w₂, hc₂, hw₂⟩ := hf x rfl { a with workspace := w₁ }
    exact ⟨w₂, hc₂.trans hc₁, hw₂⟩

theorem Answers.map {step : Act σ α} {r : Except Error α} (h : Answers step r) (f : α → β) :
    Answers (do return f (← step)) (r.map f) := by
  have hbind := h.bind fun x _ => answers_pure (f x)
  cases r <;> exact hbind

theorem answers_announce (st : Statement) : Answers (announce st : Act σ Unit) (.ok ()) :=
  (answers_note _ _).bind fun _ _ => answers_recorded _

/-! ## Steps that send -/

/-- The step ends with the answer of the executor and leaves it where it is then; the catalog and
    the supply of identifiers stay as they are. -/
def Asks (step : Act σ α) (send : σ → Except Error α × σ) : Prop :=
  ∀ a, ∃ w, w.catalog = a.workspace.catalog ∧
    step a = ended (send a.executor).1 ⟨w, a.drawn, (send a.executor).2⟩

theorem asks_sending (send : σ → Except Error α × σ) : Asks (sending send) send := by
  intro a
  refine ⟨a.workspace, rfl, ?_⟩
  unfold sending
  rcases send a.executor with ⟨r, x⟩
  cases r <;> rfl

theorem asks_announced (st : Statement) (send : σ → Except Error α × σ) :
    Asks (announce st >>= fun _ => sending send) send := by
  intro a
  obtain ⟨w₁, hc₁, hw₁⟩ := answers_announce st a
  obtain ⟨w₂, hc₂, hw₂⟩ := asks_sending send { a with workspace := w₁ }
  refine ⟨w₂, hc₂.trans hc₁, ?_⟩
  rw [bind_run, hw₁]
  exact hw₂

theorem asks_fetch (x : Executor σ) (st : Statement) : Asks (fetch x st) (x.rows st) :=
  asks_announced st (x.rows st)

theorem asks_execute (x : Executor σ) (st : Statement) : Asks (execute x st) (x.count st) :=
  asks_announced st (x.count st)

theorem asks_fetchBatch (x : Executor σ) (st : Statement) :
    Asks (fetchBatch x st) (x.runBatch st) := asks_announced st (x.runBatch st)

end Act

/-! ## Calls that send once -/

/-- A request, and what is made of the answer to it. -/
inductive Exchange (α : Type) where
  /-- The request of rows. -/
  | rows (st : Statement) (read : RowSet → Except Error α)
  /-- The request of a number of rows. -/
  | count (st : Statement) (read : UInt64 → Except Error α)

namespace Exchange

variable {σ α : Type}

/-- The request. -/
def request : Exchange α → Request
  | .rows st _ => .rows st
  | .count st _ => .count st

/-- What becomes of the answer of an executor, and the state that it leaves the executor in. -/
def answer (x : Executor σ) (s : σ) : Exchange α → Except Error α × σ
  | .rows st read => let answer := x.rows st s; (answer.1 >>= read, answer.2)
  | .count st read => let answer := x.count st s; (answer.1 >>= read, answer.2)

/-- The error that an executor raises, if it raises one. -/
def raised (x : Executor σ) (s : σ) : Exchange α → Option Error
  | .rows st _ => match (x.rows st s).1 with | .ok _ => none | .error e => some e
  | .count st _ => match (x.count st s).1 with | .ok _ => none | .error e => some e

theorem answer_of_raised {x : Executor σ} {s : σ} {ex : Exchange α} {e : Error}
    (h : ex.raised x s = some e) : (ex.answer x s).1 = .error e := by
  cases ex with
  | rows st read =>
    unfold raised at h
    unfold answer
    dsimp only at h ⊢
    cases hr : (x.rows st s).1 with
    | ok rows =>
      rw [hr] at h
      cases h
    | error e' =>
      rw [hr] at h
      cases h
      rfl
  | count st read =>
    unfold raised at h
    unfold answer
    dsimp only at h ⊢
    cases hr : (x.count st s).1 with
    | ok n =>
      rw [hr] at h
      cases h
    | error e' =>
      rw [hr] at h
      cases h
      rfl

theorem answer_watched (x : Executor σ) (s : σ × List Request) (ex : Exchange α) :
    ex.answer x.watched s =
      ((ex.answer x s.1).1, ((ex.answer x s.1).2, s.2 ++ [ex.request])) := by
  cases ex <;> rfl

end Exchange

namespace Act

variable {σ α β : Type} {s : Setting} {x : Executor σ} {a : Session σ}

/-- The call makes one request of the executor, and answers what is made of the answer to it. -/
def Sends (x : Executor σ) (call : Act σ α) (a : Session σ) (ex : Exchange α) : Prop :=
  ∃ w, call a = ended (ex.answer x a.executor).1 ⟨w, a.drawn, (ex.answer x a.executor).2⟩

/-- The call fails at a check of this library and leaves the executor alone, or else makes one
    request of it. -/
def SendsOnce (x : Executor σ) (call : Act σ α) (a : Session σ)
    (checked : Except Error (Exchange α)) : Prop :=
  match checked with
  | .error e => (∃ q, e = .query q) ∧ ∃ w, call a = .error e { a with workspace := w }
  | .ok ex => Sends x call a ex

/-- A call whose rows are read, and nothing else is sent. -/
theorem sendsOnce_rows (x : Executor σ) (st : Statement) (a : Session σ)
    {read : RowSet → Except Error α} {step : RowSet → Act σ α}
    (h : ∀ rows, Answers (step rows) (read rows)) :
    SendsOnce x (fetch x st >>= step) a (.ok (.rows st read)) := by
  obtain ⟨w, -, hw⟩ := asks_fetch x st a
  unfold SendsOnce Sends Exchange.answer
  rw [bind_run, hw]
  dsimp only
  cases (x.rows st a.executor).1 with
  | error e => exact ⟨w, rfl⟩
  | ok rows =>
    obtain ⟨w', -, hw'⟩ := h rows ⟨w, a.drawn, (x.rows st a.executor).2⟩
    exact ⟨w', hw'⟩

/-- A call whose number of rows is read, and nothing else is sent. -/
theorem sendsOnce_count (x : Executor σ) (st : Statement) (a : Session σ)
    {read : UInt64 → Except Error α} {step : UInt64 → Act σ α}
    (h : ∀ n, Answers (step n) (read n)) :
    SendsOnce x (execute x st >>= step) a (.ok (.count st read)) := by
  obtain ⟨w, -, hw⟩ := asks_execute x st a
  unfold SendsOnce Sends Exchange.answer
  rw [bind_run, hw]
  dsimp only
  cases (x.count st a.executor).1 with
  | error e => exact ⟨w, rfl⟩
  | ok n =>
    obtain ⟨w', -, hw'⟩ := h n ⟨w, a.drawn, (x.count st a.executor).2⟩
    exact ⟨w', hw'⟩

/-- A check in front of a call that sends once. -/
theorem SendsOnce.after {step : Act σ β} {r : Except Error β} (hstep : Checks s step a r)
    (hr : Refuses r) {call : β → Act σ α} {checked : β → Except Error (Exchange α)}
    (h : ∀ y w, r = .ok y → s.Grows a.workspace.catalog w.catalog →
      SendsOnce x (call y) { a with workspace := w } (checked y)) :
    SendsOnce x (step >>= call) a (r >>= checked) := by
  obtain ⟨w, hw, hg⟩ := hstep
  cases r with
  | error e => exact ⟨hr e rfl, w, by rw [bind_run, hw]; rfl⟩
  | ok y =>
    have hrun : (step >>= call) a = call y { a with workspace := w } := by
      rw [bind_run, hw]
      rfl
    have hcall := h y w rfl hg
    change SendsOnce x (step >>= call) a (checked y)
    unfold SendsOnce Sends at hcall ⊢
    rw [hrun]
    exact hcall

/-- A statement with parameters of its own in front of a call that sends once. -/
theorem SendsOnce.after_statement {job : Work String} {r : Except Error Plan}
    (hjob : Work.Follows s job { a.workspace with parameters := {} } r)
    (hextends : Work.Extends s job) (hr : Refuses r) {call : Statement → Act σ α}
    {checked : Plan → Except Error (Exchange α)}
    (h : ∀ p w, r = .ok p → s.Grows a.workspace.catalog w.catalog →
      SendsOnce x (call (p.statement s.dialect)) { a with workspace := w } (checked p)) :
    SendsOnce x (statement job >>= call) a (r >>= checked) := by
  have hwhole : (r >>= checked) = (r.map (·.statement s.dialect) >>= fun _ => r >>= checked) := by
    cases r <;> rfl
  rw [hwhole]
  refine .after (checks_statement hjob hextends) (hr.map _) fun st w hst hg => ?_
  obtain ⟨p, hp, rfl⟩ := map_eq_ok_iff.mp hst
  have hcall := h p w hp hg
  subst hp
  exact hcall

/-! ## The list of requests -/

/-- The call fails at a check of this library and the list of requests stays as it is, or else the
    list is one request longer. An error that the executor raises is passed on. -/
structure HandsOver (x : Executor σ) (call : Act (σ × List Request) α)
    (a : Session (σ × List Request)) (checked : Except Error (Exchange α)) : Prop where
  /-- A check that fails is answered, and nothing is handed over. -/
  refused : ∀ e, checked = .error e →
    (∃ q, e = .query q) ∧ ∃ w, call a = .error e { a with workspace := w }
  /-- Otherwise one request is handed over. -/
  sent : ∀ ex, checked = .ok ex → ∃ w,
    call a = ended (ex.answer x a.executor.1).1
      ⟨w, a.drawn, (ex.answer x a.executor.1).2, a.executor.2 ++ [ex.request]⟩
  /-- An error of the executor is that of the call. -/
  raised : ∀ ex e, checked = .ok ex → ex.raised x a.executor.1 = some e →
    ∃ a', call a = .error e a'

/-- A call to a watched executor. -/
theorem SendsOnce.handsOver {x : Executor σ} {call : Act (σ × List Request) α}
    {a : Session (σ × List Request)} {checked : Except Error (Exchange α)}
    (h : SendsOnce x.watched call a checked) : HandsOver x call a checked := by
  have hsent : ∀ ex, checked = .ok ex → ∃ w,
      call a = ended (ex.answer x a.executor.1).1
        ⟨w, a.drawn, (ex.answer x a.executor.1).2, a.executor.2 ++ [ex.request]⟩ := by
    rintro ex rfl
    obtain ⟨w, hw⟩ := h
    rw [ex.answer_watched] at hw
    exact ⟨w, hw⟩
  refine ⟨?_, hsent, ?_⟩
  · rintro e rfl
    exact h
  · intro ex e hex he
    obtain ⟨w, hw⟩ := hsent ex hex
    rw [Exchange.answer_of_raised he] at hw
    exact ⟨_, hw⟩

end Act

/-- Nothing is known and nothing was handed over. -/
def Samples.fresh : Session (Recorder × List Request) := { executor := ({}, []) }

end EntitySql
