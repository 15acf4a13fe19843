/-
  Catalogs that answer alike.

  Two settings of one dialect answer alike with two coherent catalogs when they resolve the same
  mappings (`AnswersAlike`), and go on to do so when the catalogs grow (`AnswersAlike.of_grows`).
  Calls for statements and operations on a database go alike then, whatever the catalogs hold:
  they answer the same, hand the same statements to the executor and draw the same identifiers.
-/
import EntitySql.Proofs.RelatedRuns
import EntitySql.Proofs.SessionRuns

namespace EntitySql

/-! ## Catalogs -/

/-- Two settings of one dialect resolve the same mappings with two coherent catalogs. -/
structure AnswersAlike (s s' : Setting) (c c' : Catalog) : Prop where
  /-- The dialects are equal. -/
  dialect : s'.dialect = s.dialect
  /-- The first catalog is coherent. -/
  left : c.IsCoherent s.dialect
  /-- The second catalog is coherent. -/
  right : c'.IsCoherent s'.dialect
  /-- The mappings are the same. -/
  mappings : s'.mappings c' = s.mappings c

namespace AnswersAlike

variable {s s' : Setting} {c c' c₁ c₁' : Catalog}

/-- The statements are the same, too. -/
theorem statement (h : AnswersAlike s s' c c') : s'.statement c' = s.statement c := by
  funext e kind
  cases hm : s.mappings c e with
  | error cause =>
    have hm' : s'.mappings c' e = .error cause := by rw [h.mappings, hm]
    unfold Setting.statement
    rw [hm, hm']
  | ok m =>
    have hm' : s'.mappings c' e = .ok m := by rw [h.mappings, hm]
    rw [h.left.statement hm, h.right.statement hm', h.dialect]

theorem of_grows (h : AnswersAlike s s' c c') (hg : s.Grows c c₁) (hg' : s'.Grows c' c₁') :
    AnswersAlike s s' c₁ c₁' where
  dialect := h.dialect
  left := h.left.of_grows hg
  right := h.right.of_grows hg'
  mappings := by rw [Setting.mappings_of_grows hg, Setting.mappings_of_grows hg', h.mappings]

end AnswersAlike

/-! ## Work -/

/-- Workspaces with catalogs that answer alike and equal parameters. -/
structure Workspace.Alike (s s' : Setting) (w w' : Workspace) : Prop where
  /-- The catalogs answer alike. -/
  catalog : AnswersAlike s s' w.catalog w'.catalog
  /-- The parameters are equal. -/
  parameters : w'.parameters = w.parameters

namespace Work

variable {s s' : Setting} {α : Type}

theorem goAlike_of_yields {job job' : Work α} {r : Workspace → Except Error α}
    {r' : Workspace → Except Error α} (h : ∀ w, w.catalog.IsCoherent s.dialect → Yields s job w (r w))
    (h' : ∀ w, w.catalog.IsCoherent s'.dialect → Yields s' job' w (r' w))
    (hr : ∀ w w', w.Alike s s' w' → r' w' = r w) : GoAlike (Workspace.Alike s s') job job' := by
  intro w w' hw
  obtain ⟨w₁, hw₁, hg₁, hp₁⟩ := h w hw.catalog.left
  obtain ⟨w₁', hw₁', hg₁', hp₁'⟩ := h' w' hw.catalog.right
  rw [hr w w' hw] at hw₁'
  refine ⟨r w, w₁, w₁', hw₁, hw₁', hw.catalog.of_grows hg₁ hg₁', ?_⟩
  rw [hp₁, hp₁', hw.parameters]

end Work

namespace Call

variable {s s' : Setting}

/-- The query of the generated key, which a mapping without one does not have. -/
theorem yields_identity {w : Workspace} (h : w.catalog.IsCoherent s.dialect) (e : EntityType) :
    Work.Yields s (Work.identityStatement s e) w (s.statement w.catalog e .identity) := by
  have hanswer : s.statement w.catalog e .identity =
      (s.mappings w.catalog e >>= fun m =>
        m.statement s.dialect (s.dialect.selectedColumns m) .identity) := by
    cases hm : s.mappings w.catalog e with
    | error cause =>
      unfold Setting.statement
      rw [hm]
      rfl
    | ok m => exact h.statement hm .identity
  rw [hanswer]
  refine (Work.yields_mapping s e w).bind fun m w₁ hw₁ hg₁ => ?_
  have hm₁ := Work.mapping?_of_mapping hw₁
  have hstatement := (h.of_grows hg₁).statement (Setting.mappings_of_mapping? hm₁) .identity
  rw [← hstatement]
  cases hi : m.identity? with
  | none =>
    unfold Mapping.statement at hstatement
    rw [hi] at hstatement
    rw [hstatement]
    exact ⟨w₁, rfl, .refl, rfl⟩
  | some p =>
    refine Work.yields_known hm₁ ?_
    unfold Mapping.statement
    rw [hi]

/-- A statement of a mapping is answered as the catalog says. -/
theorem yields_keyed {w : Workspace} (h : w.catalog.IsCoherent s.dialect) (e : EntityType)
    (kind : StatementKind) :
    Work.Yields s (keyed s e kind) w (s.statement w.catalog e kind) := by
  cases kind with
  | columns => exact Work.yields_columns s e w
  | get => exact Work.yields_getStatement s e w
  | insert => exact Work.yields_insertStatement s e w
  | update excludeAssigned => exact Work.yields_updateStatement s e excludeAssigned w
  | delete => exact Work.yields_deleteStatement s e w
  | identity => exact yields_identity h e

theorem alike_mapping (s s' : Setting) (e : EntityType) :
    GoAlike (Workspace.Alike s s') (Work.mapping s e) (Work.mapping s' e) :=
  Work.goAlike_of_yields (fun w _ => Work.yields_mapping s e w)
    (fun w _ => Work.yields_mapping s' e w) fun _ _ h => congrFun h.catalog.mappings e

theorem alike_keyed (s s' : Setting) (e : EntityType) (kind : StatementKind) :
    GoAlike (Workspace.Alike s s') (keyed s e kind) (keyed s' e kind) :=
  Work.goAlike_of_yields (fun _ h => yields_keyed h e kind) (fun _ h => yields_keyed h e kind)
    fun _ _ h => congrFun (congrFun h.catalog.statement e) kind

theorem writesAlike (hd : s'.dialect = s.dialect) :
    WritesAlike s s' (Workspace.Alike s s') Eq where
  dialect := hd
  mapping := alike_mapping s s'
  columns e := alike_keyed s s' e .columns
  note _ _ := GoAlike.modify fun _ _ h => ⟨h.catalog, h.parameters⟩
  self _ := rfl
  freshName h base := by rw [h.parameters]
  bind h base v v' hv := ⟨h.catalog, by rw [hv, h.parameters]⟩

/-- What a call answers. -/
def Answer : Call → Type
  | .mapping _ => Mapping
  | _ => String

/-- The work of a call. -/
def reply (s : Setting) : (call : Call) → Work call.Answer
  | .mapping e => Work.mapping s e
  | .statement e kind => keyed s e kind
  | .select x => Work.selection s x
  | .count e p => Work.count s e p
  | .deleteWhere e p => Work.deleteWhere s e p

/-- A call only adds to the catalog before it answers. -/
theorem extends_reply (s : Setting) (call : Call) : Work.Extends s (call.reply s) := by
  have hwork : call.work s = (do let _ ← call.reply s) := by cases call <;> rfl
  intro w
  have hextends := call.extends_work s w
  rw [hwork, bind_run] at hextends
  cases hrun : call.reply s w <;> rw [hrun] at hextends <;> exact hextends

/-- Calls go alike with catalogs that answer alike. -/
theorem alike_reply (hd : s'.dialect = s.dialect) (call : Call) :
    GoAlike (Workspace.Alike s s') (call.reply s) (call.reply s') := by
  have h := writesAlike hd
  cases call with
  | mapping e => exact alike_mapping s s' e
  | statement e kind => exact alike_keyed s s' e kind
  | select x => exact h.selection x
  | count e p => exact h.count e (Predicate.faces_self Eq p)
  | deleteWhere e p => exact h.deleteWhere e (Predicate.faces_self Eq p)

end Call

/-! ## Sessions -/

/-- Sessions with catalogs that answer alike, executors in one state and one number of identifiers
    drawn. -/
structure Session.Alike {σ : Type} (s s' : Setting) (a a' : Session σ) : Prop where
  /-- The catalogs answer alike. -/
  catalog : AnswersAlike s s' a.workspace.catalog a'.workspace.catalog
  /-- The same identifiers were drawn. -/
  drawn : a'.drawn = a.drawn
  /-- The executors are in one state. -/
  executor : a'.executor = a.executor

namespace Act

variable {σ α : Type} {s s' : Setting}

theorem goAlike_of_answers {step : Act σ α} {r : Except Error α} (h : Answers step r) :
    GoAlike (Session.Alike s s') step step := by
  intro a a' ha
  obtain ⟨w, hc, hw⟩ := h a
  obtain ⟨w', hc', hw'⟩ := h a'
  refine ⟨r, _, _, hw, hw', ?_, ha.drawn, ha.executor⟩
  dsimp only
  rw [hc, hc']
  exact ha.catalog

theorem goAlike_of_asks {step : Act σ α} {send : σ → Except Error α × σ} (h : Asks step send) :
    GoAlike (Session.Alike s s') step step := by
  intro a a' ha
  obtain ⟨w, hc, hw⟩ := h a
  obtain ⟨w', hc', hw'⟩ := h a'
  rw [ha.executor] at hw'
  refine ⟨(send a.executor).1, _, _, hw, hw', ?_, ha.drawn, rfl⟩
  dsimp only
  rw [hc, hc']
  exact ha.catalog

theorem goAlike_of_checks {step step' : Act σ α} {r r' : Catalog → Except Error α}
    (h : ∀ a, a.workspace.catalog.IsCoherent s.dialect → Checks s step a (r a.workspace.catalog))
    (h' : ∀ a, a.workspace.catalog.IsCoherent s'.dialect →
      Checks s' step' a (r' a.workspace.catalog))
    (hr : ∀ c c', AnswersAlike s s' c c' → r' c' = r c) :
    GoAlike (Session.Alike s s') step step' := by
  intro a a' ha
  obtain ⟨w, hw, hg⟩ := h a ha.catalog.left
  obtain ⟨w', hw', hg'⟩ := h' a' ha.catalog.right
  rw [hr _ _ ha.catalog] at hw'
  exact ⟨_, _, _, hw, hw', ha.catalog.of_grows hg hg', ha.drawn, ha.executor⟩

theorem alike_mapping (s s' : Setting) (e : EntityType) :
    GoAlike (Session.Alike s s') (work (Work.mapping s e) : Act σ Mapping)
      (work (Work.mapping s' e)) :=
  goAlike_of_checks (fun a _ => checks_mapping s a e) (fun a _ => checks_mapping s' a e)
    fun _ _ h => congrFun h.mappings e

theorem alike_keyed (s s' : Setting) (e : EntityType) (kind : StatementKind) :
    GoAlike (Session.Alike s s') (work (Call.keyed s e kind) : Act σ String)
      (work (Call.keyed s' e kind)) :=
  goAlike_of_checks (fun _ h => checks_work (Call.yields_keyed h e kind))
    (fun _ h => checks_work (Call.yields_keyed h e kind))
    fun _ _ h => congrFun (congrFun h.statement e) kind

theorem alike_ofExcept (r : Except QueryError α) :
    GoAlike (Session.Alike s s') (work (Work.ofExcept r) : Act σ α) (work (Work.ofExcept r)) :=
  goAlike_of_checks (fun a _ => checks_ofExcept s r a) (fun a _ => checks_ofExcept s' r a)
    fun _ _ _ => rfl

/-- A statement with parameters of its own is written alike. -/
theorem alike_statement {job job' : Work String} (h : GoAlike (Workspace.Alike s s') job job') :
    GoAlike (Session.Alike s s') (statement job : Act σ Statement) (statement job') := by
  intro a a' ha
  obtain ⟨r, w, w', hw, hw', hR⟩ := h { a.workspace with parameters := {} }
    { a'.workspace with parameters := {} } ⟨ha.catalog, rfl⟩
  have hrun : ∀ (job : Work String) (a : Session σ) (r : Except Error String) (w : Workspace),
      job { a.workspace with parameters := {} } = ended r w →
        (statement job : Act σ Statement) a =
          ended (r.map fun sql => ⟨sql, w.parameters⟩) { a with workspace := w } := by
    intro job a r w hw
    unfold statement
    rw [bind_run]
    change ((work job) >>= fun sql => _) _ = _
    rw [bind_run, work, hw]
    cases r <;> rfl
  have hrun' := hrun job' a' r w' hw'
  rw [hR.parameters] at hrun'
  exact ⟨_, _, _, hrun job a r w hw, hrun', hR.catalog, ha.drawn, ha.executor⟩

end Act

/-! ## Operations -/

/-- The database with other definitions in force. -/
def Database.under {σ : Type} (db : Database σ) (model : Model) : Database σ :=
  { db with setting := ⟨db.setting.dialect, model⟩ }

theorem Database.dialect_under {σ : Type} (db : Database σ) (model : Model) :
    (db.under model).setting.dialect = db.setting.dialect := rfl

namespace Database

open Act

variable {σ ε : Type} (db : Database σ) (model : Model) (E : Entity ε)

/-- Sessions whose catalogs answer alike under the definitions in force and under others. -/
abbrev Alike (a a' : Session σ) : Prop := a.Alike db.setting (db.under model).setting a'

theorem alike_call (call : Call) :
    GoAlike (Workspace.Alike db.setting (db.under model).setting) (call.reply db.setting)
      (call.reply (db.under model).setting) :=
  Call.alike_reply (db.dialect_under model) call

theorem alike_get (key : Key) :
    GoAlike (db.Alike model) (db.get E key) ((db.under model).get E key) := by
  refine GoAlike.bind (alike_mapping _ _ E.type) fun m => ?_
  refine GoAlike.bind (alike_ofExcept _) fun ps => ?_
  refine GoAlike.bind (alike_keyed _ _ E.type .get) fun sql => ?_
  refine GoAlike.bind (goAlike_of_asks (asks_fetch db.executor _)) fun rows => ?_
  cases rows with
  | nil => exact GoAlike.pure none
  | cons row rows =>
    exact GoAlike.bind (goAlike_of_answers (answers_recorded (E.ofRow m row))) fun e =>
      GoAlike.pure (some e)

theorem alike_update (e : ε) (excludeAssigned : Bool) :
    GoAlike (db.Alike model) (db.update E e excludeAssigned)
      ((db.under model).update E e excludeAssigned) := by
  refine GoAlike.bind (alike_mapping _ _ E.type) fun m => ?_
  refine GoAlike.bind (alike_keyed _ _ E.type (.update excludeAssigned)) fun sql => ?_
  refine GoAlike.bind (alike_ofExcept _) fun keys => ?_
  refine GoAlike.bind (goAlike_of_asks (asks_execute db.executor _)) fun rows => ?_
  exact goAlike_of_answers (answers_checkSingleRow m "updated" rows)

theorem alike_delete (e : ε) :
    GoAlike (db.Alike model) (db.delete E e) ((db.under model).delete E e) := by
  refine GoAlike.bind (alike_mapping _ _ E.type) fun m => ?_
  refine GoAlike.bind (alike_keyed _ _ E.type .delete) fun sql => ?_
  refine GoAlike.bind (alike_ofExcept _) fun keys => ?_
  refine GoAlike.bind (goAlike_of_asks (asks_execute db.executor _)) fun rows => ?_
  exact goAlike_of_answers (answers_checkSingleRow m "deleted" rows)

theorem alike_deleteWhere (e : EntityType) (p : Option Predicate) :
    GoAlike (db.Alike model) (db.deleteWhere e p) ((db.under model).deleteWhere e p) := by
  refine GoAlike.bind (alike_statement (db.alike_call model (.deleteWhere e p))) fun st => ?_
  exact GoAlike.bind (goAlike_of_asks (asks_execute db.executor st)) fun rows => GoAlike.pure _

theorem alike_fetchEntities {sql sql' : Work String}
    (h : GoAlike (Workspace.Alike db.setting (db.under model).setting) sql sql') :
    GoAlike (db.Alike model) (db.fetchEntities E sql) ((db.under model).fetchEntities E sql') := by
  refine GoAlike.bind (alike_statement h) fun st => ?_
  refine GoAlike.bind (alike_mapping _ _ E.type) fun m => ?_
  refine GoAlike.bind (goAlike_of_asks (asks_fetch db.executor st)) fun rows => ?_
  exact goAlike_of_answers (answers_recorded (E.ofRows m rows))

theorem alike_count (e : EntityType) (p : Option Predicate) :
    GoAlike (db.Alike model) (db.count e p) ((db.under model).count e p) := by
  refine GoAlike.bind (alike_statement (db.alike_call model (.count e p))) fun st => ?_
  refine GoAlike.bind (goAlike_of_asks (asks_fetch db.executor st)) fun rows => ?_
  exact goAlike_of_answers (answers_ofExcept (totalOf rows))

theorem alike_fetchOneByOne (xs : List Selection) :
    GoAlike (db.Alike model) (db.fetchOneByOne xs) ((db.under model).fetchOneByOne xs) := by
  induction xs with
  | nil => exact GoAlike.pure []
  | cons x xs ih =>
    refine GoAlike.bind (alike_statement (db.alike_call model (.select x))) fun st => ?_
    refine GoAlike.bind (goAlike_of_asks (asks_fetch db.executor st)) fun rows => ?_
    exact GoAlike.bind ih fun sets => GoAlike.pure _

/-- A batch is refused on both sides or on none. -/
theorem alike_fetchAtOnce (xs : List Selection) :
    GoAlike (db.Alike model) (db.fetchAtOnce xs) ((db.under model).fetchAtOnce xs) := by
  have hstatement := alike_statement (σ := σ) (GoAlike.bind
    ((Call.writesAlike (db.dialect_under model)).selections xs)
    fun texts => GoAlike.pure (db.setting.dialect.separator.intercalate texts))
  refine GoAlike.bind hstatement fun st => ?_
  intro a a' ha
  obtain ⟨r, y, y', hy, hy', hR⟩ :=
    goAlike_of_asks (asks_fetchBatch db.executor st) a a' ha
  have hy'' : fetchBatch (db.under model).executor st a' = ended r y' := hy'
  dsimp only
  rw [hy, hy'']
  cases r with
  | ok sets =>
    dsimp only [ended]
    by_cases hlength : sets.length = xs.length
    · rw [if_pos hlength, if_pos hlength]
      exact ⟨.ok (some sets), y, y', rfl, rfl, hR⟩
    · rw [if_neg hlength, if_neg hlength]
      exact ⟨.error (.setCount xs.length sets.length), y, y', rfl, rfl, hR⟩
  | error cause =>
    dsimp only [ended]
    have hnote : GoAlike (db.Alike model)
        (do note .debug (cause.fullMessage ++ ", sending the selects one by one")
            return (none : Option (List RowSet)))
        (do note .debug (cause.fullMessage ++ ", sending the selects one by one")
            return none) :=
      GoAlike.bind (goAlike_of_answers (answers_note _ _)) fun _ => GoAlike.pure none
    cases cause.query? with
    | none => exact ⟨.error cause, y, y', rfl, rfl, hR⟩
    | some q =>
      cases q with
      | unsupported what => exact hnote y y' hR
      | _ => exact ⟨.error cause, y, y', rfl, rfl, hR⟩

theorem alike_getMultiple (xs : List Selection) :
    GoAlike (db.Alike model) (db.getMultiple xs) ((db.under model).getMultiple xs) := by
  have honeByOne := GoAlike.bind (db.alike_fetchOneByOne model xs) fun sets =>
    GoAlike.pure (⟨(xs.map (·.entity)).zip sets⟩ : ResultReader)
  cases hxs : xs.isEmpty with
  | true =>
    unfold getMultiple
    rw [hxs]
    exact GoAlike.pure ({} : ResultReader)
  | false =>
    cases hb : db.setting.dialect.batches with
    | true =>
      rw [db.getMultiple_of_batches hxs hb, (db.under model).getMultiple_of_batches hxs hb]
      refine GoAlike.bind (db.alike_fetchAtOnce model xs) fun sets => ?_
      cases sets with
      | some sets => exact GoAlike.pure _
      | none => exact honeByOne
    | false =>
      rw [db.getMultiple_of_not_batches hxs hb, (db.under model).getMultiple_of_not_batches hxs hb]
      exact honeByOne

/-! ## Insertions -/

/-- What is prepared for an entity depends on what the catalog answers. -/
theorem prepared_under {c c' : Catalog}
    (h : AnswersAlike db.setting (db.under model).setting c c') (n : Nat) (e : ε) :
    (db.under model).prepared E c' n e = db.prepared E c n e := by
  have hof : ∀ m e, PreparedInsertion.of (db.under model).setting c' E m e =
      PreparedInsertion.of db.setting c E m e := by
    intro m e
    unfold PreparedInsertion.of
    rw [h.statement, h.dialect]
  unfold prepared
  rw [h.mappings]
  simp only [hof]
  rfl

/-- Two results of an insertion: the same answer, the same entities, and sessions alike. -/
structure SameResult {α β : Type} (r r' : α × β × Session σ) : Prop where
  /-- The answers are equal. -/
  answer : r'.1 = r.1
  /-- The entities are equal. -/
  entities : r'.2.1 = r.2.1
  /-- The sessions are alike. -/
  session : db.Alike model r.2.2 r'.2.2

theorem alike_insertOne (e : ε) {a a' : Session σ} (ha : db.Alike model a a') :
    db.SameResult model (db.insertOne E e a) ((db.under model).insertOne E e a') := by
  obtain ⟨w, hg, hw⟩ := Inserting.insert_run db E ⟨a, e⟩
  obtain ⟨w', hg', hw'⟩ := Inserting.insert_run (db.under model) E ⟨a', e⟩
  dsimp only at hg hw hg' hw'
  have hcatalog := ha.catalog.of_grows hg hg'
  rw [db.prepared_under model E ha.catalog, ha.drawn, ha.executor] at hw'
  unfold insertOne
  rw [hw, hw']
  generalize db.prepared E a.workspace.catalog a.drawn e = r
  obtain ⟨r, n, e⟩ := r
  cases r with
  | error cause => exact ⟨rfl, rfl, hcatalog, rfl, rfl⟩
  | ok p =>
    dsimp only [under]
    cases (p.outcome E (p.sent db.setting.dialect db.executor a.executor).1 e).1 with
    | error cause => exact ⟨rfl, rfl, hcatalog, rfl, rfl⟩
    | ok key => exact ⟨rfl, rfl, hcatalog, rfl, rfl⟩

theorem alike_insertMany (es : List ε) {a a' : Session σ} (ha : db.Alike model a a') :
    db.SameResult model (db.insertMany E es a) ((db.under model).insertMany E es a') := by
  induction es generalizing a a' with
  | nil => exact ⟨rfl, rfl, ha⟩
  | cons e es ih =>
    obtain ⟨hanswer, hentity, hsession⟩ := db.alike_insertOne model E e ha
    unfold insertMany
    generalize db.insertOne E e a = one at hanswer hentity hsession
    generalize (db.under model).insertOne E e a' = one' at hanswer hentity hsession
    obtain ⟨r, e₁, a₁⟩ := one
    obtain ⟨r', e₁', a₁'⟩ := one'
    obtain rfl : r' = r := hanswer
    obtain rfl : e₁' = e₁ := hentity
    cases r' with
    | error cause => exact ⟨rfl, rfl, hsession⟩
    | ok key =>
      obtain ⟨hanswers, hentities, hsessions⟩ := ih hsession
      refine ⟨?_, ?_, hsessions⟩
      · exact congrArg (Except.map (key :: ·)) hanswers
      · exact congrArg (e₁' :: ·) hentities

end Database

/-! ## Replies -/

/-- The answer of work that has ended. -/
def answerOf {ε σ α : Type} : EStateM.Result ε σ α → Except ε α
  | .ok x _ => .ok x
  | .error e _ => .error e

theorem answerOf_ended {ε σ α : Type} (r : Except ε α) (s : σ) : answerOf (ended r s) = r := by
  cases r <;> rfl

theorem GoAlike.answerOf_eq {ε σ τ α : Type} {R : σ → τ → Prop} {job : EStateM ε σ α}
    {job' : EStateM ε τ α} (h : GoAlike R job job') {x : σ} {x' : τ} (hR : R x x') :
    answerOf (job' x') = answerOf (job x) ∧ R (lastState (job x)) (lastState (job' x')) := by
  obtain ⟨r, y, y', hy, hy', hR'⟩ := h x x' hR
  rw [hy, hy', answerOf_ended, answerOf_ended, lastState_ended, lastState_ended]
  exact ⟨rfl, hR'⟩

namespace Operation

variable {σ ε : Type}

/-- What an operation answers. An insertion answers the entities, too. -/
def Answer : Operation ε → Type
  | .insert _ => Except Error (List Key) × List ε
  | .get _ => Except Error (Option ε)
  | .entities _ => Except Error (List ε)
  | .count _ _ => Except Error Nat
  | .multiple _ => Except Error ResultReader
  | _ => Except Error Bool

/-- The answer of an operation. -/
def reply (db : Database σ) (E : Entity ε) (a : Session σ) : (op : Operation ε) → op.Answer
  | .insert es => ((db.insertMany E es a).1, (db.insertMany E es a).2.1)
  | .get key => answerOf (db.get E key a)
  | .update e excludeAssigned => answerOf (db.update E e excludeAssigned a)
  | .delete e => answerOf (db.delete E e a)
  | .deleteWhere e p => answerOf (db.deleteWhere e p a)
  | .entities x => answerOf (db.fetchEntities E (Work.selection db.setting x) a)
  | .count e p => answerOf (db.count e p a)
  | .multiple xs => answerOf (db.getMultiple xs a)

/-- Operations answer the same and leave sessions alike when the catalogs answer alike. -/
theorem alike_reply (db : Database σ) (model : Model) (E : Entity ε) (op : Operation ε)
    {a a' : Session σ} (ha : db.Alike model a a') :
    op.reply (db.under model) E a' = op.reply db E a ∧
      db.Alike model (op.after db E a) (op.after (db.under model) E a') := by
  cases op with
  | insert es =>
    obtain ⟨hanswer, hentities, hsession⟩ := db.alike_insertMany model E es ha
    exact ⟨Prod.ext hanswer hentities, hsession⟩
  | get key => exact (db.alike_get model E key).answerOf_eq ha
  | update e excludeAssigned => exact (db.alike_update model E e excludeAssigned).answerOf_eq ha
  | delete e => exact (db.alike_delete model E e).answerOf_eq ha
  | deleteWhere e p => exact (db.alike_deleteWhere model e p).answerOf_eq ha
  | entities x =>
    have hselection := db.alike_call model (.select x)
    exact (db.alike_fetchEntities model E hselection).answerOf_eq ha
  | count e p => exact (db.alike_count model e p).answerOf_eq ha
  | multiple xs => exact (db.alike_getMultiple model xs).answerOf_eq ha

end Operation

end EntitySql
