/-
  The calls that send one statement: by key, and by condition.

  For each of them the exchange is told from the catalog and the arguments alone, in the order of
  its checks (`Exchange.get` and its like). The call fails with the first check that fails and the
  executor is handed nothing, or else the executor is handed this one request
  (`checked_then_sent_once`).
-/
import EntitySql.Proofs.Sending

namespace EntitySql

open Act (Answers Checks SendsOnce)

/-! ## Exchanges -/

namespace Exchange

variable {ε : Type} (s : Setting) (c : Catalog) (E : Entity ε)

/-- The select of the entity with a key. -/
def get (key : Key) : Except Error (Exchange (Option ε)) := do
  let m ← s.mappings c E.type
  let ps ← (m.keyParameters s.dialect key).mapError .query
  let sql ← s.statement c E.type .get
  return .rows ⟨sql, ps⟩ fun
    | [] => .ok none
    | row :: _ => (E.ofRow m row).2.map some

/-- The update of the row with the key of an entity. A key that is assigned as well is bound
    once. -/
def update (e : ε) (excludeAssigned : Bool) : Except Error (Exchange Bool) := do
  let m ← s.mappings c E.type
  let sql ← s.statement c E.type (.update excludeAssigned)
  let keys ← (m.entityKeyParameters s.dialect E e).mapError .query
  let assigned := Mapping.entityParameters s.dialect E e (m.updatable excludeAssigned)
  return .count ⟨sql, assigned.extend keys⟩ fun rows => .ok (rows > 0)

/-- The deletion of the row with the key of an entity. -/
def delete (e : ε) : Except Error (Exchange Bool) := do
  let m ← s.mappings c E.type
  let sql ← s.statement c E.type .delete
  let keys ← (m.entityKeyParameters s.dialect E e).mapError .query
  return .count ⟨sql, keys⟩ fun rows => .ok (rows > 0)

/-- The deletion of the rows that meet a condition. -/
def deleteWhere (e : EntityType) (p : Option Predicate) : Except Error (Exchange Bool) := do
  let plan ← deletionPlan s.dialect (s.view c) e p
  return .count (plan.statement s.dialect) fun rows => .ok (rows > 0)

/-- A select of entities. -/
def entities (plan : Except Error Plan) : Except Error (Exchange (List ε)) := do
  let plan ← plan
  let m ← s.mappings c E.type
  return .rows (plan.statement s.dialect) fun rows => (E.ofRows m rows).2

/-- The entities that meet a condition, in an order. -/
def list (p : Option Predicate) (terms : List OrderTerm) : Except Error (Exchange (List ε)) :=
  entities s c E
    ((SelectPlan.of s.dialect (s.view c) E.type p terms).map (·.plan s.dialect))

/-- The entities of a page. -/
def page (p : Option Predicate) (terms : List OrderTerm) (page rows : UInt64) :
    Except Error (Exchange (List ε)) :=
  entities s c E (pagePlan s.dialect (s.view c) E.type p terms page rows)

/-- The entities behind the first ones. -/
def set (p : Option Predicate) (terms : List OrderTerm) (first count : UInt64) :
    Except Error (Exchange (List ε)) :=
  entities s c E (setPlan s.dialect (s.view c) E.type p terms first count)

/-- The number of rows that meet a condition. -/
def total (e : EntityType) (p : Option Predicate) : Except Error (Exchange Nat) := do
  let plan ← countPlan s.dialect (s.view c) e p
  return .rows (plan.statement s.dialect) Database.totalOf

end Exchange

/-! ## Checks of keys -/

theorem Database.answers_checkSingleRow {σ : Type} (m : Mapping) (action : String) (rows : UInt64) :
    Answers (checkSingleRow m action rows : Act σ Bool) (.ok (rows > 0)) := by
  unfold checkSingleRow
  by_cases h : rows = 1
  · rw [if_neg (not_not_intro h)]
    exact Act.answers_pure _
  · rw [if_pos h]
    exact (Act.answers_note _ _).bind fun _ _ => Act.answers_pure _

/-! ## Calls -/

namespace Database

variable {σ ε : Type} (db : Database σ) (E : Entity ε) (a : Session σ)

theorem sendsOnce_get (key : Key) :
    SendsOnce db.executor (db.get E key) a
      (Exchange.get db.setting a.workspace.catalog E key) := by
  refine .after (Act.checks_mapping db.setting a E.type) (Setting.refuses_mappings _ _ _)
    fun m w₁ _ hg₁ => ?_
  refine .after (Act.checks_ofExcept db.setting _ _) (.written _) fun ps w₂ _ hg₂ => ?_
  rw [← Setting.statement_of_grows (hg₁.trans hg₂)]
  refine .after (Act.checks_work (Work.yields_getStatement db.setting E.type w₂))
    (Setting.refuses_statement _ _ _ _) fun sql w₃ _ _ => ?_
  refine Act.sendsOnce_rows db.executor ⟨sql, ps⟩ _ fun rows => ?_
  cases rows with
  | nil => exact Act.answers_pure none
  | cons row rows => exact (Act.answers_recorded (E.ofRow m row)).map some

theorem sendsOnce_update (e : ε) (excludeAssigned : Bool) :
    SendsOnce db.executor (db.update E e excludeAssigned) a
      (Exchange.update db.setting a.workspace.catalog E e excludeAssigned) := by
  refine .after (Act.checks_mapping db.setting a E.type) (Setting.refuses_mappings _ _ _)
    fun m w₁ _ hg₁ => ?_
  rw [← Setting.statement_of_grows hg₁]
  refine .after (Act.checks_work (Work.yields_updateStatement db.setting E.type excludeAssigned w₁))
    (Setting.refuses_statement _ _ _ _) fun sql w₂ _ _ => ?_
  refine .after (Act.checks_ofExcept db.setting _ _) (.written _) fun keys w₃ _ _ => ?_
  exact Act.sendsOnce_count db.executor _ _ fun rows => answers_checkSingleRow m "updated" rows

theorem sendsOnce_delete (e : ε) :
    SendsOnce db.executor (db.delete E e) a
      (Exchange.delete db.setting a.workspace.catalog E e) := by
  refine .after (Act.checks_mapping db.setting a E.type) (Setting.refuses_mappings _ _ _)
    fun m w₁ _ hg₁ => ?_
  rw [← Setting.statement_of_grows hg₁]
  refine .after (Act.checks_work (Work.yields_deleteStatement db.setting E.type w₁))
    (Setting.refuses_statement _ _ _ _) fun sql w₂ _ _ => ?_
  refine .after (Act.checks_ofExcept db.setting _ _) (.written _) fun keys w₃ _ _ => ?_
  exact Act.sendsOnce_count db.executor _ _ fun rows => answers_checkSingleRow m "deleted" rows

theorem sendsOnce_deleteWhere (e : EntityType) (p : Option Predicate) :
    SendsOnce db.executor (db.deleteWhere e p) a
      (Exchange.deleteWhere db.setting a.workspace.catalog e p) := by
  refine .after_statement (Work.deleteWhere_follows db.setting e p _)
    (Work.extends_deleteWhere db.setting e p) (.deletionPlan (db.setting.refuses_view _) e p)
    fun plan w _ _ => ?_
  exact Act.sendsOnce_count db.executor _ _ fun rows => Act.answers_pure _

/-- A select of entities, by what it follows. -/
theorem sendsOnce_fetchEntities {sql : Work String} {plan : Except Error Plan}
    (hsql : Work.Follows db.setting sql { a.workspace with parameters := {} } plan)
    (hextends : Work.Extends db.setting sql) (hplan : Refuses plan) :
    SendsOnce db.executor (db.fetchEntities E sql) a
      (Exchange.entities db.setting a.workspace.catalog E plan) := by
  refine .after_statement hsql hextends hplan fun plan w₁ _ hg₁ => ?_
  rw [← Setting.mappings_of_grows hg₁]
  refine .after (Act.checks_mapping db.setting _ E.type) (Setting.refuses_mappings _ _ _)
    fun m w₂ _ _ => ?_
  exact Act.sendsOnce_rows db.executor _ _ fun rows => Act.answers_recorded (E.ofRows m rows)

theorem sendsOnce_getList (p : Option Predicate) (terms : List OrderTerm) :
    SendsOnce db.executor (db.getList E p terms) a
      (Exchange.list db.setting a.workspace.catalog E p terms) :=
  sendsOnce_fetchEntities db E a (Work.select_follows db.setting E.type p terms _)
    (Work.extends_select db.setting E.type p terms)
    ((Refuses.selectPlan (db.setting.refuses_view _) E.type p terms).map _)

theorem sendsOnce_getPage (p : Option Predicate) (terms : List OrderTerm) (page rows : UInt64) :
    SendsOnce db.executor (db.getPage E p terms page rows) a
      (Exchange.page db.setting a.workspace.catalog E p terms page rows) :=
  sendsOnce_fetchEntities db E a (Work.selectPage_follows db.setting E.type p terms page rows _)
    (Work.extends_selectPage db.setting E.type p terms page rows)
    (Refuses.pagePlan (db.setting.refuses_view _) E.type p terms page rows)

theorem sendsOnce_getSet (p : Option Predicate) (terms : List OrderTerm) (first count : UInt64) :
    SendsOnce db.executor (db.getSet E p terms first count) a
      (Exchange.set db.setting a.workspace.catalog E p terms first count) :=
  sendsOnce_fetchEntities db E a (Work.selectSet_follows db.setting E.type p terms first count _)
    (Work.extends_selectSet db.setting E.type p terms first count)
    (Refuses.setPlan (db.setting.refuses_view _) E.type p terms first count)

theorem sendsOnce_count (e : EntityType) (p : Option Predicate) :
    SendsOnce db.executor (db.count e p) a
      (Exchange.total db.setting a.workspace.catalog e p) := by
  refine .after_statement (Work.count_follows db.setting e p _) (Work.extends_count db.setting e p)
    (.countPlan (db.setting.refuses_view _) e p) fun plan w _ _ => ?_
  exact Act.sendsOnce_rows db.executor _ _ fun rows => Act.answers_ofExcept (totalOf rows)

end Database

/-! ## What is sent -/

namespace Exchange

variable {ε : Type} {s : Setting} {w : Workspace} {E : Entity ε}

/-- The statement of the request. -/
abbrev statement {α : Type} (ex : Exchange α) : Statement := ex.request.statement

/-- The text is what the work writes. -/
def HasTextOf {α : Type} (ex : Exchange α) (job : Work String) (w : Workspace) : Prop :=
  ∃ w', job w = .ok ex.statement.sql w'

theorem hasTextOf_of_yields {α : Type} {ex : Exchange α} {job : Work String}
    {r : Except Error String} (h : Work.Yields s job w r) (hr : r = .ok ex.statement.sql) :
    ex.HasTextOf job w := by
  obtain ⟨w', hw', -, -⟩ := h
  rw [hr] at hw'
  exact ⟨w', hw'⟩

/-- The statement is what the work writes and binds from no parameters. -/
def IsWrittenBy {α : Type} (ex : Exchange α) (job : Work String) (w : Workspace) : Prop :=
  ∃ w', job { w with parameters := {} } = .ok ex.statement.sql w' ∧
    w'.parameters = ex.statement.parameters

theorem isWrittenBy_of_follows {α : Type} {ex : Exchange α} {job : Work String}
    {r : Except Error Plan} {p : Plan} (h : Work.Follows s job { w with parameters := {} } r)
    (hp : r = .ok p) (hst : ex.statement = p.statement s.dialect) : ex.IsWrittenBy job w := by
  obtain ⟨w', hw', -, hparameters⟩ := h
  refine ⟨w', ?_, ?_⟩
  · rw [hw', hp, hst]
    rfl
  · rw [hparameters p hp, hst]
    rfl

theorem statement_get {key : Key} {ex : Exchange (Option ε)}
    (h : get s w.catalog E key = .ok ex) :
    s.statement w.catalog E.type .get = .ok ex.statement.sql := by
  obtain ⟨m, -, h⟩ := bind_eq_ok_iff.mp h
  obtain ⟨ps, -, h⟩ := bind_eq_ok_iff.mp h
  obtain ⟨sql, hsql, h⟩ := bind_eq_ok_iff.mp h
  cases h
  exact hsql

/-- The exchange asks for a count of rows and answers whether it is positive. -/
def AsksChange (ex : Exchange Bool) : Prop :=
  ∃ st, ex = .count st fun rows => .ok (decide (rows > 0))

/-- A change of one row, by the kind of its statement, the parameters of the key and what becomes
    of them together with the others. -/
def ofKind (s : Setting) (c : Catalog) (e : EntityType) (kind : StatementKind)
    (keys : Mapping → Except Error Parameters) (all : Mapping → Parameters → Parameters) :
    Except Error (Exchange Bool) := do
  let m ← s.mappings c e
  let sql ← s.statement c e kind
  let ks ← keys m
  return .count ⟨sql, all m ks⟩ fun rows => .ok (rows > 0)

theorem update_eq_ofKind {c : Catalog} (e : ε) (excludeAssigned : Bool) :
    update s c E e excludeAssigned =
      ofKind s c E.type (.update excludeAssigned)
        (fun m => (m.entityKeyParameters s.dialect E e).mapError .query)
        fun m => (Mapping.entityParameters s.dialect E e (m.updatable excludeAssigned)).extend := rfl

theorem delete_eq_ofKind {c : Catalog} (e : ε) :
    delete s c E e =
      ofKind s c E.type .delete
        (fun m => (m.entityKeyParameters s.dialect E e).mapError .query) fun _ ks => ks := rfl

theorem asksChange_ofKind {c : Catalog} {e : EntityType} {kind : StatementKind}
    {keys : Mapping → Except Error Parameters} {all : Mapping → Parameters → Parameters}
    {ex : Exchange Bool} (h : ofKind s c e kind keys all = .ok ex) :
    s.statement c e kind = .ok ex.statement.sql ∧ ex.AsksChange := by
  obtain ⟨m, -, h⟩ := bind_eq_ok_iff.mp h
  obtain ⟨sql, hsql, h⟩ := bind_eq_ok_iff.mp h
  obtain ⟨ks, -, h⟩ := bind_eq_ok_iff.mp h
  cases h
  exact ⟨hsql, _, rfl⟩

theorem isWrittenBy_entities {job : Work String} {r : Except Error Plan}
    (hjob : Work.Follows s job { w with parameters := {} } r) {ex : Exchange (List ε)}
    (h : entities s w.catalog E r = .ok ex) : ex.IsWrittenBy job w := by
  obtain ⟨p, hp, h⟩ := bind_eq_ok_iff.mp h
  obtain ⟨m, -, h⟩ := bind_eq_ok_iff.mp h
  cases h
  exact isWrittenBy_of_follows hjob hp rfl

end Exchange

/-- A call that hands over a statement as it is written. -/
structure Act.HandsOverWritten {σ α : Type} (x : Executor σ) (call : Act (σ × List Request) α)
    (a : Session (σ × List Request)) (checked : Except Error (Exchange α))
    (written : Exchange α → Prop) : Prop extends HandsOver x call a checked where
  /-- What is handed over is written so. -/
  written : ∀ ex, checked = .ok ex → written ex

/-- Every call that sends one statement checks everything first. When a check fails the call fails
    with it and the executor is handed nothing; otherwise the executor is handed one request, with
    the statement that is written for the call, and an error that it raises is passed on. -/
theorem checked_then_sent_once {σ ε : Type} (db : Database σ) (E : Entity ε)
    (a : Session (σ × List Request)) :
    (∀ key, Act.HandsOverWritten db.executor (db.watched.get E key) a
      (Exchange.get db.setting a.workspace.catalog E key)
      (·.HasTextOf (Work.getStatement db.setting E.type) a.workspace)) ∧
    (∀ e excludeAssigned, Act.HandsOverWritten db.executor
      (db.watched.update E e excludeAssigned) a
      (Exchange.update db.setting a.workspace.catalog E e excludeAssigned)
      (·.HasTextOf (Work.updateStatement db.setting E.type excludeAssigned) a.workspace)) ∧
    (∀ e, Act.HandsOverWritten db.executor (db.watched.delete E e) a
      (Exchange.delete db.setting a.workspace.catalog E e)
      (·.HasTextOf (Work.deleteStatement db.setting E.type) a.workspace)) ∧
    (∀ e p, Act.HandsOverWritten db.executor (db.watched.deleteWhere e p) a
      (Exchange.deleteWhere db.setting a.workspace.catalog e p)
      (·.IsWrittenBy (Work.deleteWhere db.setting e p) a.workspace)) ∧
    (∀ p terms, Act.HandsOverWritten db.executor (db.watched.getList E p terms) a
      (Exchange.list db.setting a.workspace.catalog E p terms)
      (·.IsWrittenBy (Work.select db.setting E.type p terms) a.workspace)) ∧
    (∀ p terms page rows, Act.HandsOverWritten db.executor
      (db.watched.getPage E p terms page rows) a
      (Exchange.page db.setting a.workspace.catalog E p terms page rows)
      (·.IsWrittenBy (Work.selectPage db.setting E.type p terms page rows) a.workspace)) ∧
    (∀ p terms first count, Act.HandsOverWritten db.executor
      (db.watched.getSet E p terms first count) a
      (Exchange.set db.setting a.workspace.catalog E p terms first count)
      (·.IsWrittenBy (Work.selectSet db.setting E.type p terms first count) a.workspace)) ∧
    ∀ e p, Act.HandsOverWritten db.executor (db.watched.count e p) a
      (Exchange.total db.setting a.workspace.catalog e p)
      (·.IsWrittenBy (Work.count db.setting e p) a.workspace) := by
  refine ⟨?_, ?_, ?_, ?_, ?_, ?_, ?_, ?_⟩
  · intro key
    refine ⟨(db.watched.sendsOnce_get E a key).handsOver, fun ex hex => ?_⟩
    exact Exchange.hasTextOf_of_yields (Work.yields_getStatement db.setting E.type a.workspace)
      (Exchange.statement_get hex)
  · intro e excludeAssigned
    refine ⟨(db.watched.sendsOnce_update E a e excludeAssigned).handsOver, fun ex hex => ?_⟩
    rw [Exchange.update_eq_ofKind] at hex
    exact Exchange.hasTextOf_of_yields
      (Work.yields_updateStatement db.setting E.type excludeAssigned a.workspace)
      (Exchange.asksChange_ofKind hex).1
  · intro e
    refine ⟨(db.watched.sendsOnce_delete E a e).handsOver, fun ex hex => ?_⟩
    rw [Exchange.delete_eq_ofKind] at hex
    exact Exchange.hasTextOf_of_yields (Work.yields_deleteStatement db.setting E.type a.workspace)
      (Exchange.asksChange_ofKind hex).1
  · intro e p
    refine ⟨(db.watched.sendsOnce_deleteWhere a e p).handsOver, fun ex hex => ?_⟩
    obtain ⟨plan, hplan, hex⟩ := bind_eq_ok_iff.mp hex
    cases hex
    exact Exchange.isWrittenBy_of_follows (Work.deleteWhere_follows db.setting e p _) hplan rfl
  · intro p terms
    exact ⟨(db.watched.sendsOnce_getList E a p terms).handsOver, fun ex hex =>
      Exchange.isWrittenBy_entities (Work.select_follows db.setting E.type p terms _) hex⟩
  · intro p terms page rows
    exact ⟨(db.watched.sendsOnce_getPage E a p terms page rows).handsOver, fun ex hex =>
      Exchange.isWrittenBy_entities (Work.selectPage_follows db.setting E.type p terms page rows _)
        hex⟩
  · intro p terms first count
    exact ⟨(db.watched.sendsOnce_getSet E a p terms first count).handsOver, fun ex hex =>
      Exchange.isWrittenBy_entities
        (Work.selectSet_follows db.setting E.type p terms first count _) hex⟩
  · intro e p
    refine ⟨(db.watched.sendsOnce_count a e p).handsOver, fun ex hex => ?_⟩
    obtain ⟨plan, hplan, hex⟩ := bind_eq_ok_iff.mp hex
    cases hex
    exact Exchange.isWrittenBy_of_follows (Work.count_follows db.setting e p _) hplan rfl

end EntitySql
