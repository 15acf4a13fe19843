/-
  What the operations on a database do to the catalog, and the catalogs that come about.

  An operation only adds to the catalog (`Operation.grows`), whatever the executor answers and
  wherever the operation fails. A catalog is reached from the empty one by calls for statements and
  by operations, the mappings in force being others each time, and by being cleared; all of these
  are coherent (`Catalog.IsReached.isCoherent`).
-/
import EntitySql.Proofs.Insertion
import EntitySql.Proofs.SeveralSelects
import EntitySql.Proofs.SingleExchange

namespace EntitySql

theorem Work.extends_selections (s : Setting) (xs : List Selection) :
    Work.Extends s (Work.selections s xs) := by
  induction xs with
  | nil => exact Setting.extends_pure []
  | cons x xs ih =>
    exact (Work.extends_selection s x).bind fun _ => ih.bind fun _ => Setting.extends_pure _

namespace Act

variable {σ α : Type} {s : Setting}

/-- What only adds to the catalog of a session. -/
abbrev Extends (s : Setting) (step : Act σ α) : Prop := s.Extends (·.workspace.catalog) step

theorem extends_work {job : Work α} (h : Work.Extends s job) : Extends s (work job : Act σ α) := by
  intro a
  have hjob := h a.workspace
  unfold work
  cases hrun : job a.workspace <;> rw [hrun] at hjob <;> exact hjob

theorem Answers.extends {step : Act σ α} {r : Except Error α} (h : Answers step r) :
    Extends s step := by
  intro a
  obtain ⟨w, hc, hw⟩ := h a
  rw [hw, lastState_ended]
  change s.Grows a.workspace.catalog w.catalog
  rw [hc]

theorem Asks.extends {step : Act σ α} {send : σ → Except Error α × σ} (h : Asks step send) :
    Extends s step := by
  intro a
  obtain ⟨w, hc, hw⟩ := h a
  rw [hw, lastState_ended]
  change s.Grows a.workspace.catalog w.catalog
  rw [hc]

theorem extends_statement {sql : Work String} (h : Work.Extends s sql) :
    Extends s (statement sql : Act σ Statement) := by
  refine Setting.Extends.bind (fun _ => .refl) fun _ => ?_
  exact (extends_work h).bind fun sql => fun _ => .refl

end Act

namespace Database

open Act

variable {σ ε : Type} (db : Database σ) (E : Entity ε)

theorem extends_get (key : Key) : Extends db.setting (db.get E key) := by
  refine (extends_work (Work.extends_mapping _ _)).bind fun m => ?_
  refine (extends_work (Work.extends_ofExcept _ _)).bind fun ps => ?_
  refine (extends_work (Call.extends_keyed db.setting E.type .get)).bind fun sql => ?_
  refine (asks_fetch db.executor _).extends.bind fun rows => ?_
  cases rows with
  | nil => exact Setting.extends_pure none
  | cons row rows =>
    exact (answers_recorded (E.ofRow m row)).extends.bind fun e => Setting.extends_pure (some e)

theorem extends_update (e : ε) (excludeAssigned : Bool) :
    Extends db.setting (db.update E e excludeAssigned) := by
  refine (extends_work (Work.extends_mapping _ _)).bind fun m => ?_
  refine (extends_work (Call.extends_keyed db.setting E.type (.update excludeAssigned))).bind
    fun sql => ?_
  refine (extends_work (Work.extends_ofExcept _ _)).bind fun keys => ?_
  exact (asks_execute db.executor _).extends.bind fun rows =>
    (answers_checkSingleRow m "updated" rows).extends

theorem extends_delete (e : ε) : Extends db.setting (db.delete E e) := by
  refine (extends_work (Work.extends_mapping _ _)).bind fun m => ?_
  refine (extends_work (Call.extends_keyed db.setting E.type .delete)).bind fun sql => ?_
  refine (extends_work (Work.extends_ofExcept _ _)).bind fun keys => ?_
  exact (asks_execute db.executor _).extends.bind fun rows =>
    (answers_checkSingleRow m "deleted" rows).extends

theorem extends_deleteWhere (e : EntityType) (p : Option Predicate) :
    Extends db.setting (db.deleteWhere e p) :=
  (extends_statement (Work.extends_deleteWhere _ e p)).bind fun _ =>
    (asks_execute db.executor _).extends.bind fun _ => Setting.extends_pure _

theorem extends_fetchEntities {sql : Work String} (h : Work.Extends db.setting sql) :
    Extends db.setting (db.fetchEntities E sql) :=
  (extends_statement h).bind fun _ => (extends_work (Work.extends_mapping _ _)).bind fun _ =>
    (asks_fetch db.executor _).extends.bind fun _ => (answers_recorded _).extends

theorem extends_count (e : EntityType) (p : Option Predicate) :
    Extends db.setting (db.count e p) :=
  (extends_statement (Work.extends_count _ e p)).bind fun _ =>
    (asks_fetch db.executor _).extends.bind fun _ => (answers_ofExcept _).extends

theorem extends_fetchOneByOne (xs : List Selection) :
    Extends db.setting (db.fetchOneByOne xs) := by
  induction xs with
  | nil => exact Setting.extends_pure []
  | cons x xs ih =>
    exact (extends_statement (Work.extends_selection _ x)).bind fun _ =>
      (asks_fetch db.executor _).extends.bind fun _ => ih.bind fun _ => Setting.extends_pure _

/-- A batch that the executor refuses leaves the catalog as it is. -/
theorem extends_fetchAtOnce (xs : List Selection) : Extends db.setting (db.fetchAtOnce xs) := by
  refine (extends_statement ((Work.extends_selections _ xs).bind fun _ =>
    Setting.extends_pure _)).bind fun st => ?_
  intro a
  have hbatch := (asks_fetchBatch db.executor st).extends (s := db.setting) a
  dsimp only
  cases hrun : fetchBatch db.executor st a with
  | ok sets a' =>
    rw [hrun] at hbatch
    dsimp only
    split <;> exact hbatch
  | error cause a' =>
    rw [hrun] at hbatch
    dsimp only
    split
    · exact hbatch.trans ((answers_note _ _).extends (s := db.setting) a')
    · exact hbatch

theorem extends_getMultiple (xs : List Selection) : Extends db.setting (db.getMultiple xs) := by
  have honeByOne := (db.extends_fetchOneByOne xs).bind fun sets =>
    Setting.extends_pure (⟨(xs.map (·.entity)).zip sets⟩ : ResultReader)
  cases hxs : xs.isEmpty with
  | true =>
    unfold getMultiple
    rw [hxs]
    exact Setting.extends_pure _
  | false =>
    cases hb : db.setting.dialect.batches with
    | true =>
      rw [db.getMultiple_of_batches hxs hb]
      refine (db.extends_fetchAtOnce xs).bind fun sets => ?_
      cases sets with
      | some sets => exact Setting.extends_pure _
      | none => exact honeByOne
    | false =>
      rw [db.getMultiple_of_not_batches hxs hb]
      exact honeByOne

/-! ## Insertions -/

theorem grows_insertOne (e : ε) (a : Session σ) :
    db.setting.Grows a.workspace.catalog (db.insertOne E e a).2.2.workspace.catalog := by
  obtain ⟨w, hg, hw⟩ := Inserting.insert_run db E ⟨a, e⟩
  unfold insertOne
  rw [hw]
  dsimp only
  generalize db.prepared E a.workspace.catalog a.drawn e = r
  obtain ⟨r, n, e'⟩ := r
  cases r with
  | error cause => exact hg
  | ok p =>
    dsimp only
    cases (p.outcome E (p.sent db.setting.dialect db.executor a.executor).1 e').1 <;> exact hg

theorem grows_insertMany (es : List ε) (a : Session σ) :
    db.setting.Grows a.workspace.catalog (db.insertMany E es a).2.2.workspace.catalog := by
  induction es generalizing a with
  | nil => exact .refl
  | cons e es ih =>
    have hone := db.grows_insertOne E e a
    unfold insertMany
    generalize db.insertOne E e a = r at hone
    obtain ⟨r, e', a'⟩ := r
    cases r with
    | error cause => exact hone
    | ok key => exact hone.trans (ih a')

end Database

/-! ## Operations -/

/-- An operation on a database, with what it is given. -/
inductive Operation (ε : Type) where
  /-- The insertion of entities in order. -/
  | insert (es : List ε)
  /-- The select of the entity with a key. -/
  | get (key : Key)
  /-- The update of the row of an entity. -/
  | update (e : ε) (excludeAssigned : Bool)
  /-- The deletion of the row of an entity. -/
  | delete (e : ε)
  /-- The deletion of the rows that meet a condition. -/
  | deleteWhere (e : EntityType) (p : Option Predicate)
  /-- The entities of a select. -/
  | entities (x : Selection)
  /-- The number of rows that meet a condition. -/
  | count (e : EntityType) (p : Option Predicate)
  /-- The result sets of several selects. -/
  | multiple (xs : List Selection)

/-- The session in which an operation has ended. -/
def Operation.after {σ ε : Type} (db : Database σ) (E : Entity ε) (a : Session σ) :
    Operation ε → Session σ
  | .insert es => (db.insertMany E es a).2.2
  | .get key => lastState (db.get E key a)
  | .update e excludeAssigned => lastState (db.update E e excludeAssigned a)
  | .delete e => lastState (db.delete E e a)
  | .deleteWhere e p => lastState (db.deleteWhere e p a)
  | .entities x => lastState (db.fetchEntities E (Work.selection db.setting x) a)
  | .count e p => lastState (db.count e p a)
  | .multiple xs => lastState (db.getMultiple xs a)

/-- An operation only adds to the catalog, however it ends. -/
theorem Operation.grows {σ ε : Type} (db : Database σ) (E : Entity ε) (a : Session σ)
    (op : Operation ε) :
    db.setting.Grows a.workspace.catalog (op.after db E a).workspace.catalog := by
  cases op with
  | insert es => exact db.grows_insertMany E es a
  | get key => exact db.extends_get E key a
  | update e excludeAssigned => exact db.extends_update E e excludeAssigned a
  | delete e => exact db.extends_delete E e a
  | deleteWhere e p => exact db.extends_deleteWhere e p a
  | entities x => exact db.extends_fetchEntities E (Work.extends_selection _ x) a
  | count e p => exact db.extends_count e p a
  | multiple xs => exact db.extends_getMultiple xs a

/-! ## Catalogs that can be reached -/

namespace Catalog

/-- The catalogs that come about from the empty one. The mappings in force may be others each time,
    and what fails keeps what it did. -/
inductive IsReached (d : Dialect) : Catalog → Prop
  /-- Nothing is known. -/
  | empty : IsReached d {}
  /-- A call was made. -/
  | call {w : Workspace} (h : IsReached d w.catalog) (s : Setting) (hs : s.dialect = d)
      (call : Call) : IsReached d (lastState (call.work s w)).catalog
  /-- An operation was carried out. -/
  | operation {σ ε : Type} {a : Session σ} (h : IsReached d a.workspace.catalog)
      (db : Database σ) (hdb : db.setting.dialect = d) (E : Entity ε) (op : Operation ε) :
      IsReached d (op.after db E a).workspace.catalog
  /-- Everything was forgotten. -/
  | cleared {w : Workspace} (h : IsReached d w.catalog) :
      IsReached d (lastState (Work.clearCatalog w)).catalog

/-- Every catalog that is reached is coherent. -/
theorem IsReached.isCoherent {d : Dialect} {c : Catalog} (h : IsReached d c) :
    c.IsCoherent d := by
  induction h with
  | empty => exact isCoherent_empty d
  | @call w _ s hs call ih =>
    subst hs
    exact ih.of_grows (call.extends_work s w)
  | @operation σ ε a _ db hdb E op ih =>
    subst hdb
    exact ih.of_grows (op.grows db E a)
  | cleared _ _ => exact isCoherent_empty d

end Catalog

end EntitySql
