/-
  The history of a catalog: what it knows after a sequence of steps.

  A step is a call for a mapping or a statement, an operation, the reading of a result set, or the
  clearing of the catalog, and the definitions in force may be others at each step. A step with
  definitions only adds to the catalog (`Step.grows`), so every catalog that comes about is sound
  (`isSound_history`). A mapping that is known was in force at the step that resolved it first
  since the catalog was cleared (`exists_firstResolution`). So a session goes on like one that
  knows nothing, under the definitions that its catalog holds (`answersLike_forgotten`).
-/
import EntitySql.Proofs.SoundCatalogs
import EntitySql.Samples
import Mathlib.Data.List.Induction

namespace EntitySql

/-! ## Steps -/

/-- A step of a history, with the definitions that are in force for it. -/
inductive Step (σ : Type) : Type 1 where
  /-- A call for a mapping or a statement. -/
  | call (model : Model) (call : Call)
  /-- An operation on a database. -/
  | operation {ε : Type} (model : Model) (ids : IdentifierSource) (x : Executor σ) (E : Entity ε)
    (op : Operation ε)
  /-- The reading of the next result set. -/
  | read {ε : Type} (model : Model) (E : Entity ε) (reader : ResultReader)
  /-- Everything is forgotten. -/
  | clear

namespace Step

variable {σ : Type}

/-- The definitions in force, of a step that has some. -/
def model? : Step σ → Option Model
  | .call model _ => some model
  | .operation model _ _ _ _ => some model
  | .read model _ _ => some model
  | .clear => none

/-- The session after a step, however the step ends. -/
def run (d : Dialect) (a : Session σ) : Step σ → Session σ
  | .call model c => { a with workspace := lastState (c.reply ⟨d, model⟩ a.workspace) }
  | .operation model ids x E op => op.after ⟨⟨d, model⟩, ids, x⟩ E a
  | .read model E reader => { a with workspace := (reader.read ⟨d, model⟩ E a.workspace).2.2 }
  | .clear => { a with workspace := lastState (Work.clearCatalog a.workspace) }

end Step

/-- The reading of a result set resolves a mapping at most. -/
theorem ResultReader.grows_read {ε : Type} (s : Setting) (E : Entity ε) (r : ResultReader)
    (w : Workspace) : s.Grows w.catalog (r.read s E w).2.2.catalog := by
  obtain ⟨sets⟩ := r
  cases sets with
  | nil => exact .refl
  | cons set sets =>
    obtain ⟨expected, rows⟩ := set
    have hmapping := Work.extends_mapping s E.type w
    unfold read
    by_cases he : expected = E.type
    · dsimp only
      rw [if_pos he]
      cases hm : Work.mapping s E.type w with
      | error cause w' =>
        rw [hm] at hmapping
        exact hmapping
      | ok m w' =>
        rw [hm] at hmapping
        exact hmapping
    · dsimp only
      rw [if_neg he]

namespace Step

variable {σ : Type}

/-- A step with definitions only adds to the catalog. -/
theorem grows (d : Dialect) (a : Session σ) {step : Step σ} {model : Model}
    (h : step.model? = some model) :
    Setting.Grows ⟨d, model⟩ a.workspace.catalog (step.run d a).workspace.catalog := by
  cases step with
  | call model' c =>
    obtain rfl := Option.some.inj h
    exact c.extends_reply ⟨d, model'⟩ a.workspace
  | operation model' ids x E op =>
    obtain rfl := Option.some.inj h
    exact op.grows ⟨⟨d, model'⟩, ids, x⟩ E a
  | read model' E reader =>
    obtain rfl := Option.some.inj h
    exact reader.grows_read ⟨d, model'⟩ E a.workspace
  | clear => cases h

/-- A step without definitions forgets everything. -/
theorem catalog_of_model?_none (d : Dialect) (a : Session σ) {step : Step σ}
    (h : step.model? = none) : (step.run d a).workspace.catalog = {} := by
  cases step with
  | clear => rfl
  | _ => cases h

theorem isSound_run {d : Dialect} {a : Session σ} (h : a.workspace.catalog.IsSound d)
    (step : Step σ) : (step.run d a).workspace.catalog.IsSound d := by
  cases hmodel : step.model? with
  | none =>
    rw [catalog_of_model?_none d a hmodel]
    exact Catalog.isSound_empty d
  | some model => exact h.of_grows (s := ⟨d, model⟩) (grows d a hmodel)

end Step

/-! ## Histories -/

namespace Session

variable {σ : Type}

/-- The session with nothing known, everything else being as it is. -/
def forgotten (a : Session σ) : Session σ :=
  { a with workspace := { a.workspace with catalog := {} } }

/-- The session after steps, nothing being known at the start. -/
def history (d : Dialect) (start : Session σ) (steps : List (Step σ)) : Session σ :=
  steps.foldl (Step.run d) start.forgotten

theorem history_append_singleton (d : Dialect) (start : Session σ) (steps : List (Step σ))
    (step : Step σ) : history d start (steps ++ [step]) = step.run d (history d start steps) := by
  unfold history
  rw [List.foldl_append]
  rfl

/-- Every catalog that comes about is sound. -/
theorem isSound_history (d : Dialect) (start : Session σ) (steps : List (Step σ)) :
    (history d start steps).workspace.catalog.IsSound d := by
  induction steps using List.reverseRecOn with
  | nil => exact Catalog.isSound_empty d
  | append_singleton steps step ih =>
    rw [history_append_singleton]
    exact Step.isSound_run ih step

/-- The mapping of an entity type became known in a step, from the definitions in force for it, and
    was not forgotten in the steps behind. -/
structure IsFirstResolution (d : Dialect) (start : Session σ) (before : List (Step σ))
    (step : Step σ) (rest : List (Step σ)) (e : EntityType) (model : Model) : Prop where
  /-- The definitions in force for the step. -/
  inForce : step.model? = some model
  /-- The mapping was not known. -/
  unknown : (history d start before).workspace.catalog.mapping? e = none
  /-- The mapping is known from then on. -/
  known : (history d start (before ++ [step])).workspace.catalog.mapping? e = some (model e)
  /-- The catalog is not cleared any more. -/
  kept : Step.clear ∉ rest

/-- A mapping that is known was resolved in one of the steps. -/
theorem exists_firstResolution (d : Dialect) (start : Session σ) {steps : List (Step σ)}
    {e : EntityType} {m : Mapping}
    (hm : (history d start steps).workspace.catalog.mapping? e = some m) :
    ∃ before step rest model, steps = before ++ step :: rest ∧
      IsFirstResolution d start before step rest e model ∧ m = model e := by
  induction steps using List.reverseRecOn with
  | nil => cases hm
  | append_singleton steps last ih =>
    have hknown := hm
    rw [history_append_singleton] at hm
    cases hmodel : last.model? with
    | none =>
      rw [Step.catalog_of_model?_none d _ hmodel] at hm
      cases hm
    | some model =>
      have hgrows := Step.grows d (history d start steps) hmodel
      cases hbefore : (history d start steps).workspace.catalog.mapping? e with
      | none =>
        obtain ⟨rfl, -⟩ := Catalog.mapping?_of_grows_of_none hgrows hbefore hm
        exact ⟨steps, last, [], model, rfl, ⟨hmodel, hbefore, hknown, by simp⟩, rfl⟩
      | some m' =>
        -- It was known before the last step, which has kept it.
        have hsame := Setting.mapping?_of_grows hgrows hbefore
        rw [hm] at hsame
        obtain rfl := Option.some.inj hsame
        obtain ⟨before, step, rest, model', rfl, hfirst, rfl⟩ := ih hbefore
        have hlast : Step.clear ≠ last := by
          rintro rfl
          cases hmodel
        refine ⟨before, step, rest ++ [last], model', by simp, ?_, rfl⟩
        exact ⟨hfirst.inForce, hfirst.unknown, hfirst.known, by simp [hfirst.kept, hlast]⟩

/-! ## Answers -/

/-- Two sessions answer the same, each under definitions of its own: calls with the same
    parameters, operations with the same requests to any executor, and readers. -/
structure AnswersLike (d : Dialect) (model model' : Model) (a a' : Session σ) : Prop where
  /-- Calls answer the same. -/
  call : ∀ call : Call, answerOf (call.reply ⟨d, model'⟩ a'.workspace) =
    answerOf (call.reply ⟨d, model⟩ a.workspace)
  /-- Calls bind the same parameters. -/
  parameters : ∀ call : Call, (lastState (call.reply ⟨d, model'⟩ a'.workspace)).parameters =
    (lastState (call.reply ⟨d, model⟩ a.workspace)).parameters
  /-- Operations answer the same. -/
  operation : ∀ {ε : Type} (ids : IdentifierSource) (x : Executor σ) (E : Entity ε)
    (op : Operation ε),
    op.reply ⟨⟨d, model'⟩, ids, x⟩ E a' = op.reply ⟨⟨d, model⟩, ids, x⟩ E a
  /-- Operations leave the executor in the same state. -/
  executor : ∀ {ε : Type} (ids : IdentifierSource) (x : Executor σ) (E : Entity ε)
    (op : Operation ε),
    (op.after ⟨⟨d, model'⟩, ids, x⟩ E a').executor = (op.after ⟨⟨d, model⟩, ids, x⟩ E a).executor
  /-- Operations draw the same identifiers. -/
  drawn : ∀ {ε : Type} (ids : IdentifierSource) (x : Executor σ) (E : Entity ε)
    (op : Operation ε),
    (op.after ⟨⟨d, model'⟩, ids, x⟩ E a').drawn = (op.after ⟨⟨d, model⟩, ids, x⟩ E a).drawn
  /-- A reader hands out the same entities. -/
  entities : ∀ {ε : Type} (E : Entity ε) (reader : ResultReader),
    (reader.read ⟨d, model'⟩ E a'.workspace).1 = (reader.read ⟨d, model⟩ E a.workspace).1
  /-- A reader goes on with the same sets. -/
  sets : ∀ {ε : Type} (E : Entity ε) (reader : ResultReader),
    (reader.read ⟨d, model'⟩ E a'.workspace).2.1 = (reader.read ⟨d, model⟩ E a.workspace).2.1

end Session

/-- Readers hand out the same when catalogs answer alike. -/
theorem ResultReader.alike_read {s s' : Setting} {w w' : Workspace} (h : w.Alike s s' w')
    {ε : Type} (E : Entity ε) (r : ResultReader) :
    (r.read s' E w').1 = (r.read s E w).1 ∧ (r.read s' E w').2.1 = (r.read s E w).2.1 := by
  obtain ⟨sets⟩ := r
  cases sets with
  | nil => exact ⟨rfl, rfl⟩
  | cons set sets =>
    obtain ⟨expected, rows⟩ := set
    unfold read
    by_cases he : expected = E.type
    · obtain ⟨r, w₁, w₁', hw₁, hw₁', -⟩ := Call.alike_mapping s s' E.type w w' h
      dsimp only
      rw [if_pos he, if_pos he, hw₁, hw₁']
      cases r with
      | error cause => exact ⟨rfl, rfl⟩
      | ok m => exact ⟨rfl, rfl⟩
    · dsimp only
      rw [if_neg he, if_neg he]
      exact ⟨rfl, rfl⟩

namespace Session

variable {σ : Type}

/-- A session goes on like one that knows nothing, under the definitions that its catalog holds. -/
theorem answersLike_forgotten {d : Dialect} {a : Session σ} (h : a.workspace.catalog.IsSound d)
    (model : Model) :
    AnswersLike d model (a.workspace.catalog.definitions model) a a.forgotten := by
  have hcatalog := h.answersAlike model
  have hworkspace : a.workspace.Alike ⟨d, model⟩
      ⟨d, a.workspace.catalog.definitions model⟩ a.forgotten.workspace := ⟨hcatalog, rfl⟩
  have hsession : a.Alike ⟨d, model⟩ ⟨d, a.workspace.catalog.definitions model⟩ a.forgotten :=
    ⟨hcatalog, rfl, rfl⟩
  have hcall (call : Call) : answerOf (call.reply _ a.forgotten.workspace) = _ ∧ _ :=
    (Call.alike_reply hcatalog.dialect call).answerOf_eq hworkspace
  have hoperation {ε : Type} (ids : IdentifierSource) (x : Executor σ) (E : Entity ε)
      (op : Operation ε) :=
    Operation.alike_reply ⟨⟨d, model⟩, ids, x⟩ (a.workspace.catalog.definitions model) E op hsession
  have hread {ε : Type} (E : Entity ε) (reader : ResultReader) := reader.alike_read hworkspace E
  exact {
    call := fun call => (hcall call).1
    parameters := fun call => (hcall call).2.parameters
    operation := fun ids x E op => (hoperation ids x E op).1
    executor := fun ids x E op => (hoperation ids x E op).2.executor
    drawn := fun ids x E op => (hoperation ids x E op).2.drawn
    entities := fun E reader => (hread E reader).1
    sets := fun E reader => (hread E reader).2 }

/-- What a session answers comes from the mappings that are known, or else from those in force. -/
structure IsFaithful (d : Dialect) (a : Session σ) : Prop where
  /-- A statement that is known is the one that a known mapping has from scratch. -/
  statements : ∀ e kind sql, a.workspace.catalog.statement? e kind = some sql →
    ∃ m, a.workspace.catalog.mapping? e = some m ∧ m.fromScratch d e kind = .ok sql
  /-- A mapping that is known has a table. -/
  tables : ∀ e m, a.workspace.catalog.mapping? e = some m → m.table.isEmpty = false
  /-- A mapping that is answered is known from then on. -/
  lookups : ∀ model e m w, Work.mapping ⟨d, model⟩ e a.workspace = .ok m w →
    w.catalog.mapping? e = some m ∧ m = a.workspace.catalog.definitions model e
  /-- A statement that is answered is the one that the mapping known then has from scratch. -/
  answers : ∀ model e kind sql w, Call.keyed ⟨d, model⟩ e kind a.workspace = .ok sql w →
    ∃ m, w.catalog.mapping? e = some m ∧ m = a.workspace.catalog.definitions model e ∧
      m.fromScratch d e kind = .ok sql
  /-- A statement that cannot be written is not known, and none of its kind becomes known. -/
  refusals : ∀ model e kind cause w, Call.keyed ⟨d, model⟩ e kind a.workspace = .error cause w →
    a.workspace.catalog.statement? e kind = none ∧
      ∀ e', w.catalog.statement? e' kind = a.workspace.catalog.statement? e' kind
  /-- When the catalog was cleared, the mapping in force is answered. -/
  cleared : ∀ model e, answerOf (Work.mapping ⟨d, model⟩ e (Step.clear.run d a).workspace) =
    if (model e).table.isEmpty then .error (.query (.unknownEntity e.name)) else .ok (model e)
  /-- The session goes on like one that knows nothing, under the definitions that it holds. -/
  likeForgotten : ∀ model,
    AnswersLike d model (a.workspace.catalog.definitions model) a a.forgotten

theorem isFaithful_of_isSound {d : Dialect} {a : Session σ} (h : a.workspace.catalog.IsSound d) :
    IsFaithful d a where
  statements e kind sql hsql := by
    obtain ⟨m, hm, hstatement⟩ := h.coherent e kind sql hsql
    refine ⟨m, hm, ?_⟩
    rw [Mapping.fromScratch_eq d (h.hasTable e m hm), hstatement]
  tables := h.hasTable
  lookups model e m w hrun := ⟨Work.mapping?_of_mapping hrun, Work.eq_definitions_of_mapping hrun⟩
  answers model e kind sql w hrun := Call.keyed_of_ok (s := ⟨d, model⟩) h hrun
  refusals model e kind cause w hrun := Call.keyed_of_error (s := ⟨d, model⟩) h.coherent hrun
  cleared model e := by
    obtain ⟨w, hw, -, -⟩ := Work.yields_mapping ⟨d, model⟩ e (Step.clear.run d a).workspace
    rw [hw, answerOf_ended]
    exact Setting.mappings_empty d model e
  likeForgotten := answersLike_forgotten h

/-- With the same definitions in force at every step, they are the ones that are known. -/
theorem definitions_history (d : Dialect) (start : Session σ) {steps : List (Step σ)}
    {model : Model} (h : ∀ step ∈ steps, ∀ model', step.model? = some model' → model' = model) :
    (history d start steps).workspace.catalog.definitions model = model := by
  funext e
  unfold Catalog.definitions
  cases hm : (history d start steps).workspace.catalog.mapping? e with
  | none => rfl
  | some m =>
    obtain ⟨before, step, rest, model', rfl, hfirst, rfl⟩ := exists_firstResolution d start hm
    rw [h step (by simp) model' hfirst.inForce]
    rfl

/-- After any steps, each with definitions of its own, the session answers from the mappings that
    were resolved first since the catalog was cleared. With one set of definitions for all steps it
    answers as one that knows nothing. -/
theorem histories_answer_from_scratch (d : Dialect) (start : Session σ) (steps : List (Step σ)) :
    (history d start steps).IsFaithful d ∧
    (∀ e m, (history d start steps).workspace.catalog.mapping? e = some m →
      ∃ before step rest model, steps = before ++ step :: rest ∧
        IsFirstResolution d start before step rest e model ∧ m = model e) ∧
    ∀ model, (∀ step ∈ steps, ∀ model', step.model? = some model' → model' = model) →
      AnswersLike d model model (history d start steps) (history d start steps).forgotten := by
  have hfaithful : (history d start steps).IsFaithful d :=
    isFaithful_of_isSound (isSound_history d start steps)
  refine ⟨hfaithful, fun e m hm => exists_firstResolution d start hm, ?_⟩
  intro model h
  have hlike := hfaithful.likeForgotten model
  rw [definitions_history d start h] at hlike
  exact hlike

end Session

/-! ## A sample -/

namespace Samples

/-- An entity type whose definition is changed. -/
def creature : EntityType := ⟨"Creature"⟩

/-- An insertion while creatures are animals. -/
def asAnimals : Step Unit := .call (fun _ => animal.mapping) (.statement creature .insert)

/-- A deletion while creatures are cars. -/
def asCars : Step Unit := .call (fun _ => car.mapping) (.statement creature .delete)

end Samples

/-- Creatures that became cars are still deleted as the animals that they were first. Without the
    change the session is like one that knows nothing. -/
theorem histories_answer_from_scratch_redefined :
    (∃ m, (Session.history .generic ⟨{}, 0, ()⟩
        [Samples.asAnimals, Samples.asCars]).workspace.catalog.mapping? Samples.creature = some m ∧
      m.fromScratch .generic Samples.creature .delete =
        .ok "DELETE FROM \"animal\" WHERE (\"animal\".\"id\" = @id)") ∧
    (∃ before step rest model, [Samples.asAnimals, Samples.asCars] = before ++ step :: rest ∧
      Session.IsFirstResolution .generic ⟨{}, 0, ()⟩ before step rest Samples.creature model ∧
      Samples.animal.mapping = model Samples.creature) ∧
    Session.AnswersLike .generic (fun _ => Samples.animal.mapping)
      (fun _ => Samples.animal.mapping)
      (Session.history .generic ⟨{}, 0, ()⟩ [Samples.asAnimals])
      (Session.history .generic ⟨{}, 0, ()⟩ [Samples.asAnimals]).forgotten := by
  obtain ⟨hfaithful, hfirst, -⟩ := Session.histories_answer_from_scratch .generic ⟨{}, 0, ()⟩
    [Samples.asAnimals, Samples.asCars]
  obtain ⟨-, -, hsame⟩ := Session.histories_answer_from_scratch .generic ⟨{}, 0, ()⟩
    [Samples.asAnimals]
  refine ⟨hfaithful.statements _ _ _ rfl, hfirst _ _ rfl, hsame _ ?_⟩
  intro step hstep model hmodel
  obtain rfl := List.mem_singleton.mp hstep
  exact (Option.some.inj hmodel).symm

end EntitySql
