/-
  Work only adds to the catalog.

  `Extends` says of a job that it only adds to the catalog of its state. It holds of what the
  writing of statements is made of and is kept by a sequence (`Extends.bind`), so it holds of every
  call for a mapping or a statement (`Call.extends_work`).
-/
import EntitySql.Proofs.KeyedRuns

namespace EntitySql

/-- The state in which work has ended. -/
def lastState {ε σ α : Type} : EStateM.Result ε σ α → σ
  | .ok _ s => s
  | .error _ s => s

theorem lastState_ended {ε σ α : Type} (r : Except ε α) (s : σ) : lastState (ended r s) = s := by
  cases r <;> rfl

namespace Setting

/-- A job that only adds to the catalog of its state. -/
def Extends {τ α : Type} (s : Setting) (catalogOf : τ → Catalog) (job : EStateM Error τ α) :
    Prop := ∀ x, s.Grows (catalogOf x) (catalogOf (lastState (job x)))

section

variable {τ α β : Type} {s : Setting} {catalogOf : τ → Catalog}

theorem Extends.bind {job : EStateM Error τ α} {f : α → EStateM Error τ β}
    (h : s.Extends catalogOf job) (hf : ∀ x, s.Extends catalogOf (f x)) :
    s.Extends catalogOf (job >>= f) := by
  intro t
  have hjob := h t
  rw [bind_run]
  cases hrun : job t with
  | error e t' =>
    rw [hrun] at hjob
    exact hjob
  | ok x t' =>
    rw [hrun] at hjob
    exact hjob.trans (hf x t')

theorem extends_pure (x : α) : s.Extends catalogOf (pure x) := fun _ => .refl

theorem extends_throw (e : Error) : s.Extends catalogOf (throw e : EStateM Error τ α) :=
  fun _ => .refl

/-- A change of the state that leaves the catalog alone. -/
theorem extends_modify {f : τ → τ} (h : ∀ x, catalogOf (f x) = catalogOf x) :
    s.Extends catalogOf (modify f : EStateM Error τ Unit) := by
  intro x
  change s.Grows (catalogOf x) (catalogOf (f x))
  rw [h]

end

end Setting

/-! ## Parts of statements -/

namespace Work

variable {α : Type} {s : Setting}

/-- What only adds to the catalog of a workspace. -/
abbrev Extends (s : Setting) (job : Work α) : Prop := s.Extends (·.catalog) job

theorem extends_of_yields {job : Work α} (h : ∀ w, ∃ r, Yields s job w r) : Extends s job := by
  intro w
  obtain ⟨r, w', hw', hg, -⟩ := h w
  rw [hw', lastState_ended]
  exact hg

theorem extends_mapping (s : Setting) (e : EntityType) : Extends s (mapping s e) :=
  extends_of_yields fun w => ⟨_, yields_mapping s e w⟩

theorem extends_columns (s : Setting) (e : EntityType) : Extends s (columns s e) :=
  extends_of_yields fun w => ⟨_, yields_columns s e w⟩

theorem extends_note (s : Setting) (level : LogLevel) (text : String) :
    Extends s (note level text) := Setting.extends_modify fun _ => rfl

theorem extends_refuse (s : Setting) (e : QueryError) : Extends s (refuse e : Work α) :=
  Setting.extends_throw _

theorem extends_ofExcept (s : Setting) (r : Except QueryError α) : Extends s (ofExcept r) := by
  cases r with
  | ok x => exact Setting.extends_pure x
  | error e => exact extends_refuse s e

end Work

namespace Writing

variable {α : Type} {s : Setting}

/-- What only adds to the catalog of a manuscript. -/
abbrev Extends (s : Setting) (job : Writing α) : Prop := s.Extends (·.workspace.catalog) job

theorem extends_beside {job : Work α} (h : Work.Extends s job) : Extends s (beside job) := by
  intro m
  have hjob := h m.workspace
  unfold beside
  cases hrun : job m.workspace <;> rw [hrun] at hjob <;> exact hjob

theorem extends_text (s : Setting) (t : String) : Extends s (text t) :=
  Setting.extends_modify fun _ => rfl

theorem extends_lookUp (s : Setting) (c : ColumnRef) : Extends s (lookUp s c) :=
  (extends_beside (Work.extends_mapping s c.entity)).bind fun m =>
    (extends_beside (Work.extends_ofExcept s (m.mapped c.property))).bind fun _ =>
      Setting.extends_pure _

theorem extends_fragment (s : Setting) (f : Fragment) : Extends s (fragment s f) := by
  cases f with
  | text t => exact extends_text s t
  | column c => exact (extends_lookUp s c).bind fun _ => extends_text s _
  | lookUp c => exact (extends_lookUp s c).bind fun _ => Setting.extends_pure _
  | resolve e =>
    exact (extends_beside (Work.extends_mapping s e)).bind fun _ => Setting.extends_pure _
  | table e => exact (extends_beside (Work.extends_mapping s e)).bind fun _ => extends_text s _
  | operand base v => exact fun _ => .refl
  | everything => exact extends_text s _
  | refuse e => exact Setting.extends_throw _

theorem extends_all (s : Setting) (fs : List Fragment) : Extends s (all s fs) := by
  induction fs with
  | nil => exact Setting.extends_pure ()
  | cons f fs ih => exact (extends_fragment s f).bind fun _ => ih

end Writing

/-! ## Statements -/

namespace Work

variable (s : Setting)

theorem extends_clause (fs : List Fragment) : Extends s (clause s fs) := by
  intro w
  have hall := Writing.extends_all s fs ⟨w, ""⟩
  unfold clause
  cases hrun : Writing.all s fs ⟨w, ""⟩ <;> rw [hrun] at hall <;> exact hall

theorem extends_condition (p : Option Predicate) : Extends s (condition s p) := by
  cases p with
  | none => exact Setting.extends_pure none
  | some p => exact (extends_clause s p.fragments).bind fun _ => Setting.extends_pure _

theorem extends_order (terms : List OrderTerm) : Extends s (order s terms) :=
  extends_clause s _

theorem extends_select (e : EntityType) (p : Option Predicate) (terms : List OrderTerm) :
    Extends s (select s e p terms) :=
  (extends_mapping s e).bind fun _ => (extends_columns s e).bind fun _ =>
    (extends_condition s p).bind fun _ => (extends_order s terms).bind fun _ =>
      Setting.extends_pure _

theorem extends_windowParts (e : EntityType) (p : Option Predicate) (terms : List OrderTerm) :
    Extends s (windowParts s e p terms) := by
  refine (extends_mapping s e).bind fun m => ?_
  cases terms with
  | nil => exact (extends_note s _ _).bind fun _ => extends_refuse s _
  | cons t terms =>
    exact (extends_columns s e).bind fun _ => (extends_condition s p).bind fun _ =>
      (extends_order s _).bind fun _ => Setting.extends_pure _

theorem extends_draft (write : Dialect.Draft → Dialect.Draft × Except QueryError Unit) :
    Extends s (draft write) := by
  intro w
  unfold draft
  dsimp only
  cases (write { text := "", parameters := w.parameters }).2 <;> exact .refl

theorem extends_selectPage (e : EntityType) (p : Option Predicate) (terms : List OrderTerm)
    (page rows : UInt64) : Extends s (selectPage s e p terms page rows) := by
  unfold selectPage
  split
  · exact extends_refuse s _
  · exact (extends_windowParts s e p terms).bind fun _ => extends_draft s _

theorem extends_selectSet (e : EntityType) (p : Option Predicate) (terms : List OrderTerm)
    (first count : UInt64) : Extends s (selectSet s e p terms first count) := by
  unfold selectSet
  split
  · exact extends_refuse s _
  · exact (extends_windowParts s e p terms).bind fun _ => extends_draft s _

theorem extends_selection (x : Selection) : Extends s (selection s x) := by
  unfold selection
  match x.window with
  | none => exact extends_select s _ _ _
  | some (.page page rows) => exact extends_selectPage s _ _ _ page rows
  | some (.set first count) => exact extends_selectSet s _ _ _ first count

theorem extends_count (e : EntityType) (p : Option Predicate) : Extends s (count s e p) :=
  (extends_mapping s e).bind fun _ => (extends_condition s p).bind fun _ => Setting.extends_pure _

theorem extends_deleteWhere (e : EntityType) (p : Option Predicate) :
    Extends s (deleteWhere s e p) := by
  refine (extends_mapping s e).bind fun m => ?_
  cases p.filter (!·.isEmpty) with
  | none => exact (extends_note s _ _).bind fun _ => extends_refuse s _
  | some p => exact (extends_clause s p.fragments).bind fun _ => Setting.extends_pure _

theorem extends_identityStatement (e : EntityType) : Extends s (identityStatement s e) := by
  intro w
  obtain ⟨w₁, hw₁, hg₁, -⟩ := yields_mapping s e w
  cases hm : s.mappings w.catalog e with
  | error cause =>
    unfold identityStatement
    rw [bind_run, hw₁, hm]
    exact hg₁
  | ok m =>
    cases hi : m.identity? with
    | none =>
      unfold identityStatement
      rw [bind_run, hw₁, hm]
      dsimp only [ended]
      rw [hi]
      exact hg₁
    | some p =>
      obtain ⟨w₂, hw₂, hg₂, -⟩ := yields_identityStatement hm (by rw [hi]; rfl)
      rw [hw₂, lastState_ended]
      exact hg₂

end Work

/-! ## Calls -/

/-- A call for a mapping or a statement. -/
inductive Call where
  /-- The mapping of an entity type. -/
  | mapping (e : EntityType)
  /-- A statement that depends on the mapping alone. -/
  | statement (e : EntityType) (kind : StatementKind)
  /-- A select. -/
  | select (x : Selection)
  /-- A count. -/
  | count (e : EntityType) (p : Option Predicate)
  /-- A deletion by condition. -/
  | deleteWhere (e : EntityType) (p : Option Predicate)

namespace Call

/-- The statement of an entity type that depends on its mapping alone. -/
def keyed (s : Setting) (e : EntityType) : StatementKind → Work String
  | .columns => Work.columns s e
  | .get => Work.getStatement s e
  | .insert => Work.insertStatement s e
  | .update excludeAssigned => Work.updateStatement s e excludeAssigned
  | .delete => Work.deleteStatement s e
  | .identity => Work.identityStatement s e

/-- The work of a call, its answer left out. -/
def work (s : Setting) : Call → Work Unit
  | .mapping e => do let _ ← Work.mapping s e
  | .statement e kind => do let _ ← keyed s e kind
  | .select x => do let _ ← Work.selection s x
  | .count e p => do let _ ← Work.count s e p
  | .deleteWhere e p => do let _ ← Work.deleteWhere s e p

theorem extends_keyed (s : Setting) (e : EntityType) (kind : StatementKind) :
    Work.Extends s (keyed s e kind) := by
  cases kind with
  | columns => exact Work.extends_columns s e
  | get => exact Work.extends_of_yields fun w => ⟨_, Work.yields_getStatement s e w⟩
  | insert => exact Work.extends_of_yields fun w => ⟨_, Work.yields_insertStatement s e w⟩
  | update excludeAssigned =>
    exact Work.extends_of_yields fun w => ⟨_, Work.yields_updateStatement s e excludeAssigned w⟩
  | delete => exact Work.extends_of_yields fun w => ⟨_, Work.yields_deleteStatement s e w⟩
  | identity => exact Work.extends_identityStatement s e

/-- A call only adds to the catalog. -/
theorem extends_work (s : Setting) (call : Call) : Work.Extends s (call.work s) := by
  have hthen {α : Type} {job : Work α} (h : Work.Extends s job) :
      Work.Extends s (job >>= fun _ => pure ()) := h.bind fun _ => Setting.extends_pure ()
  cases call with
  | mapping e => exact hthen (Work.extends_mapping s e)
  | statement e kind => exact hthen (extends_keyed s e kind)
  | select x => exact hthen (Work.extends_selection s x)
  | count e p => exact hthen (Work.extends_count s e p)
  | deleteWhere e p => exact hthen (Work.extends_deleteWhere s e p)

end Call

end EntitySql
