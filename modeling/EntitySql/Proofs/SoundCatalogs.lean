/-
  Sound catalogs, and what calls for statements answer with them.

  A catalog is sound when its statements are those of its mappings and its mappings have tables. It
  answers like the empty one under the definitions that it knows (`IsSound.answersAlike`), and it
  stays sound when work adds to it. A statement that is answered is the one that the mapping known
  afterwards has from scratch (`Call.keyed_of_ok`), and one that cannot be written leaves no
  statement of its kind behind (`Call.keyed_of_error`).
-/
import EntitySql.Proofs.AlikeCatalogs

namespace EntitySql

/-! ## Sound catalogs -/

/-- Every statement that is known is the one of a mapping that is known, and every mapping that is
    known has a table. -/
structure Catalog.IsSound (d : Dialect) (c : Catalog) : Prop where
  /-- The statements are those of the mappings. -/
  coherent : c.IsCoherent d
  /-- The mappings have tables. -/
  hasTable : ∀ e m, c.mapping? e = some m → m.table.isEmpty = false

/-- The definitions that are in force with a catalog: those it knows, and else the given ones. -/
def Catalog.definitions (c : Catalog) (model : Model) : Model := fun e =>
  (c.mapping? e).getD (model e)

namespace Setting

variable {s : Setting} {c : Catalog} {e : EntityType} {m : Mapping}

/-- With nothing known the mapping in force is answered, if it has a table. -/
theorem mappings_empty (d : Dialect) (model : Model) (e : EntityType) :
    mappings ⟨d, model⟩ {} e =
      if (model e).table.isEmpty then .error (.query (.unknownEntity e.name))
      else .ok (model e) := rfl

theorem eq_model_of_mappings (hn : c.mapping? e = none) (hm : s.mappings c e = .ok m) :
    m = s.model e ∧ (s.model e).table.isEmpty = false := by
  unfold mappings at hm
  rw [hn] at hm
  cases ht : (s.model e).table.isEmpty with
  | true =>
    rw [ht] at hm
    cases hm
  | false =>
    rw [ht] at hm
    exact ⟨(Except.ok.inj hm).symm, rfl⟩

/-- The mapping that is answered is the one known, or else the one in force. -/
theorem eq_definitions_of_mappings (hm : s.mappings c e = .ok m) :
    m = c.definitions s.model e := by
  unfold Catalog.definitions
  cases hc : c.mapping? e with
  | none => exact (eq_model_of_mappings hc hm).1
  | some m' =>
    rw [mappings_of_mapping? hc] at hm
    exact (Except.ok.inj hm).symm

end Setting

namespace Catalog

theorem isSound_empty (d : Dialect) : IsSound d {} := by
  refine ⟨isCoherent_empty d, ?_⟩
  intro e m h
  cases h

/-- A mapping that becomes known is the one in force, and it has a table. -/
theorem mapping?_of_grows_of_none {s : Setting} {c c' : Catalog} (h : s.Grows c c')
    {e : EntityType} {m : Mapping} (hn : c.mapping? e = none) (hm : c'.mapping? e = some m) :
    m = s.model e ∧ (s.model e).table.isEmpty = false := by
  have hmappings := Setting.mappings_of_mapping? (s := s) hm
  rw [Setting.mappings_of_grows h] at hmappings
  exact Setting.eq_model_of_mappings hn hmappings

theorem IsSound.of_grows {s : Setting} {c c' : Catalog} (h : c.IsSound s.dialect)
    (hg : s.Grows c c') : c'.IsSound s.dialect := by
  refine ⟨h.coherent.of_grows hg, ?_⟩
  intro e m hm
  cases hc : c.mapping? e with
  | some m' =>
    have hm' := Setting.mapping?_of_grows hg hc
    rw [hm] at hm'
    obtain rfl := Option.some.inj hm'
    exact h.hasTable e m hc
  | none =>
    obtain ⟨rfl, ht⟩ := mapping?_of_grows_of_none hg hc hm
    exact ht

/-- Every catalog that is reached is sound. -/
theorem IsReached.isSound {d : Dialect} {c : Catalog} (h : IsReached d c) : c.IsSound d := by
  induction h with
  | empty => exact isSound_empty d
  | @call w _ s hs call ih =>
    subst hs
    exact ih.of_grows (call.extends_work s w)
  | @operation σ ε a _ db hdb E op ih =>
    subst hdb
    exact ih.of_grows (op.grows db E a)
  | cleared _ _ => exact isSound_empty d

theorem mappings_definitions {d : Dialect} {c : Catalog} (h : c.IsSound d) (model : Model)
    (e : EntityType) :
    Setting.mappings ⟨d, c.definitions model⟩ {} e = Setting.mappings ⟨d, model⟩ c e := by
  rw [Setting.mappings_empty]
  unfold Setting.mappings definitions
  cases hm : c.mapping? e with
  | none => rfl
  | some m =>
    rw [Option.getD_some, h.hasTable e m hm]
    rfl

/-- A sound catalog answers as the empty one does under the definitions that it knows. -/
theorem IsSound.answersAlike {d : Dialect} {c : Catalog} (h : c.IsSound d) (model : Model) :
    AnswersAlike ⟨d, model⟩ ⟨d, c.definitions model⟩ c {} where
  dialect := rfl
  left := h.coherent
  right := isCoherent_empty d
  mappings := funext fun e => mappings_definitions h model e

end Catalog

/-! ## Statements from scratch -/

/-- The statement that is written when nothing is known and the mapping is in force. -/
def Mapping.fromScratch (d : Dialect) (m : Mapping) (e : EntityType) (kind : StatementKind) :
    Except Error String :=
  answerOf (Call.keyed ⟨d, fun _ => m⟩ e kind {})

theorem Mapping.fromScratch_eq (d : Dialect) {m : Mapping} (ht : m.table.isEmpty = false)
    (e : EntityType) (kind : StatementKind) :
    m.fromScratch d e kind = m.statement d (d.selectedColumns m) kind := by
  have hempty := Catalog.isCoherent_empty d
  have hm : Setting.mappings ⟨d, fun _ => m⟩ {} e = .ok m := by
    rw [Setting.mappings_empty, ht]
    rfl
  obtain ⟨w, hw, -, -⟩ :=
    Call.yields_keyed (s := ⟨d, fun _ => m⟩) (w := {}) hempty e kind
  unfold fromScratch
  rw [hw, answerOf_ended]
  exact Catalog.IsCoherent.statement (s := ⟨d, fun _ => m⟩) hempty hm kind

/-! ## Runs of calls -/

theorem ended_eq_ok {ε σ α : Type} {r : Except ε α} {x : α} {s s' : σ}
    (h : ended r s = .ok x s') : r = .ok x ∧ s = s' := by
  cases r with
  | error e => cases h
  | ok y =>
    cases h
    exact ⟨rfl, rfl⟩

namespace Work

variable {s : Setting} {w w' : Workspace} {e : EntityType} {kind : StatementKind}

/-- A mapping that is known is looked up without a trace. -/
theorem mapping_of_known {m : Mapping} (h : w.catalog.mapping? e = some m) :
    mapping s e w = .ok m w := by
  rw [mapping_run, h]

theorem eq_definitions_of_mapping {m : Mapping} (h : mapping s e w = .ok m w') :
    m = w.catalog.definitions s.model e := by
  obtain ⟨w₁, hw₁, -, -⟩ := yields_mapping s e w
  rw [h] at hw₁
  obtain ⟨hm, -⟩ := ended_eq_ok hw₁.symm
  exact Setting.eq_definitions_of_mappings hm

/-- The resolution of a mapping adds no statement. -/
theorem statement?_mapping (s : Setting) (e : EntityType) (w : Workspace) (e' : EntityType)
    (kind : StatementKind) :
    (lastState (mapping s e w)).catalog.statement? e' kind = w.catalog.statement? e' kind := by
  rw [mapping_run]
  cases w.catalog.mapping? e with
  | some m => rfl
  | none => cases (s.model e).table.isEmpty <;> rfl

/-- What cannot be written leaves everything as it is. -/
theorem eq_of_known_error {written : Except Error String} {cause : Error}
    (h : known e kind written w = .error cause w') : w' = w := by
  cases written with
  | ok sql =>
    rw [known_run] at h
    cases hn : w.catalog.statement? e kind with
    | some sql =>
      rw [hn] at h
      cases h
    | none =>
      rw [hn] at h
      cases h
  | error cause =>
    rw [known_error_run] at h
    cases hn : w.catalog.statement? e kind with
    | some sql =>
      rw [hn] at h
      cases h
    | none =>
      rw [hn] at h
      cases h
      rfl

/-- The selected columns are a statement of one kind alone. -/
theorem statement?_columns (hk : kind ≠ .columns) {m : Mapping}
    (hm : w.catalog.mapping? e = some m) {list : String} (h : columns s e w = .ok list w')
    (e' : EntityType) : w'.catalog.statement? e' kind = w.catalog.statement? e' kind := by
  unfold columns at h
  rw [bind_run, mapping_of_known hm] at h
  dsimp only at h
  rw [known_run] at h
  cases hn : w.catalog.statement? e .columns with
  | some sql =>
    rw [hn] at h
    cases h
    rfl
  | none =>
    rw [hn] at h
    cases h
    rw [Catalog.statement?_addStatement]
    simp [hk]

section

variable {m : Mapping} {cause : Error} (hm : w.catalog.mapping? e = some m)

include hm

/-- A statement without a list of columns can fail in one place only. -/
theorem eq_of_written_error {written : Mapping → Except Error String}
    (h : (do let m ← mapping s e; known e kind (written m)) w = .error cause w') : w' = w := by
  rw [bind_run, mapping_of_known hm] at h
  exact eq_of_known_error h

theorem eq_of_identityStatement_error (h : identityStatement s e w = .error cause w') :
    w' = w := by
  unfold identityStatement at h
  rw [bind_run, mapping_of_known hm] at h
  dsimp only at h
  cases hi : m.identity? with
  | none =>
    rw [hi] at h
    cases h
    rfl
  | some p =>
    rw [hi] at h
    exact eq_of_known_error h

/-- The select by key fails behind its list of columns, which is another statement. -/
theorem statement?_of_getStatement_error (h : getStatement s e w = .error cause w')
    (e' : EntityType) : w'.catalog.statement? e' .get = w.catalog.statement? e' .get := by
  unfold getStatement at h
  rw [bind_run, mapping_of_known hm] at h
  dsimp only at h
  rw [bind_run] at h
  cases hc : columns s e w with
  | error cause w₁ =>
    rw [hc] at h
    cases h
    rw [eq_of_written_error hm hc]
  | ok list w₁ =>
    rw [hc] at h
    rw [eq_of_known_error h]
    exact statement?_columns (by simp) hm hc e'

end

end Work

namespace Call

variable {s : Setting} {w w' w₁ : Workspace} {e : EntityType} {kind : StatementKind}

/-- A call for a statement begins with the mapping. -/
theorem keyed_of_mapping {m : Mapping} (h : Work.mapping s e w = .ok m w₁) :
    keyed s e kind w = keyed s e kind w₁ := by
  have hagain : Work.mapping s e w₁ = .ok m w₁ :=
    Work.mapping_of_known (Work.mapping?_of_mapping h)
  have hbegin {f : Mapping → Work String} :
      (Work.mapping s e >>= f) w = (Work.mapping s e >>= f) w₁ := by
    rw [bind_run, bind_run, h, hagain]
  cases kind <;> exact hbegin

/-- A call for a statement fails when the mapping cannot be resolved. -/
theorem keyed_of_mapping_error {cause : Error} (h : Work.mapping s e w = .error cause w₁) :
    keyed s e kind w = .error cause w₁ := by
  have hbegin {f : Mapping → Work String} : (Work.mapping s e >>= f) w = .error cause w₁ := by
    rw [bind_run, h]
  cases kind <;> exact hbegin

/-- A statement that is answered is that of the mapping that is known afterwards. -/
theorem keyed_of_ok (h : w.catalog.IsSound s.dialect) {sql : String}
    (hrun : keyed s e kind w = .ok sql w') :
    ∃ m, w'.catalog.mapping? e = some m ∧ m = w.catalog.definitions s.model e ∧
      m.fromScratch s.dialect e kind = .ok sql := by
  cases hm : Work.mapping s e w with
  | error cause w₁ =>
    rw [keyed_of_mapping_error hm] at hrun
    cases hrun
  | ok m w₁ =>
    have hgrows := Work.extends_mapping s e w
    rw [hm] at hgrows
    have hsound : w₁.catalog.IsSound s.dialect := h.of_grows hgrows
    have hknown := Work.mapping?_of_mapping hm
    rw [keyed_of_mapping hm] at hrun
    obtain ⟨w₂, hw₂, hg₂, -⟩ := yields_keyed (s := s) hsound.coherent e kind
    have hanswer := hsound.coherent.statement (Setting.mappings_of_mapping? (s := s) hknown) kind
    rw [hanswer, hrun] at hw₂
    obtain ⟨hsql, rfl⟩ := ended_eq_ok hw₂.symm
    refine ⟨m, Setting.mapping?_of_grows hg₂ hknown, Work.eq_definitions_of_mapping hm, ?_⟩
    rw [Mapping.fromScratch_eq s.dialect (hsound.hasTable e m hknown)]
    exact hsql

/-- A statement of a mapping that is known and that cannot be written leaves no statement of its
    kind behind. -/
theorem statement?_of_keyed_error {m : Mapping} (hm : w.catalog.mapping? e = some m)
    {cause : Error} (hrun : keyed s e kind w = .error cause w') (e' : EntityType) :
    w'.catalog.statement? e' kind = w.catalog.statement? e' kind := by
  cases kind with
  | columns => rw [Work.eq_of_written_error hm hrun]
  | insert => rw [Work.eq_of_written_error hm hrun]
  | update excludeAssigned => rw [Work.eq_of_written_error hm hrun]
  | delete => rw [Work.eq_of_written_error hm hrun]
  | identity => rw [Work.eq_of_identityStatement_error hm hrun]
  | get => exact Work.statement?_of_getStatement_error hm hrun e'

/-- A statement that cannot be written leaves no statement of its kind behind. -/
theorem keyed_of_error (h : w.catalog.IsCoherent s.dialect) {cause : Error}
    (hrun : keyed s e kind w = .error cause w') :
    w.catalog.statement? e kind = none ∧
      ∀ e', w'.catalog.statement? e' kind = w.catalog.statement? e' kind := by
  constructor
  · cases hsql : w.catalog.statement? e kind with
    | none => rfl
    | some sql =>
      -- A statement that is known is answered.
      obtain ⟨m, hm, -⟩ := h e kind sql hsql
      obtain ⟨w₁, hw₁, -, -⟩ := yields_keyed h e kind
      rw [Setting.statement_of_mappings (Setting.mappings_of_mapping? hm), hsql, hrun] at hw₁
      cases hw₁
  · intro e'
    have hmapping := Work.statement?_mapping s e w e' kind
    cases hm : Work.mapping s e w with
    | error cause' w₁ =>
      rw [hm] at hmapping
      rw [keyed_of_mapping_error hm] at hrun
      cases hrun
      exact hmapping
    | ok m w₁ =>
      rw [hm] at hmapping
      rw [keyed_of_mapping hm] at hrun
      rw [statement?_of_keyed_error (Work.mapping?_of_mapping hm) hrun]
      exact hmapping

end Call

end EntitySql
