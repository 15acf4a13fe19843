/-
  The statements of a mapping, as work answers them.

  `Yields` says of work that it answers `r`, only adds to the catalog and leaves the parameters as
  they are. The resolution of a mapping yields what the setting answers (`yields_mapping`), and so
  does each statement of a mapping (`yields_getStatement` and its like), whatever is known already.
-/
import EntitySql.Proofs.CatalogGrowth

namespace EntitySql.Work

variable {α β : Type} {s : Setting} {w : Workspace}

/-- The work answers `r`, only adds to the catalog and leaves the parameters as they are. -/
def Yields (s : Setting) (job : Work α) (w : Workspace) (r : Except Error α) : Prop :=
  ∃ w', job w = ended r w' ∧ s.Grows w.catalog w'.catalog ∧ w'.parameters = w.parameters

/-! ## One behind the other -/

/-- What follows goes on where the work has ended, or the reason stays the same. -/
theorem Yields.bind {job : Work α} {r : Except Error α} {f : α → Work β}
    {g : α → Except Error β} (h : Yields s job w r)
    (hf : ∀ x w', job w = .ok x w' → s.Grows w.catalog w'.catalog → Yields s (f x) w' (g x)) :
    Yields s (job >>= f) w (r >>= g) := by
  obtain ⟨w₁, hw₁, hg₁, hp₁⟩ := h
  unfold Yields
  rw [bind_run, hw₁]
  cases r with
  | error e => exact ⟨w₁, rfl, hg₁, hp₁⟩
  | ok x =>
    obtain ⟨w₂, hw₂, hg₂, hp₂⟩ := hf x w₁ hw₁ hg₁
    exact ⟨w₂, hw₂, hg₁.trans hg₂, hp₂.trans hp₁⟩

/-! ## Mappings -/

theorem yields_mapping (s : Setting) (e : EntityType) (w : Workspace) :
    Yields s (mapping s e) w (s.mappings w.catalog e) := by
  unfold Yields
  rw [mapping_run, Setting.mappings]
  cases hc : w.catalog.mapping? e with
  | some m => exact ⟨w, rfl, .refl, rfl⟩
  | none =>
    cases ht : (s.model e).table.isEmpty with
    | true => exact ⟨w, rfl, .refl, rfl⟩
    | false => exact ⟨_, rfl, .single (.mapping hc ht), rfl⟩

/-- A mapping that was resolved is known. -/
theorem mapping?_of_mapping {e : EntityType} {m : Mapping} {w' : Workspace}
    (h : mapping s e w = .ok m w') : w'.catalog.mapping? e = some m := by
  rw [mapping_run] at h
  cases hc : w.catalog.mapping? e with
  | some m' =>
    rw [hc] at h
    cases h
    exact hc
  | none =>
    rw [hc] at h
    cases ht : (s.model e).table.isEmpty with
    | true =>
      rw [ht] at h
      cases h
    | false =>
      rw [ht] at h
      cases h
      dsimp only
      rw [Catalog.mapping?_addMapping, hc]
      simp

/-! ## Statements -/

/-- A statement that is written once. -/
theorem yields_known {e : EntityType} {kind : StatementKind} {m : Mapping}
    (hm : w.catalog.mapping? e = some m) {written : Except Error String}
    (hwritten : written = m.statement s.dialect (s.columnList w.catalog e m) kind) :
    Yields s (known e kind written) w (s.statement w.catalog e kind) := by
  have hanswer := Setting.statement_of_mappings (Setting.mappings_of_mapping? (s := s) hm) kind
  rw [← hwritten] at hanswer
  unfold Yields
  rw [hanswer]
  cases written with
  | error cause =>
    rw [known_error_run]
    cases w.catalog.statement? e kind with
    | some sql => exact ⟨w, rfl, .refl, rfl⟩
    | none => exact ⟨w, rfl, .refl, rfl⟩
  | ok sql =>
    rw [known_run]
    cases hn : w.catalog.statement? e kind with
    | some sql => exact ⟨w, rfl, .refl, rfl⟩
    | none =>
      rw [hn] at hanswer
      exact ⟨_, rfl, .single (.statement hm hn hanswer), rfl⟩

/-- A statement that holds no list of columns. -/
theorem yields_statement (e : EntityType) {kind : StatementKind} (hk : kind ≠ .get)
    (w : Workspace) :
    Yields s (do let m ← mapping s e; known e kind (m.statement s.dialect "" kind)) w
      (s.statement w.catalog e kind) := by
  have hanswer : s.statement w.catalog e kind =
      (s.mappings w.catalog e >>= fun _ => s.statement w.catalog e kind) := by
    unfold Setting.statement
    cases s.mappings w.catalog e <;> rfl
  rw [hanswer]
  refine (yields_mapping s e w).bind fun m w₁ hw₁ hg₁ => ?_
  rw [← Setting.statement_of_grows hg₁]
  exact yields_known (mapping?_of_mapping hw₁) (m.statement_congr fun h => absurd h hk)

theorem yields_columns (s : Setting) (e : EntityType) (w : Workspace) :
    Yields s (columns s e) w (s.statement w.catalog e .columns) := yields_statement e (by simp) w

theorem yields_insertStatement (s : Setting) (e : EntityType) (w : Workspace) :
    Yields s (insertStatement s e) w (s.statement w.catalog e .insert) :=
  yields_statement e (by simp) w

theorem yields_updateStatement (s : Setting) (e : EntityType) (excludeAssigned : Bool)
    (w : Workspace) :
    Yields s (updateStatement s e excludeAssigned) w
      (s.statement w.catalog e (.update excludeAssigned)) := yields_statement e (by simp) w

theorem yields_deleteStatement (s : Setting) (e : EntityType) (w : Workspace) :
    Yields s (deleteStatement s e) w (s.statement w.catalog e .delete) :=
  yields_statement e (by simp) w

/-- The query of the generated key, of a mapping that has one. -/
theorem yields_identityStatement {e : EntityType} {m : Mapping}
    (hm : s.mappings w.catalog e = .ok m) (hi : m.identity?.isSome = true) :
    Yields s (identityStatement s e) w (s.statement w.catalog e .identity) := by
  have hmapping := yields_mapping s e w
  rw [hm] at hmapping
  refine hmapping.bind (g := fun _ => s.statement w.catalog e .identity) fun m' w₁ hw₁ hg₁ => ?_
  have hm' : m' = m := by
    have hmappings := Setting.mappings_of_mapping? (s := s) (mapping?_of_mapping hw₁)
    rw [Setting.mappings_of_grows hg₁, hm] at hmappings
    exact (Except.ok.inj hmappings).symm
  subst hm'
  obtain ⟨p, hp⟩ := Option.isSome_iff_exists.mp hi
  rw [hp, ← Setting.statement_of_grows hg₁]
  refine yields_known (mapping?_of_mapping hw₁) ?_
  unfold Mapping.statement
  rw [hp]

/-- What is answered as the list of columns of a mapping that is known. -/
theorem columns_eq {e : EntityType} {m : Mapping} (hm : s.mappings w.catalog e = .ok m)
    {list : String} {w' : Workspace} (h : columns s e w = .ok list w') :
    list = s.columnList w.catalog e m := by
  obtain ⟨w₁, hw₁, -, -⟩ := yields_columns s e w
  rw [h, Setting.statement_columns hm] at hw₁
  cases hw₁
  rfl

/-- The select by key, with the list of columns. -/
theorem yields_getStatement (s : Setting) (e : EntityType) (w : Workspace) :
    Yields s (getStatement s e) w (s.statement w.catalog e .get) := by
  have hanswer : s.statement w.catalog e .get = (s.mappings w.catalog e >>= fun _ =>
      s.statement w.catalog e .columns >>= fun _ => s.statement w.catalog e .get) := by
    unfold Setting.statement
    cases s.mappings w.catalog e with
    | error cause => rfl
    | ok m => cases w.catalog.statement? e .columns <;> rfl
  rw [hanswer]
  refine (yields_mapping s e w).bind fun m w₁ hw₁ hg₁ => ?_
  rw [← Setting.statement_of_grows hg₁]
  refine (yields_columns s e w₁).bind fun list w₂ hw₂ hg₂ => ?_
  rw [← Setting.statement_of_grows hg₂]
  have hm₁ := mapping?_of_mapping hw₁
  have hm : s.mappings w₁.catalog e = .ok m := Setting.mappings_of_mapping? hm₁
  have hlist : list = s.columnList w₂.catalog e m := by
    rw [columns_eq hm hw₂, Setting.columnList_of_grows hg₂ hm]
  rw [hlist]
  exact yields_known (Setting.mapping?_of_grows hg₂ hm₁) rfl

end EntitySql.Work
