/-
  What a catalog answers, and work that leaves the answers as they are.

  A catalog grows while statements are written, but only by what the setting answers anyway:
  `view` is that answer, for every entity type, and no work changes it. `Answers` says of work
  that its result is read off the view and that the parameters stay; it is proved of the
  resolution of mappings (`answers_mapping`) and of the list of columns (`answers_columns`).
-/
import EntitySql.Query

namespace EntitySql

/-! ## Answers in sequence -/

theorem bind_eq_ok_iff {ε α β : Type} {x : Except ε α} {f : α → Except ε β} {y : β} :
    (x >>= f) = .ok y ↔ ∃ a, x = .ok a ∧ f a = .ok y := by
  cases x with
  | error e => simp [bind, Except.bind]
  | ok a => simp [bind, Except.bind]

theorem map_eq_ok_iff {ε α β : Type} {x : Except ε α} {f : α → β} {y : β} :
    x.map f = .ok y ↔ ∃ a, x = .ok a ∧ f a = y := by
  cases x with
  | error e => simp [Except.map]
  | ok a => simp [Except.map]

theorem mapError_eq_ok_iff {ε ε' α : Type} {x : Except ε α} {f : ε → ε'} {y : α} :
    x.mapError f = .ok y ↔ x = .ok y := by
  cases x with
  | error e =>
    constructor
    · intro h
      cases h
    · intro h
      cases h
  | ok a =>
    constructor
    · intro h
      cases h
      rfl
    · intro h
      cases h
      rfl

/-- What follows work runs where the work has ended. -/
theorem bind_run {ε σ α β : Type} (work : EStateM ε σ α) (f : α → EStateM ε σ β) (s : σ) :
    (work >>= f) s =
      match work s with
      | .ok x s' => f x s'
      | .error e s' => .error e s' := by
  change EStateM.bind work f s = _
  rw [EStateM.bind]
  cases work s <;> rfl

/-- The end of work with an answer, in a state. -/
def ended {ε σ α : Type} (r : Except ε α) (s : σ) : EStateM.Result ε σ α :=
  match r with
  | .ok x => .ok x s
  | .error e => .error e s

/-! ## Views -/

/-- The mapping of every entity type, or the reason why it has none. -/
abbrev Mappings := EntityType → Except Error Mapping

/-- A column reference with the mapping of its entity and that of its property. -/
def Mappings.column (ms : Mappings) (c : ColumnRef) : Except Error (Mapping × PropertyMapping) :=
  match ms c.entity with
  | .error e => .error e
  | .ok m =>
    match m.mapped c.property with
    | .ok p => .ok (m, p)
    | .error e => .error (.query e)

/-- What a setting answers with a catalog. -/
structure View where
  /-- The mapping of an entity type. -/
  mapping : Mappings
  /-- The selected columns of an entity type. -/
  columns : EntityType → Except Error String

namespace Catalog

theorem lookup_singleton {α β : Type} [BEq α] (k k' : α) (x : β) :
    [(k, x)].lookup k' = if k' == k then some x else none := by
  rw [List.lookup_cons, List.lookup_nil]
  cases k' == k <;> rfl

/-- A mapping that is known hides one that is added. -/
theorem mapping?_addMapping (c : Catalog) (e : EntityType) (m : Mapping) (e' : EntityType) :
    (c.addMapping e m).mapping? e' =
      (c.mapping? e').or (if e' = e then some m else none) := by
  unfold mapping? addMapping
  rw [List.lookup_append, lookup_singleton]
  simp

/-- A statement that is known hides one that is added. -/
theorem statement?_addStatement (c : Catalog) (e : EntityType) (kind : StatementKind)
    (sql : String) (e' : EntityType) (kind' : StatementKind) :
    (c.addStatement e kind sql).statement? e' kind' =
      (c.statement? e' kind').or (if e' = e ∧ kind' = kind then some sql else none) := by
  unfold statement? addStatement
  rw [List.lookup_append, lookup_singleton]
  simp

end Catalog

namespace Setting

/-- The mapping that is known, or else the one in force. -/
def mappings (s : Setting) (c : Catalog) : Mappings := fun e =>
  match c.mapping? e with
  | some m => .ok m
  | none =>
    if (s.model e).table.isEmpty then .error (.query (.unknownEntity e.name))
    else .ok (s.model e)

/-- The selected columns that are known, or else those of the mapping. -/
def columnLists (s : Setting) (c : Catalog) (e : EntityType) : Except Error String :=
  match s.mappings c e with
  | .error cause => .error cause
  | .ok m => .ok ((c.statement? e .columns).getD (s.dialect.selectedColumns m))

/-- What the setting answers with the catalog. -/
def view (s : Setting) (c : Catalog) : View := ⟨s.mappings c, s.columnLists c⟩

theorem mappings_addMapping (s : Setting) (c : Catalog) (e : EntityType)
    (hn : c.mapping? e = none) (ht : (s.model e).table.isEmpty = false) :
    s.mappings (c.addMapping e (s.model e)) = s.mappings c := by
  funext e'
  unfold mappings
  rw [Catalog.mapping?_addMapping]
  cases hc : c.mapping? e' with
  | some m => rfl
  | none =>
    by_cases he : e' = e
    · subst he
      simp [ht]
    · simp [he]

theorem view_addMapping (s : Setting) (c : Catalog) (e : EntityType)
    (hn : c.mapping? e = none) (ht : (s.model e).table.isEmpty = false) :
    s.view (c.addMapping e (s.model e)) = s.view c := by
  have hm := s.mappings_addMapping c e hn ht
  have hcols : s.columnLists (c.addMapping e (s.model e)) = s.columnLists c := by
    funext e'
    unfold columnLists
    rw [hm]
    rfl
  rw [view, view, hm, hcols]

theorem view_addColumns (s : Setting) (c : Catalog) (e : EntityType) (m : Mapping)
    (hm : s.mappings c e = .ok m) :
    s.view (c.addStatement e .columns (s.dialect.selectedColumns m)) = s.view c := by
  have hcols : s.columnLists (c.addStatement e .columns (s.dialect.selectedColumns m)) =
      s.columnLists c := by
    funext e'
    unfold columnLists
    rw [Catalog.statement?_addStatement]
    change (match s.mappings c e' with | .error cause => _ | .ok m => _) = _
    cases hm' : s.mappings c e' with
    | error cause => rfl
    | ok m' =>
      by_cases he : e' = e
      · subst he
        rw [hm] at hm'
        obtain rfl := Except.ok.inj hm'
        cases c.statement? e' .columns <;> simp
      · simp [he]
  rw [view, view, hcols]
  rfl

end Setting

namespace Work

/-- The work answers `r` and leaves the view and the parameters as they are. -/
def Answers {α : Type} (s : Setting) (work : Work α) (w : Workspace) (r : Except Error α) :
    Prop :=
  ∃ w', work w = ended r w' ∧ s.view w'.catalog = s.view w.catalog ∧ w'.parameters = w.parameters

theorem mapping_run (s : Setting) (e : EntityType) (w : Workspace) :
    mapping s e w =
      match w.catalog.mapping? e with
      | some m => .ok m w
      | none =>
        if (s.model e).table.isEmpty then .error (.query (.unknownEntity e.name)) w
        else
          .ok (s.model e)
            { w with
              catalog := w.catalog.addMapping e (s.model e)
              log := w.log ++ [⟨.debug, "Resolved class map of `" ++ e.name ++ "`: table " ++
                (s.model e).table ++ ", " ++ toString (s.model e).properties.length ++
                " properties"⟩] } := by
  unfold mapping
  rw [bind_run]
  change (match w.catalog.mapping? e with | some m => _ | none => _ : Work Mapping) w = _
  cases w.catalog.mapping? e with
  | some m => rfl
  | none =>
    by_cases ht : (s.model e).table.isEmpty = true
    · simp only [ht]
      rfl
    · simp only [ht]
      rfl

theorem answers_mapping (s : Setting) (e : EntityType) (w : Workspace) :
    Answers s (mapping s e) w ((s.view w.catalog).mapping e) := by
  change Answers s (mapping s e) w (s.mappings w.catalog e)
  unfold Answers
  rw [mapping_run, Setting.mappings]
  cases hc : w.catalog.mapping? e with
  | some m => exact ⟨w, rfl, rfl, rfl⟩
  | none =>
    cases ht : (s.model e).table.isEmpty with
    | true => exact ⟨w, rfl, rfl, rfl⟩
    | false => exact ⟨_, rfl, s.view_addMapping w.catalog e hc ht, rfl⟩

theorem known_run (e : EntityType) (kind : StatementKind) (sql : String) (w : Workspace) :
    known e kind (.ok sql) w =
      match w.catalog.statement? e kind with
      | some sql => .ok sql w
      | none => .ok sql { w with catalog := w.catalog.addStatement e kind sql } := by
  unfold known
  rw [bind_run]
  change (match w.catalog.statement? e kind with | some sql => _ | none => _ : Work String) w = _
  cases w.catalog.statement? e kind <;> rfl

/-- A statement that cannot be written is answered all the same when it is known. -/
theorem known_error_run (e : EntityType) (kind : StatementKind) (cause : Error) (w : Workspace) :
    known e kind (.error cause) w =
      match w.catalog.statement? e kind with
      | some sql => .ok sql w
      | none => .error cause w := by
  unfold known
  rw [bind_run]
  change (match w.catalog.statement? e kind with | some sql => _ | none => _ : Work String) w = _
  cases w.catalog.statement? e kind <;> rfl

theorem columnLists_eq (s : Setting) (c : Catalog) (e : EntityType) :
    (s.view c).columns e = ((s.view c).mapping e).map fun m =>
      (c.statement? e .columns).getD (s.dialect.selectedColumns m) := by
  change s.columnLists c e = (s.mappings c e).map _
  unfold Setting.columnLists
  cases s.mappings c e <;> rfl

theorem answers_columns (s : Setting) (e : EntityType) (w : Workspace) :
    Answers s (columns s e) w ((s.view w.catalog).columns e) := by
  obtain ⟨w₁, hw₁, hv₁, hp₁⟩ := answers_mapping s e w
  rw [← hv₁, columnLists_eq, hv₁]
  unfold columns Answers
  rw [bind_run, hw₁]
  cases hm : (s.view w.catalog).mapping e with
  | error cause => exact ⟨w₁, rfl, hv₁, hp₁⟩
  | ok m =>
    have hm₁ : s.mappings w₁.catalog e = .ok m := by
      change (s.view w₁.catalog).mapping e = .ok m
      rw [hv₁, hm]
    change ∃ w', known e .columns (.ok (s.dialect.selectedColumns m)) w₁ = _ ∧ _
    rw [known_run]
    cases w₁.catalog.statement? e .columns with
    | some sql => exact ⟨w₁, rfl, hv₁, hp₁⟩
    | none => exact ⟨_, rfl, (s.view_addColumns w₁.catalog e m hm₁).trans hv₁, hp₁⟩

end Work

end EntitySql
