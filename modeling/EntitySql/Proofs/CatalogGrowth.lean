/-
  How a catalog grows while statements are written, and what it answers.

  Work adds to a catalog in two ways only (`Setting.Adds`): the mapping in force of an entity type
  without one, and a statement that is not known, of an entity type whose mapping is known. Neither
  changes an answer (`statement_of_adds`), so none does in a whole run (`statement_of_grows`), and
  every statement of a catalog stays the one that its mapping has (`IsCoherent.of_grows`).
-/
import EntitySql.Proofs.View
import Mathlib.Logic.Relation

namespace EntitySql

/-! ## Statements of a mapping -/

/-- The statement of a kind, from the list of selected columns, or the reason why the mapping has
    none. -/
def Mapping.statement (d : Dialect) (m : Mapping) (columns : String) :
    StatementKind → Except Error String
  | .columns => .ok (d.selectedColumns m)
  | .get => Work.written (m.getStatement d columns)
  | .insert => .ok (m.insertStatement d)
  | .update excludeAssigned => Work.written (m.updateStatement d excludeAssigned)
  | .delete => Work.written (m.deleteStatement d)
  | .identity =>
    match m.identity? with
    | none => .error (.query (.unsupported (.noIdentity m.entity)))
    | some _ => .ok d.identitySelect

/-- Only the select by key holds the list of columns. -/
theorem Mapping.statement_congr {d : Dialect} {m : Mapping} {columns columns' : String}
    {kind : StatementKind} (h : kind = .get → columns = columns') :
    m.statement d columns kind = m.statement d columns' kind := by
  cases kind with
  | get => rw [h rfl]
  | _ => rfl

namespace Setting

/-- The list of columns that is known, or else that of the mapping. -/
def columnList (s : Setting) (c : Catalog) (e : EntityType) (m : Mapping) : String :=
  (c.statement? e .columns).getD (s.dialect.selectedColumns m)

/-- The statement that is known, or else that of the mapping. -/
def statement (s : Setting) (c : Catalog) (e : EntityType) (kind : StatementKind) :
    Except Error String :=
  match s.mappings c e with
  | .error cause => .error cause
  | .ok m =>
    match c.statement? e kind with
    | some sql => .ok sql
    | none => m.statement s.dialect (s.columnList c e m) kind

theorem statement_of_mappings {s : Setting} {c : Catalog} {e : EntityType} {m : Mapping}
    (hm : s.mappings c e = .ok m) (kind : StatementKind) :
    s.statement c e kind =
      match c.statement? e kind with
      | some sql => .ok sql
      | none => m.statement s.dialect (s.columnList c e m) kind := by
  unfold statement
  rw [hm]

theorem mappings_of_mapping? {s : Setting} {c : Catalog} {e : EntityType} {m : Mapping}
    (hm : c.mapping? e = some m) : s.mappings c e = .ok m := by
  unfold mappings
  rw [hm]

/-! ## One addition -/

/-- What one addition to a catalog can be. -/
inductive Adds (s : Setting) : Catalog → Catalog → Prop
  /-- The mapping in force, of an entity type whose mapping is not known. -/
  | mapping {c : Catalog} {e : EntityType} (hn : c.mapping? e = none)
      (ht : (s.model e).table.isEmpty = false) : Adds s c (c.addMapping e (s.model e))
  /-- The statement that is answered anyway. -/
  | statement {c : Catalog} {e : EntityType} {kind : StatementKind} {m : Mapping} {sql : String}
      (hm : c.mapping? e = some m) (hn : c.statement? e kind = none)
      (hsql : s.statement c e kind = .ok sql) : Adds s c (c.addStatement e kind sql)

theorem mappings_of_adds {s : Setting} {c c' : Catalog} (h : s.Adds c c') :
    s.mappings c' = s.mappings c := by
  cases h with
  | mapping hn ht => exact s.mappings_addMapping c _ hn ht
  | statement hm hn hsql => rfl

/-- The list of columns is answered as before when it is added. -/
theorem columnList_addStatement {s : Setting} {c : Catalog} {e : EntityType}
    {kind : StatementKind} {m : Mapping} {sql : String} (hm : c.mapping? e = some m)
    (hn : c.statement? e kind = none) (hsql : s.statement c e kind = .ok sql) :
    s.columnList (c.addStatement e kind sql) e m = s.columnList c e m := by
  unfold columnList
  rw [Catalog.statement?_addStatement]
  by_cases hk : StatementKind.columns = kind
  · subst hk
    rw [statement_of_mappings (mappings_of_mapping? hm), hn] at hsql
    have hcolumns : s.dialect.selectedColumns m = sql := Except.ok.inj hsql
    rw [hn, hcolumns]
    simp
  · simp [hk]

/-- An addition changes no answer. -/
theorem statement_of_adds {s : Setting} {c c' : Catalog} (h : s.Adds c c') :
    s.statement c' = s.statement c := by
  have hmappings := mappings_of_adds h
  funext e' kind'
  unfold statement
  rw [hmappings]
  cases h with
  | mapping hn ht => rfl
  | @statement e kind m sql hm hn hsql =>
    cases hm' : s.mappings c e' with
    | error cause => rfl
    | ok m' =>
      dsimp only
      by_cases he : e' = e
      · subst he
        have hmm : m = m' := by
          rw [mappings_of_mapping? hm] at hm'
          exact Except.ok.inj hm'
        subst hmm
        rw [columnList_addStatement hm hn hsql, Catalog.statement?_addStatement]
        by_cases hk : kind' = kind
        · subst hk
          rw [statement_of_mappings hm', hn] at hsql
          rw [hn]
          simpa using hsql.symm
        · simp [hk]
      · have hother (k : StatementKind) :
            (c.addStatement e kind sql).statement? e' k = c.statement? e' k := by
          rw [Catalog.statement?_addStatement]
          simp [he]
        unfold columnList
        rw [hother, hother]

/-! ## Several additions -/

/-- Several additions one after the other. -/
abbrev Grows (s : Setting) : Catalog → Catalog → Prop := Relation.ReflTransGen s.Adds

theorem mappings_of_grows {s : Setting} {c c' : Catalog} (h : s.Grows c c') :
    s.mappings c' = s.mappings c := by
  induction h with
  | refl => rfl
  | tail _ hstep ih => rw [mappings_of_adds hstep, ih]

theorem statement_of_grows {s : Setting} {c c' : Catalog} (h : s.Grows c c') :
    s.statement c' = s.statement c := by
  induction h with
  | refl => rfl
  | tail _ hstep ih => rw [statement_of_adds hstep, ih]

/-- A mapping that is known stays the one that is known. -/
theorem mapping?_of_grows {s : Setting} {c c' : Catalog} (h : s.Grows c c') {e : EntityType}
    {m : Mapping} (hm : c.mapping? e = some m) : c'.mapping? e = some m := by
  induction h with
  | refl => exact hm
  | tail _ hstep ih =>
    cases hstep with
    | mapping hn ht =>
      rw [Catalog.mapping?_addMapping, ih]
      rfl
    | statement hm' hn hsql => exact ih

/-- The answered list of columns of a mapping that is known. -/
theorem statement_columns {s : Setting} {c : Catalog} {e : EntityType} {m : Mapping}
    (hm : s.mappings c e = .ok m) : s.statement c e .columns = .ok (s.columnList c e m) := by
  rw [statement_of_mappings hm]
  unfold columnList
  cases c.statement? e .columns <;> rfl

theorem columnList_of_grows {s : Setting} {c c' : Catalog} (h : s.Grows c c') {e : EntityType}
    {m : Mapping} (hm : s.mappings c e = .ok m) : s.columnList c' e m = s.columnList c e m := by
  have hm' : s.mappings c' e = .ok m := by rw [mappings_of_grows h, hm]
  have hcolumns := statement_columns hm'
  rw [statement_of_grows h, statement_columns hm] at hcolumns
  exact (Except.ok.inj hcolumns).symm

/-- Additions change nothing of the view. -/
theorem view_of_grows {s : Setting} {c c' : Catalog} (h : s.Grows c c') : s.view c' = s.view c := by
  have hmappings := mappings_of_grows h
  have hcolumns : s.columnLists c' = s.columnLists c := by
    funext e
    unfold columnLists
    rw [hmappings]
    cases hm : s.mappings c e with
    | error cause => rfl
    | ok m => exact congrArg Except.ok (columnList_of_grows h hm)
  rw [view, view, hmappings, hcolumns]

end Setting

/-! ## Coherent catalogs -/

/-- Every statement that is known is the one of a mapping that is known. -/
def Catalog.IsCoherent (d : Dialect) (c : Catalog) : Prop :=
  ∀ e kind sql, c.statement? e kind = some sql →
    ∃ m, c.mapping? e = some m ∧ m.statement d (d.selectedColumns m) kind = .ok sql

namespace Catalog

theorem isCoherent_empty (d : Dialect) : IsCoherent d {} := by
  intro e kind sql h
  cases h

/-- A coherent catalog answers the list of columns of the mapping. -/
theorem IsCoherent.columnList {s : Setting} {c : Catalog} (h : c.IsCoherent s.dialect)
    {e : EntityType} {m : Mapping} (hm : s.mappings c e = .ok m) :
    s.columnList c e m = s.dialect.selectedColumns m := by
  unfold Setting.columnList
  cases hc : c.statement? e .columns with
  | none => rfl
  | some sql =>
    obtain ⟨m', hm', hsql⟩ := h e .columns sql hc
    rw [Setting.mappings_of_mapping? hm'] at hm
    obtain rfl := Except.ok.inj hm
    exact (Except.ok.inj hsql).symm

/-- A coherent catalog answers the statements of the mapping. -/
theorem IsCoherent.statement {s : Setting} {c : Catalog} (h : c.IsCoherent s.dialect)
    {e : EntityType} {m : Mapping} (hm : s.mappings c e = .ok m) (kind : StatementKind) :
    s.statement c e kind = m.statement s.dialect (s.dialect.selectedColumns m) kind := by
  rw [Setting.statement_of_mappings hm, h.columnList hm]
  cases hc : c.statement? e kind with
  | none => rfl
  | some sql =>
    obtain ⟨m', hm', hsql⟩ := h e kind sql hc
    rw [Setting.mappings_of_mapping? hm'] at hm
    obtain rfl := Except.ok.inj hm
    exact hsql.symm

theorem IsCoherent.of_adds {s : Setting} {c c' : Catalog} (h : c.IsCoherent s.dialect)
    (hstep : s.Adds c c') : c'.IsCoherent s.dialect := by
  have hgrows : s.Grows c c' := .single hstep
  have hold : ∀ e kind sql, c.statement? e kind = some sql →
      ∃ m, c'.mapping? e = some m ∧
        m.statement s.dialect (s.dialect.selectedColumns m) kind = .ok sql := by
    intro e kind sql hc
    obtain ⟨m, hm, hsql⟩ := h e kind sql hc
    exact ⟨m, Setting.mapping?_of_grows hgrows hm, hsql⟩
  intro e' kind' sql' hc'
  cases hstep with
  | mapping hn ht => exact hold e' kind' sql' hc'
  | @statement e kind m sql hm hn hsql =>
    rw [statement?_addStatement] at hc'
    cases hc : c.statement? e' kind' with
    | some sql'' =>
      rw [hc] at hc'
      obtain rfl := Option.some.inj hc'
      exact hold e' kind' sql'' hc
    | none =>
      rw [hc, Option.none_or] at hc'
      obtain ⟨⟨rfl, rfl⟩, hs⟩ := Option.ite_some_none_eq_some.mp hc'
      rw [h.statement (Setting.mappings_of_mapping? hm), hs] at hsql
      exact ⟨m, hm, hsql⟩

theorem IsCoherent.of_grows {s : Setting} {c c' : Catalog} (h : c.IsCoherent s.dialect)
    (hgrows : s.Grows c c') : c'.IsCoherent s.dialect := by
  induction hgrows with
  | refl => exact h
  | tail _ hstep ih => exact ih.of_adds hstep

end Catalog

end EntitySql
