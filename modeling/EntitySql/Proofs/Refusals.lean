/-
  Every check fails with a failure of this library.

  `Refuses` is kept by a sequence. It holds of what a setting answers with a catalog, and with that
  of the plan of every statement (`Refuses.selectionPlan` and its like) and of the checks of keys.
-/
import EntitySql.Database
import EntitySql.Proofs.CatalogGrowth
import EntitySql.Proofs.StatementPlan

namespace EntitySql

/-- Every failure is one of this library. -/
def Refuses {α : Type} (r : Except Error α) : Prop := ∀ e, r = .error e → ∃ q, e = .query q

namespace Refuses

variable {α β : Type}

theorem ok (x : α) : Refuses (.ok x) := fun _ h => by cases h

theorem query (q : QueryError) : Refuses (.error (.query q) : Except Error α) := by
  intro e h
  cases h
  exact ⟨q, rfl⟩

theorem written (r : Except QueryError α) : Refuses (r.mapError .query) := by
  cases r with
  | error q => exact query q
  | ok x => exact ok x

theorem bind {r : Except Error α} {f : α → Except Error β} (hr : Refuses r)
    (hf : ∀ x, r = .ok x → Refuses (f x)) : Refuses (r >>= f) := by
  cases r with
  | error e =>
    intro e' h
    cases h
    exact hr e rfl
  | ok x => exact hf x rfl

theorem map {r : Except Error α} (hr : Refuses r) (f : α → β) : Refuses (r.map f) := by
  cases r with
  | error e =>
    intro e' h
    cases h
    exact hr e rfl
  | ok x => exact ok (f x)

end Refuses

/-! ## Mappings and their statements -/

namespace Setting

variable (s : Setting) (c : Catalog) (e : EntityType)

theorem refuses_mappings : Refuses (s.mappings c e) := by
  unfold mappings
  cases c.mapping? e with
  | some m => exact .ok m
  | none =>
    cases (s.model e).table.isEmpty with
    | true => exact .query _
    | false => exact .ok _

theorem refuses_statement (kind : StatementKind) : Refuses (s.statement c e kind) := by
  unfold statement
  have hmapping := s.refuses_mappings c e
  cases hm : s.mappings c e with
  | error cause =>
    rw [hm] at hmapping
    exact fun e' h => by cases h; exact hmapping cause rfl
  | ok m =>
    dsimp only
    cases c.statement? e kind with
    | some sql => exact .ok sql
    | none =>
      cases kind with
      | columns => exact .ok _
      | get => exact .written _
      | insert => exact .ok _
      | update excludeAssigned => exact .written _
      | delete => exact .written _
      | identity =>
        unfold Mapping.statement
        cases m.identity? with
        | none => exact .query _
        | some p => exact .ok _

end Setting

/-! ## Plans -/

/-- Every failure of the view is one of this library. -/
structure View.Refuses (v : View) : Prop where
  /-- Mappings. -/
  mapping : ∀ e, EntitySql.Refuses (v.mapping e)
  /-- Lists of columns. -/
  columns : ∀ e, EntitySql.Refuses (v.columns e)

theorem Setting.refuses_view (s : Setting) (c : Catalog) : (s.view c).Refuses := by
  refine ⟨s.refuses_mappings c, fun e => ?_⟩
  rw [Work.columnLists_eq]
  exact (s.refuses_mappings c e).map _

namespace Refuses

variable {d : Dialect} {v : View} {ms : Mappings}

theorem column (h : ∀ e, Refuses (ms e)) (c : ColumnRef) : Refuses (ms.column c) := by
  unfold Mappings.column
  cases hm : ms c.entity with
  | error e =>
    intro e' he
    cases he
    exact h c.entity e hm
  | ok m =>
    dsimp only
    cases m.mapped c.property with
    | error q => exact .query q
    | ok p => exact .ok _

theorem check (h : ∀ e, Refuses (ms e)) (f : Fragment) : Refuses (f.check ms) := by
  cases f with
  | column c => exact (column h c).map _
  | lookUp c => exact (column h c).map _
  | resolve e => exact (h e).map _
  | table e => exact (h e).map _
  | refuse q => exact .query q
  | _ => exact .ok ()

theorem checkAll (h : ∀ e, Refuses (ms e)) (fs : List Fragment) :
    Refuses (Fragment.checkAll ms fs) := by
  induction fs with
  | nil => exact .ok ()
  | cons f fs ih =>
    have hf := check h f
    rw [Fragment.checkAll]
    cases hc : f.check ms with
    | error e =>
      intro e' he
      cases he
      exact hf e hc
    | ok u => exact ih

theorem condition (h : ∀ e, Refuses (ms e)) (p : Option Predicate) :
    Refuses (p.mapM (Predicate.plan? d ms)) := by
  cases p with
  | none => exact .ok none
  | some p =>
    rw [Option.mapM_some]
    exact ((checkAll h p.fragments).map _).map some

theorem selectPlan (h : v.Refuses) (e : EntityType) (p : Option Predicate)
    (terms : List OrderTerm) : Refuses (SelectPlan.of d v e p terms) :=
  (h.mapping e).bind fun _ _ => (h.columns e).bind fun _ _ => (condition h.mapping p).bind fun _ _ =>
    ((checkAll h.mapping _).map _).bind fun _ _ => .ok _

theorem windowed (h : v.Refuses) (e : EntityType) (p : Option Predicate)
    (terms : List OrderTerm) : Refuses (SelectPlan.ofWindow d v e p terms) := by
  refine (h.mapping e).bind fun m _ => ?_
  cases terms with
  | nil => exact .query _
  | cons t terms => exact selectPlan h e p _

theorem boundOperands (bounds : List (String × UInt64)) :
    Refuses (SelectPlan.boundOperands bounds) := by
  induction bounds with
  | nil => exact .ok []
  | cons b bounds ih =>
    obtain ⟨base, n⟩ := b
    rw [SelectPlan.boundOperands]
    cases Dialect.windowValue n with
    | error q => exact .query q
    | ok w => exact ih.map _

theorem pagePlan (h : v.Refuses) (e : EntityType) (p : Option Predicate)
    (terms : List OrderTerm) (page rows : UInt64) :
    Refuses (EntitySql.pagePlan d v e p terms page rows) := by
  unfold EntitySql.pagePlan
  split
  · exact .query _
  · exact (windowed h e p terms).bind fun x _ => (written _).bind fun skip _ =>
      (boundOperands _).map _

theorem setPlan (h : v.Refuses) (e : EntityType) (p : Option Predicate)
    (terms : List OrderTerm) (first count : UInt64) :
    Refuses (EntitySql.setPlan d v e p terms first count) := by
  unfold EntitySql.setPlan
  split
  · exact .query _
  · exact (windowed h e p terms).bind fun x _ => (boundOperands _).map _

theorem selectionPlan (h : v.Refuses) (x : Selection) : Refuses (x.plan d v) := by
  unfold Selection.plan
  match x.window with
  | none => exact (selectPlan h x.entity x.condition x.order).map _
  | some (.page page rows) => exact pagePlan h x.entity x.condition x.order page rows
  | some (.set first count) => exact setPlan h x.entity x.condition x.order first count

theorem selectionPlans (h : v.Refuses) (xs : List Selection) :
    Refuses (xs.mapM (Selection.plan d v)) := by
  induction xs with
  | nil => exact .ok []
  | cons x xs ih =>
    rw [List.mapM_cons]
    exact (selectionPlan h x).bind fun _ _ => ih.bind fun _ _ => .ok _

theorem countPlan (h : v.Refuses) (e : EntityType) (p : Option Predicate) :
    Refuses (EntitySql.countPlan d v e p) :=
  (h.mapping e).bind fun _ _ => (condition h.mapping p).bind fun _ _ => .ok _

theorem deletionPlan (h : v.Refuses) (e : EntityType) (p : Option Predicate) :
    Refuses (EntitySql.deletionPlan d v e p) := by
  refine (h.mapping e).bind fun m _ => ?_
  cases p.filter (!·.isEmpty) with
  | none => exact .query _
  | some p => exact ((checkAll h.mapping p.fragments).map _).bind fun _ _ => .ok _

end Refuses

end EntitySql
