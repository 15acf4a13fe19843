/-
  Runs that go alike.

  Two jobs go alike under a relation of states when from related states they answer the same,
  fail alike and leave related states. Jobs in sequence go alike when their parts do
  (`GoAlike.bind`). `WritesAlike` is what two settings and a relation of workspaces have to fulfil
  for the writing of statements to go alike: mappings and columns are resolved alike, and operands
  that face each other are bound under one name. Selects, windows, counts and deletions go alike
  then, whatever the relation is.
-/
import EntitySql.Proofs.StatementRuns
import Mathlib.Data.List.Forall2

namespace EntitySql

/-- From related states the jobs answer the same, failures included, and leave related states. -/
def GoAlike {ε σ τ α : Type} (R : σ → τ → Prop) (job : EStateM ε σ α) (job' : EStateM ε τ α) :
    Prop :=
  ∀ x x', R x x' → ∃ r y y', job x = ended r y ∧ job' x' = ended r y' ∧ R y y'

namespace GoAlike

variable {ε σ τ α β : Type} {R : σ → τ → Prop}

theorem pure (a : α) : GoAlike R (pure a : EStateM ε σ α) (Pure.pure a) := by
  intro x x' hR
  exact ⟨.ok a, x, x', rfl, rfl, hR⟩

theorem throw (e : ε) : GoAlike R (throw e : EStateM ε σ α) (throw e) := by
  intro x x' hR
  exact ⟨.error e, x, x', rfl, rfl, hR⟩

theorem modify {f : σ → σ} {f' : τ → τ} (h : ∀ x x', R x x' → R (f x) (f' x')) :
    GoAlike R (modify f : EStateM ε σ Unit) (modify f') := by
  intro x x' hR
  exact ⟨.ok (), f x, f' x', rfl, rfl, h x x' hR⟩

theorem bind {job : EStateM ε σ α} {job' : EStateM ε τ α} {f : α → EStateM ε σ β}
    {f' : α → EStateM ε τ β} (h : GoAlike R job job') (hf : ∀ a, GoAlike R (f a) (f' a)) :
    GoAlike R (job >>= f) (job' >>= f') := by
  intro x x' hR
  obtain ⟨r, y, y', hy, hy', hR'⟩ := h x x' hR
  rw [bind_run, bind_run, hy, hy']
  cases r with
  | error e => exact ⟨.error e, y, y', rfl, rfl, hR'⟩
  | ok a => exact hf a y y' hR'

end GoAlike

/-! ## Conditions that face each other -/

/-- Fragments that are equal, or operands of one base whose values face each other. -/
inductive Fragment.Faces (V : Value → Value → Prop) : Fragment → Fragment → Prop
  /-- A fragment faces itself. -/
  | refl (f : Fragment) : Faces V f f
  /-- Operands face each other when their values do. -/
  | operand (base : String) {v v' : Value} (h : V v v') :
    Faces V (.operand base v) (.operand base v')

/-- Conditions whose fragments face each other and that are both empty or both not. -/
structure Predicate.Faces (V : Value → Value → Prop) (p q : Predicate) : Prop where
  /-- Both are empty or both are not. -/
  isEmpty : p.isEmpty = q.isEmpty
  /-- The fragments face each other. -/
  fragments : List.Forall₂ (Fragment.Faces V) p.fragments q.fragments

theorem Fragment.faces_self (V : Value → Value → Prop) (fs : List Fragment) :
    List.Forall₂ (Faces V) fs fs := List.forall₂_same.mpr fun f _ => .refl f

theorem Predicate.faces_self (V : Value → Value → Prop) (p : Option Predicate) :
    Option.Rel (Predicate.Faces V) p p := by
  cases p with
  | none => exact .none
  | some p => exact .some ⟨rfl, Fragment.faces_self V p.fragments⟩

/-! ## Writing that goes alike -/

/-- Manuscripts of one text in related workspaces. -/
structure Manuscript.Related (R : Workspace → Workspace → Prop) (m m' : Manuscript) : Prop where
  /-- The workspaces are related. -/
  workspace : R m.workspace m'.workspace
  /-- The texts are equal. -/
  text : m.text = m'.text

/-- From workspaces related by `R` two settings resolve alike, and bind values related by `V`
    under one name. -/
structure WritesAlike (s s' : Setting) (R : Workspace → Workspace → Prop)
    (V : Value → Value → Prop) : Prop where
  /-- The dialects are equal. -/
  dialect : s'.dialect = s.dialect
  /-- Mappings are resolved alike. -/
  mapping : ∀ e, GoAlike R (Work.mapping s e) (Work.mapping s' e)
  /-- Selected columns are written alike. -/
  columns : ∀ e, GoAlike R (Work.columns s e) (Work.columns s' e)
  /-- Records can be added. -/
  note : ∀ level text, GoAlike R (Work.note level text) (Work.note level text)
  /-- A value faces itself. -/
  self : ∀ v, V v v
  /-- A fresh name is the same on both sides. -/
  freshName : ∀ {w w'}, R w w' → ∀ base, w.parameters.freshName base = w'.parameters.freshName base
  /-- Values can be bound under it. -/
  bind : ∀ {w w'}, R w w' → ∀ base {v v'}, V v v' →
    R { w with parameters := w.parameters.bind base (s.dialect.bindValue v) }
      { w' with parameters := w'.parameters.bind base (s.dialect.bindValue v') }

namespace Work

variable {R : Workspace → Workspace → Prop}

theorem goAlike_ofExcept {α : Type} (r : Except QueryError α) :
    GoAlike R (ofExcept r) (ofExcept r) := by
  cases r with
  | ok a => exact GoAlike.pure a
  | error e => exact GoAlike.throw _

end Work

namespace Writing

variable {R : Workspace → Workspace → Prop}

theorem goAlike_beside {α : Type} {job job' : Work α} (h : GoAlike R job job') :
    GoAlike (Manuscript.Related R) (beside job) (beside job') := by
  intro m m' hm
  obtain ⟨r, w, w', hw, hw', hR⟩ := h _ _ hm.workspace
  unfold beside
  rw [hw, hw']
  cases r with
  | ok a => exact ⟨.ok a, _, _, rfl, rfl, hR, hm.text⟩
  | error e => exact ⟨.error e, _, _, rfl, rfl, hR, hm.text⟩

theorem goAlike_text (text : String) :
    GoAlike (Manuscript.Related R) (Writing.text text) (Writing.text text) := by
  refine GoAlike.modify fun m m' h => ⟨h.workspace, ?_⟩
  dsimp only
  rw [h.text]

end Writing

namespace WritesAlike

variable {s s' : Setting} {R : Workspace → Workspace → Prop} {V : Value → Value → Prop}
  (h : WritesAlike s s' R V)

include h

theorem lookUp (c : ColumnRef) :
    GoAlike (Manuscript.Related R) (Writing.lookUp s c) (Writing.lookUp s' c) := by
  refine GoAlike.bind (Writing.goAlike_beside (h.mapping c.entity)) fun m => ?_
  refine GoAlike.bind (Writing.goAlike_beside (Work.goAlike_ofExcept _)) fun p => ?_
  exact GoAlike.pure (m, p)

/-- What is bound for an operand has no part in what is written for it. -/
theorem operand (base : String) {v v' : Value} (hv : V v v') :
    GoAlike (Manuscript.Related R) (Writing.operand s base v) (Writing.operand s' base v') := by
  intro m m' hm
  have hname := h.freshName hm.workspace base
  refine ⟨.ok (), _, _, rfl, rfl, ?_, ?_⟩
  · have hbind := h.bind hm.workspace base hv
    dsimp only [Dialect.bindParameter]
    rw [h.dialect]
    exact hbind
  · change m.text ++ s.dialect.placeholder (m.workspace.parameters.freshName base) =
      m'.text ++ s'.dialect.placeholder (m'.workspace.parameters.freshName base)
    rw [hm.text, hname, h.dialect]

/-- Fragments that face each other are written alike. -/
theorem fragment {f f' : Fragment} (hf : f.Faces V f') :
    GoAlike (Manuscript.Related R) (Writing.fragment s f) (Writing.fragment s' f') := by
  cases hf with
  | operand base hv => exact h.operand base hv
  | refl =>
    cases f with
    | text t => exact Writing.goAlike_text t
    | column c =>
      refine GoAlike.bind (h.lookUp c) fun mp => ?_
      rw [h.dialect]
      exact Writing.goAlike_text _
    | lookUp c => exact GoAlike.bind (h.lookUp c) fun mp => GoAlike.pure ()
    | resolve e =>
      exact GoAlike.bind (Writing.goAlike_beside (h.mapping e)) fun m => GoAlike.pure ()
    | table e =>
      refine GoAlike.bind (Writing.goAlike_beside (h.mapping e)) fun m => ?_
      rw [h.dialect]
      exact Writing.goAlike_text _
    | operand base v => exact h.operand base (h.self v)
    | everything =>
      unfold Writing.fragment
      rw [h.dialect]
      exact Writing.goAlike_text _
    | refuse e => exact GoAlike.throw _

theorem all {fs fs' : List Fragment} (hfs : List.Forall₂ (Fragment.Faces V) fs fs') :
    GoAlike (Manuscript.Related R) (Writing.all s fs) (Writing.all s' fs') := by
  induction hfs with
  | nil => exact GoAlike.pure ()
  | cons hf _ ih => exact GoAlike.bind (h.fragment hf) fun _ => ih

/-! ## Statements that go alike -/

theorem clause {fs fs' : List Fragment} (hfs : List.Forall₂ (Fragment.Faces V) fs fs') :
    GoAlike R (Work.clause s fs) (Work.clause s' fs') := by
  intro w w' hw
  obtain ⟨r, m, m', hm, hm', hR⟩ := h.all hfs ⟨w, ""⟩ ⟨w', ""⟩ ⟨hw, rfl⟩
  unfold Work.clause
  rw [hm, hm']
  cases r with
  | ok a =>
    refine ⟨.ok m.text, m.workspace, m'.workspace, rfl, ?_, hR.workspace⟩
    rw [hR.text]
    rfl
  | error cause => exact ⟨.error cause, m.workspace, m'.workspace, rfl, rfl, hR.workspace⟩

variable {p q : Option Predicate}

theorem condition (hpq : Option.Rel (Predicate.Faces V) p q) :
    GoAlike R (Work.condition s p) (Work.condition s' q) := by
  cases hpq with
  | none => exact GoAlike.pure none
  | some hfaces =>
    exact GoAlike.bind (h.clause hfaces.fragments) fun text => GoAlike.pure (some text)

theorem partsOf (e : EntityType) (m : Mapping) (terms : List OrderTerm)
    (hpq : Option.Rel (Predicate.Faces V) p q) :
    GoAlike R (Work.partsOf s e m p terms) (Work.partsOf s' e m q terms) := by
  refine GoAlike.bind (h.columns e) fun columns => ?_
  refine GoAlike.bind (h.condition hpq) fun condition => ?_
  exact GoAlike.bind (h.clause (Fragment.faces_self V _)) fun order => GoAlike.pure _

theorem select (e : EntityType) (terms : List OrderTerm)
    (hpq : Option.Rel (Predicate.Faces V) p q) :
    GoAlike R (Work.select s e p terms) (Work.select s' e q terms) := by
  rw [Work.select_eq, Work.select_eq, h.dialect]
  refine GoAlike.bind (h.mapping e) fun m => ?_
  exact GoAlike.bind (h.partsOf e m terms hpq) fun parts => GoAlike.pure _

theorem windowParts (e : EntityType) (terms : List OrderTerm)
    (hpq : Option.Rel (Predicate.Faces V) p q) :
    GoAlike R (Work.windowParts s e p terms) (Work.windowParts s' e q terms) := by
  rw [Work.windowParts_eq, Work.windowParts_eq]
  refine GoAlike.bind (h.mapping e) fun m => ?_
  cases terms with
  | nil => exact GoAlike.bind (h.note _ _) fun _ => GoAlike.throw _
  | cons t terms => exact h.partsOf e m (t :: terms) hpq

/-- Windows whose pieces face each other are written alike. -/
theorem draft {pieces pieces' : List WindowPiece}
    (hpieces : List.Forall₂ (Fragment.Faces V) (pieces.map (·.fragment))
      (pieces'.map (·.fragment))) :
    GoAlike R (Work.draft (s.dialect.writeWindow pieces))
      (Work.draft (s'.dialect.writeWindow pieces')) := by
  rw [Work.draft_writeWindow, Work.draft_writeWindow]
  exact h.clause hpieces

theorem count (e : EntityType) (hpq : Option.Rel (Predicate.Faces V) p q) :
    GoAlike R (Work.count s e p) (Work.count s' e q) := by
  unfold Work.count
  rw [h.dialect]
  refine GoAlike.bind (h.mapping e) fun m => ?_
  exact GoAlike.bind (h.condition hpq) fun condition => GoAlike.pure _

theorem deleteWhere (e : EntityType) (hpq : Option.Rel (Predicate.Faces V) p q) :
    GoAlike R (Work.deleteWhere s e p) (Work.deleteWhere s' e q) := by
  unfold Work.deleteWhere
  rw [h.dialect]
  refine GoAlike.bind (h.mapping e) fun m => ?_
  have hrefuse := GoAlike.bind (h.note .warn
    ("Refused to delete from `" ++ m.entity ++ "` without a predicate")) fun _ =>
      GoAlike.throw (R := R) (α := String) (Error.query (.emptyPredicate m.entity))
  cases hpq with
  | none => exact hrefuse
  | some hfaces =>
    rename_i p q
    rw [Option.filter_some, Option.filter_some, ← hfaces.isEmpty]
    cases p.isEmpty with
    | true => exact hrefuse
    | false =>
      exact GoAlike.bind (h.clause hfaces.fragments) fun text => GoAlike.pure _

/-! ## Selections that go alike -/

theorem writeSet (parts : SelectParts) (skip take : UInt64) :
    GoAlike R (Work.draft (s.dialect.writeSet parts skip take))
      (Work.draft (s'.dialect.writeSet parts skip take)) := by
  have hdraft := h.draft (Fragment.faces_self V
    ((s.dialect.window parts skip take).map (·.fragment)))
  unfold Dialect.writeSet
  rw [h.dialect] at hdraft ⊢
  exact hdraft

theorem selectSet (e : EntityType) (p : Option Predicate) (terms : List OrderTerm)
    (first count : UInt64) :
    GoAlike R (Work.selectSet s e p terms first count)
      (Work.selectSet s' e p terms first count) := by
  unfold Work.selectSet
  by_cases hc : count = 0
  · rw [if_pos hc, if_pos hc]
    exact GoAlike.throw _
  · rw [if_neg hc, if_neg hc]
    refine GoAlike.bind (h.windowParts e terms (Predicate.faces_self V p)) fun parts => ?_
    exact h.writeSet parts first count

theorem selectPage (e : EntityType) (p : Option Predicate) (terms : List OrderTerm)
    (n rows : UInt64) :
    GoAlike R (Work.selectPage s e p terms n rows) (Work.selectPage s' e p terms n rows) := by
  unfold Work.selectPage
  by_cases hc : n = 0 ∨ rows = 0
  · rw [if_pos hc, if_pos hc]
    exact GoAlike.throw _
  · rw [if_neg hc, if_neg hc]
    refine GoAlike.bind (h.windowParts e terms (Predicate.faces_self V p)) fun parts => ?_
    unfold Dialect.writePage
    cases Dialect.pageStart n rows with
    | error cause =>
      intro w w' hw
      exact ⟨.error (.query cause), w, w', rfl, rfl, hw⟩
    | ok skip => exact h.writeSet parts skip rows

theorem selection (x : Selection) : GoAlike R (Work.selection s x) (Work.selection s' x) := by
  unfold Work.selection
  match x.window with
  | none => exact h.select _ _ (Predicate.faces_self V _)
  | some (.page n rows) => exact h.selectPage _ _ _ n rows
  | some (.set first count) => exact h.selectSet _ _ _ first count

theorem selections (xs : List Selection) :
    GoAlike R (Work.selections s xs) (Work.selections s' xs) := by
  induction xs with
  | nil => exact GoAlike.pure []
  | cons x xs ih =>
    refine GoAlike.bind (h.selection x) fun sql => ?_
    exact GoAlike.bind ih fun sqls => GoAlike.pure _

end WritesAlike

end EntitySql
