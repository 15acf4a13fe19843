/-
  Layouts: texts with numbered places, and what the writing of fragments comes to.

  What fragments write and bind does not depend on the parameters that are there, but for the
  names of the new ones. `Fragment.check` is the first reason why fragments cannot be written,
  `Fragment.layout` the text with a numbered place for each operand, `Fragment.operands` the
  operands. `all_run` says that the writing of fragments fails for that reason, or else appends
  the layout with the placeholders of the new names in its places and binds the operands.

  A `Plan` is such a layout with its operands. `Follows` says of work that it writes and binds
  what a plan says.
-/
import EntitySql.Proofs.FreshNames
import EntitySql.Proofs.View

namespace EntitySql

/-! ## Layouts -/

/-- A part of a layout. -/
inductive Part where
  /-- Fixed text. -/
  | text (s : String)
  /-- The place with the given number. -/
  | place (i : Nat)
deriving DecidableEq

/-- A text with numbered places. -/
abbrev Layout := List Part

namespace Layout

/-- The text with something in each place. -/
def fill (content : Nat → String) : Layout → String
  | [] => ""
  | .text s :: parts => s ++ fill content parts
  | .place i :: parts => content i ++ fill content parts

/-- The numbers of the places, from left to right. -/
def places : Layout → List Nat
  | [] => []
  | .text _ :: parts => places parts
  | .place i :: parts => i :: places parts

@[simp] theorem fill_nil (content : Nat → String) : fill content [] = "" := rfl

@[simp] theorem fill_text (content : Nat → String) (s : String) (parts : Layout) :
    fill content (.text s :: parts) = s ++ fill content parts := rfl

@[simp] theorem fill_place (content : Nat → String) (i : Nat) (parts : Layout) :
    fill content (.place i :: parts) = content i ++ fill content parts := rfl

@[simp] theorem places_nil : places [] = [] := rfl

@[simp] theorem places_text (s : String) (parts : Layout) :
    places (.text s :: parts) = places parts := rfl

@[simp] theorem places_place (i : Nat) (parts : Layout) :
    places (.place i :: parts) = i :: places parts := rfl

@[simp] theorem fill_append (content : Nat → String) (l l' : Layout) :
    fill content (l ++ l') = fill content l ++ fill content l' := by
  induction l with
  | nil => simp
  | cons part l ih => cases part <;> simp [ih, String.append_assoc]

@[simp] theorem places_append (l l' : Layout) : places (l ++ l') = places l ++ places l' := by
  induction l with
  | nil => rfl
  | cons part l ih => cases part <;> simp [ih]

/-- Only what stands in the places counts. -/
theorem fill_congr {content content' : Nat → String} {l : Layout}
    (h : ∀ i ∈ l.places, content i = content' i) : l.fill content = l.fill content' := by
  induction l with
  | nil => rfl
  | cons part l ih =>
    cases part with
    | text s => rw [fill_text, fill_text, ih h]
    | place i =>
      rw [fill_place, fill_place, h i (by simp), ih fun j hj => h j (by simp [hj])]

end Layout

namespace Dialect

/-- The placeholders of names, by their numbers. -/
def placeholders (d : Dialect) (names : List String) (i : Nat) : String :=
  d.placeholder (names.getD i "")

/-- Operands with the values that are bound for them. -/
def bound (d : Dialect) (ops : List (String × Value)) : List (String × Value) :=
  ops.map fun op => (op.1, d.bindValue op.2)

/-- The name of a column, as far as there is one. -/
def columnText (d : Dialect) (ms : Mappings) (c : ColumnRef) : String :=
  match ms.column c with
  | .ok (m, p) => d.qualifiedName m p
  | .error _ => ""

/-- The name of the table of an entity type, as far as there is one. -/
def tableText (d : Dialect) (ms : Mappings) (e : EntityType) : String :=
  match ms e with
  | .ok m => d.tableName m
  | .error _ => ""

/-- What stands in the places of operands that are bound behind the given parameters. -/
def content (d : Dialect) (ps : Parameters) (ops : List (String × Value)) : Nat → String :=
  d.placeholders (ps.newNames (d.bound ops))

@[simp] theorem bound_append (d : Dialect) (ops ops' : List (String × Value)) :
    d.bound (ops ++ ops') = d.bound ops ++ d.bound ops' := List.map_append

@[simp] theorem length_bound (d : Dialect) (ops : List (String × Value)) :
    (d.bound ops).length = ops.length := List.length_map _

theorem length_newNames_bound (d : Dialect) (ps : Parameters) (ops : List (String × Value)) :
    (ps.newNames (d.bound ops)).length = ops.length := by
  rw [Parameters.length_newNames, length_bound]

theorem content_append_left (d : Dialect) (ps : Parameters) (ops ops' : List (String × Value))
    {i : Nat} (h : i < ops.length) : d.content ps (ops ++ ops') i = d.content ps ops i := by
  unfold content placeholders
  rw [bound_append, Parameters.newNames_append, List.getD_eq_getElem?_getD,
    List.getElem?_append_left (by rw [length_newNames_bound]; exact h),
    ← List.getD_eq_getElem?_getD]

theorem content_append_right (d : Dialect) (ps : Parameters) (ops ops' : List (String × Value))
    (i : Nat) : d.content ps (ops ++ ops') (ops.length + i) =
      d.content (ps.bindAll (d.bound ops)) ops' i := by
  unfold content placeholders
  rw [bound_append, Parameters.newNames_append, List.getD_eq_getElem?_getD,
    List.getElem?_append_right (by rw [length_newNames_bound]; exact Nat.le_add_right _ _),
    length_newNames_bound, Nat.add_sub_cancel_left, ← List.getD_eq_getElem?_getD]

end Dialect

/-! ## Fragments -/

namespace Fragment

/-- The reason why a fragment cannot be written. -/
def check (ms : Mappings) : Fragment → Except Error Unit
  | .column c => (ms.column c).map fun _ => ()
  | .lookUp c => (ms.column c).map fun _ => ()
  | .resolve e => (ms e).map fun _ => ()
  | .table e => (ms e).map fun _ => ()
  | .refuse e => .error (.query e)
  | _ => .ok ()

/-- What a fragment binds: the base of the name, and the value. -/
def binds : Fragment → List (String × Value)
  | .operand base v => [(base, v)]
  | _ => []

/-- What a fragment writes; `i` is the number of its operand. -/
def parts (d : Dialect) (ms : Mappings) (i : Nat) : Fragment → Layout
  | .text s => [.text s]
  | .column c => [.text (d.columnText ms c)]
  | .table e => [.text (d.tableText ms e)]
  | .operand _ _ => [.place i]
  | .everything => [.text d.everything]
  | _ => []

/-- The first reason why fragments cannot be written. -/
def checkAll (ms : Mappings) : List Fragment → Except Error Unit
  | [] => .ok ()
  | f :: fs =>
    match f.check ms with
    | .ok _ => checkAll ms fs
    | .error e => .error e

/-- What fragments bind, in order. -/
def operands (fs : List Fragment) : List (String × Value) := fs.flatMap binds

/-- What fragments write; `i` is the number of their first operand. -/
def layout (d : Dialect) (ms : Mappings) (i : Nat) : List Fragment → Layout
  | [] => []
  | f :: fs => f.parts d ms i ++ layout d ms (i + f.binds.length) fs

theorem checkAll_eq_ok_iff (ms : Mappings) (fs : List Fragment) :
    checkAll ms fs = .ok () ↔ ∀ f ∈ fs, f.check ms = .ok () := by
  induction fs with
  | nil => simp [checkAll]
  | cons f fs ih =>
    rw [checkAll, List.forall_mem_cons, ← ih]
    cases hf : f.check ms with
    | ok u => simp
    | error e => simp

@[simp] theorem operands_nil : operands [] = [] := rfl

@[simp] theorem operands_cons (f : Fragment) (fs : List Fragment) :
    operands (f :: fs) = f.binds ++ operands fs := List.flatMap_cons

@[simp] theorem operands_append (fs gs : List Fragment) :
    operands (fs ++ gs) = operands fs ++ operands gs := List.flatMap_append

theorem layout_append (d : Dialect) (ms : Mappings) (i : Nat) (fs gs : List Fragment) :
    layout d ms i (fs ++ gs) = layout d ms i fs ++ layout d ms (i + (operands fs).length) gs := by
  induction fs generalizing i with
  | nil => rfl
  | cons f fs ih =>
    rw [List.cons_append, layout, layout, ih, operands_cons, List.length_append,
      List.append_assoc, Nat.add_assoc]

theorem fill_layout_add (d : Dialect) (ms : Mappings) {content content' : Nat → String} {k : Nat}
    (h : ∀ j, content (k + j) = content' j) (i : Nat) (fs : List Fragment) :
    (layout d ms (k + i) fs).fill content = (layout d ms i fs).fill content' := by
  induction fs generalizing i with
  | nil => rfl
  | cons f fs ih =>
    have hf : (f.parts d ms (k + i)).fill content = (f.parts d ms i).fill content' := by
      cases f with
      | operand base v => simp [parts, h i]
      | _ => rfl
    rw [layout, layout, Layout.fill_append, Layout.fill_append, hf, Nat.add_assoc, ih]

theorem places_parts (d : Dialect) (ms : Mappings) (i : Nat) (f : Fragment) :
    (f.parts d ms i).places = List.range' i f.binds.length := by
  cases f <;> rfl

theorem places_layout (d : Dialect) (ms : Mappings) (i : Nat) (fs : List Fragment) :
    (layout d ms i fs).places = List.range' i (operands fs).length := by
  induction fs generalizing i with
  | nil => rfl
  | cons f fs ih =>
    rw [layout, Layout.places_append, places_parts, ih, operands_cons, List.length_append,
      List.range'_append_1]

end Fragment

/-! ## Plans -/

/-- A statement or a part of one before names are given to its operands. -/
structure Plan where
  /-- The text, with a place for each operand. -/
  layout : Layout
  /-- The operands in the order of their binding: the base of the name, and the value. -/
  operands : List (String × Value)

namespace Plan

/-- What is written behind the given parameters. -/
def text (p : Plan) (d : Dialect) (ps : Parameters) : String :=
  p.layout.fill (d.content ps p.operands)

/-- The given parameters with the operands bound. -/
def parameters (p : Plan) (d : Dialect) (ps : Parameters) : Parameters :=
  ps.bindAll (d.bound p.operands)

end Plan

/-- The plan of fragments. -/
def Fragment.plan (d : Dialect) (ms : Mappings) (fs : List Fragment) : Plan :=
  ⟨layout d ms 0 fs, operands fs⟩

/-! ## Writing -/

namespace Writing

theorem beside_run {α : Type} {s : Setting} {work : Work α} {m : Manuscript}
    {r : Except Error α} (h : Work.Answers s work m.workspace r) :
    ∃ w, beside work m = ended r ⟨w, m.text⟩ ∧
      s.view w.catalog = s.view m.workspace.catalog ∧
      w.parameters = m.workspace.parameters := by
  obtain ⟨w, hw, hv, hp⟩ := h
  refine ⟨w, ?_, hv, hp⟩
  rw [beside, hw]
  cases r <;> rfl

theorem lookUp_run (s : Setting) (c : ColumnRef) (m : Manuscript) :
    ∃ w, lookUp s c m = ended ((s.view m.workspace.catalog).mapping.column c) ⟨w, m.text⟩ ∧
      s.view w.catalog = s.view m.workspace.catalog ∧
      w.parameters = m.workspace.parameters := by
  obtain ⟨w, hw, hv, hp⟩ := beside_run (Work.answers_mapping s c.entity m.workspace)
  refine ⟨w, ?_, hv, hp⟩
  unfold lookUp Mappings.column
  rw [bind_run, hw]
  cases (s.view m.workspace.catalog).mapping c.entity with
  | error e => rfl
  | ok mp =>
    dsimp only [ended]
    rw [bind_run]
    cases mp.mapped c.property <;> rfl

/-- A fragment that cannot be written leaves the text and the parameters as they are. -/
theorem fragment_run (s : Setting) (f : Fragment) (m : Manuscript) :
    ∃ w, fragment s f m =
        (match f.check (s.view m.workspace.catalog).mapping with
        | .ok _ => .ok () ⟨w, m.text ++ (f.parts s.dialect (s.view m.workspace.catalog).mapping 0).fill
            (s.dialect.content m.workspace.parameters f.binds)⟩
        | .error e => .error e ⟨w, m.text⟩) ∧
      s.view w.catalog = s.view m.workspace.catalog ∧
      w.parameters = m.workspace.parameters.bindAll (s.dialect.bound f.binds) := by
  cases f with
  | text t => exact ⟨m.workspace, by simp [fragment, text, Fragment.check, Fragment.parts]; rfl, rfl, rfl⟩
  | column c =>
    obtain ⟨w, hw, hv, hp⟩ := lookUp_run s c m
    refine ⟨w, ?_, hv, hp⟩
    rw [fragment, bind_run, hw]
    simp only [Fragment.check, Fragment.parts, Dialect.columnText]
    cases (s.view m.workspace.catalog).mapping.column c with
    | error e => rfl
    | ok mp => simp [ended, text, Except.map]; rfl
  | lookUp c =>
    obtain ⟨w, hw, hv, hp⟩ := lookUp_run s c m
    refine ⟨w, ?_, hv, hp⟩
    rw [fragment, bind_run, hw]
    simp only [Fragment.check, Fragment.parts]
    cases (s.view m.workspace.catalog).mapping.column c with
    | error e => rfl
    | ok mp => simp [ended, Except.map]; rfl
  | resolve e =>
    obtain ⟨w, hw, hv, hp⟩ := beside_run (Work.answers_mapping s e m.workspace)
    refine ⟨w, ?_, hv, hp⟩
    rw [fragment, bind_run, hw]
    simp only [Fragment.check, Fragment.parts]
    cases (s.view m.workspace.catalog).mapping e with
    | error e => rfl
    | ok mp => simp [ended, Except.map]; rfl
  | table e =>
    obtain ⟨w, hw, hv, hp⟩ := beside_run (Work.answers_mapping s e m.workspace)
    refine ⟨w, ?_, hv, hp⟩
    rw [fragment, bind_run, hw]
    simp only [Fragment.check, Fragment.parts, Dialect.tableText]
    cases (s.view m.workspace.catalog).mapping e with
    | error e => rfl
    | ok mp => simp [ended, text, Except.map]; rfl
  | operand base v =>
    refine ⟨{ m.workspace with
      parameters := m.workspace.parameters.bind base (s.dialect.bindValue v) }, ?_, rfl, rfl⟩
    simp [Fragment.check, Fragment.parts, Fragment.binds, Dialect.bound, Parameters.newNames,
      Dialect.content, Dialect.placeholders]
    rfl
  | everything => exact ⟨m.workspace, by simp [fragment, text, Fragment.check, Fragment.parts]; rfl, rfl, rfl⟩
  | refuse e => exact ⟨m.workspace, rfl, rfl, rfl⟩

/-- The writing of fragments fails for the first reason there is, or else follows their plan. -/
theorem all_run (s : Setting) (fs : List Fragment) (m : Manuscript) :
    ∃ m', all s fs m = ended (Fragment.checkAll (s.view m.workspace.catalog).mapping fs) m' ∧
      s.view m'.workspace.catalog = s.view m.workspace.catalog ∧
      (Fragment.checkAll (s.view m.workspace.catalog).mapping fs = .ok () →
        m'.text = m.text ++ (Fragment.plan s.dialect (s.view m.workspace.catalog).mapping fs).text
          s.dialect m.workspace.parameters ∧
        m'.workspace.parameters =
          (Fragment.plan s.dialect (s.view m.workspace.catalog).mapping fs).parameters
            s.dialect m.workspace.parameters) := by
  induction fs generalizing m with
  | nil => exact ⟨m, rfl, rfl, fun _ => ⟨by simp [Plan.text, Fragment.plan, Fragment.layout], rfl⟩⟩
  | cons f fs ih =>
    obtain ⟨w, hw, hv, hp⟩ := fragment_run s f m
    rw [all, bind_run, hw, Fragment.checkAll]
    cases hf : f.check (s.view m.workspace.catalog).mapping with
    | error e => exact ⟨⟨w, m.text⟩, rfl, hv, by simp⟩
    | ok _ =>
      obtain ⟨m', hm', hv', hok⟩ := ih ⟨w, m.text ++
        (f.parts s.dialect (s.view m.workspace.catalog).mapping 0).fill
          (s.dialect.content m.workspace.parameters f.binds)⟩
      dsimp only at hm' hv' hok
      rw [hv] at hm' hv' hok
      refine ⟨m', hm', hv', fun hc => ?_⟩
      obtain ⟨ht, hps⟩ := hok hc
      rw [hp] at ht hps
      simp only [Plan.text, Plan.parameters, Fragment.plan] at ht hps ⊢
      refine ⟨?_, ?_⟩
      · have hfirst : (f.parts s.dialect (s.view m.workspace.catalog).mapping 0).fill
            (s.dialect.content m.workspace.parameters (f.binds ++ Fragment.operands fs)) =
            (f.parts s.dialect (s.view m.workspace.catalog).mapping 0).fill
              (s.dialect.content m.workspace.parameters f.binds) := by
          refine Layout.fill_congr fun i hi => s.dialect.content_append_left _ _ _ ?_
          rw [Fragment.places_parts, List.mem_range'_1] at hi
          omega
        have hrest := Fragment.fill_layout_add s.dialect (s.view m.workspace.catalog).mapping
          (s.dialect.content_append_right m.workspace.parameters f.binds
            (Fragment.operands fs)) 0 fs
        rw [Nat.add_zero] at hrest
        rw [Fragment.operands_cons, Fragment.layout, Layout.fill_append, Nat.zero_add, hfirst,
          hrest, ht, String.append_assoc]
      · rw [hps, Fragment.operands_cons, Dialect.bound_append, Parameters.bindAll_append]

end Writing

namespace Work

/-- The work fails with the reason of `r`, or else answers what `out` makes of it and binds its
    operands; the view stays. -/
def Writes {α β : Type} (s : Setting) (work : Work α) (w : Workspace) (r : Except Error β)
    (out : β → α) (operands : β → List (String × Value)) : Prop :=
  ∃ w', work w = ended (r.map out) w' ∧ s.view w'.catalog = s.view w.catalog ∧
    ∀ x, r = .ok x → w'.parameters = w.parameters.bindAll (s.dialect.bound (operands x))

/-- The work fails with the reason of `r`, or else writes and binds what its plan says. -/
def Follows (s : Setting) (work : Work String) (w : Workspace) (r : Except Error Plan) : Prop :=
  Writes s work w r (fun p => p.text s.dialect w.parameters) (·.operands)

/-- The plan of fragments that can be written. -/
def clausePlan (d : Dialect) (ms : Mappings) (fs : List Fragment) : Except Error Plan :=
  (Fragment.checkAll ms fs).map fun _ => Fragment.plan d ms fs

theorem clause_follows (s : Setting) (fs : List Fragment) (w : Workspace) :
    Follows s (clause s fs) w (clausePlan s.dialect (s.view w.catalog).mapping fs) := by
  obtain ⟨m, hm, hv, hok⟩ := Writing.all_run s fs ⟨w, ""⟩
  refine ⟨m.workspace, ?_, hv, ?_⟩
  · rw [clause, hm]
    unfold clausePlan
    cases hc : Fragment.checkAll (s.view w.catalog).mapping fs with
    | error e => rfl
    | ok _ =>
      obtain ⟨ht, -⟩ := hok hc
      rw [String.empty_append] at ht
      simp only [ended, Except.map, ht]
  · intro p hp
    unfold clausePlan at hp
    cases hc : Fragment.checkAll (s.view w.catalog).mapping fs with
    | error e => rw [hc] at hp; cases hp
    | ok _ =>
      rw [hc] at hp
      cases hp
      exact (hok hc).2

end Work

end EntitySql
