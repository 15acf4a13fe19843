/-
  Operands stay out of the text.

  Conditions of one shape differ in their operands only (`Predicate.SameShape`). Their fragments
  are the same but for the values to bind (`blank_fragments`), and so are the pieces of accepted
  windows (`blank_window`). Which name is fresh depends on the names that are there and on nothing
  else (`freshName_congr`), so statements of conditions of one shape go alike, from workspaces
  that may differ in the values of their parameters (`writesAlike_names`).
-/
import EntitySql.Proofs.RelatedRuns
import EntitySql.Proofs.WindowedSelects

namespace EntitySql

/-! ## Shapes -/

/-- What a comparison sees of an operand. -/
inductive OperandForm where
  /-- Nothing. -/
  | nothing
  /-- One value. -/
  | single
  /-- Several values. -/
  | several (n : Nat)
deriving DecidableEq

/-- What a comparison sees of a value. -/
def Value.form : Value → OperandForm
  | .null => .nothing
  | .list items => .several items.length
  | _ => .single

/-- A value of the form. -/
def OperandForm.sample : OperandForm → Value
  | .nothing => .null
  | .single => .boolean false
  | .several n => .list (List.replicate n .null)

namespace Predicate

mutual

/-- Whether two conditions are equal but for their operands, where nothing faces nothing and a
    list faces a list of its length. The bounds of a range may be anything. -/
def SameShape : Predicate → Predicate → Prop
  | .field c op v n, .field c' op' v' n' => c = c' ∧ op = op' ∧ v.form = v'.form ∧ n = n'
  | .property c op o n, .property c' op' o' n' => c = c' ∧ op = op' ∧ o = o' ∧ n = n'
  | .between c _ _ n, .between c' _ _ n' => c = c' ∧ n = n'
  | .group k ps, .group k' ps' => k = k' ∧ AllSameShape ps ps'
  | .anyRow e p n, .anyRow e' p' n' => e = e' ∧ p.SameShape p' ∧ n = n'
  | _, _ => False

/-- Whether two lists of conditions are equal but for their operands. -/
def AllSameShape : List Predicate → List Predicate → Prop
  | [], [] => True
  | p :: ps, q :: qs => p.SameShape q ∧ AllSameShape ps qs
  | _, _ => False

end

/-- What conditions of one shape have in common, the members of groups of one shape have in
    common. -/
theorem map_eq_of_allSameShape {α : Type} {f : Predicate → α} {ps qs : List Predicate}
    (hf : ∀ p ∈ ps, ∀ q, p.SameShape q → f p = f q) (h : AllSameShape ps qs) :
    ps.map f = qs.map f := by
  induction ps generalizing qs with
  | nil =>
    cases qs with
    | nil => rfl
    | cons q qs => exact h.elim
  | cons p ps ih =>
    cases qs with
    | nil => exact h.elim
    | cons q qs =>
      rw [AllSameShape] at h
      rw [List.map_cons, List.map_cons, hf p List.mem_cons_self q h.1,
        ih (fun p' hp' => hf p' (List.mem_cons_of_mem p hp')) h.2]

/-- Conditions of one shape are both empty or both not. -/
theorem isEmpty_of_sameShape {p q : Predicate} (h : p.SameShape q) : p.isEmpty = q.isEmpty := by
  induction p using treeInduction generalizing q with
  | group k members ih =>
    cases q with
    | group k' members' =>
      rw [SameShape] at h
      have hmap := map_eq_of_allSameShape (f := isEmpty) (fun p hp q => ih p hp) h.2
      rw [isEmpty_group, isEmpty_group, ← Function.id_comp isEmpty, ← List.all_map, hmap,
        List.all_map]
    | _ => exact absurd h (by simp [SameShape])
  | _ =>
    cases q with
    | group k' members' => exact absurd h (by simp [SameShape])
    | _ => rfl

end Predicate

/-! ## Fragments without values -/

namespace Fragment

/-- The fragment with nothing to bind for an operand. -/
def blank : Fragment → Fragment
  | .operand base _ => .operand base .null
  | f => f

theorem blank_joined (separator : String) (parts : List (List Fragment)) :
    (joined separator parts).map blank = joined separator (parts.map (List.map blank)) := by
  unfold joined
  induction parts with
  | nil => rfl
  | cons fs parts ih =>
    cases parts with
    | nil => rw [List.map_singleton, List.intercalate_singleton, List.intercalate_singleton]
    | cons gs parts =>
      rw [List.map_cons, List.map_cons, List.intercalate_cons_cons, List.intercalate_cons_cons,
        List.map_append, List.map_append, ih]
      rfl

end Fragment

namespace Predicate

open Fragment (blank)

theorem blank_listFragments (c : ColumnRef) (items : List Value) (negated : Bool) :
    (listFragments c items negated).map blank =
      (listFragments c (List.replicate items.length .null) negated).map blank := by
  cases items with
  | nil => rfl
  | cons v items =>
    have hoperands : ∀ vs : List Value,
        (vs.map fun v => [Fragment.operand c.property v]).map (List.map blank) =
          List.replicate vs.length [Fragment.operand c.property .null] := by
      intro vs
      rw [List.map_map]
      exact List.map_const' (b := [Fragment.operand c.property .null])
    unfold listFragments
    rw [List.length_cons, List.replicate_succ]
    simp only [List.map_append, Fragment.blank_joined]
    rw [hoperands, ← List.replicate_succ, hoperands, List.length_replicate, List.length_cons]

theorem blank_fieldFragments (c : ColumnRef) (op : Operator) (v : Value) (negated : Bool) :
    (fieldFragments c op v negated).map blank =
      (fieldFragments c op v.form.sample negated).map blank := by
  cases v with
  | list items =>
    change (if op = .eq then listFragments c items negated else _).map blank =
      (if op = .eq then listFragments c (List.replicate items.length .null) negated else _).map blank
    by_cases hop : op = .eq
    · rw [if_pos hop, if_pos hop]
      exact blank_listFragments c items negated
    · rw [if_neg hop, if_neg hop]
  | _ => rfl

theorem blank_groupFragments (k : Connective) (members : List (List Fragment)) :
    (groupFragments k members).map blank = groupFragments k (members.map (List.map blank)) := by
  cases members with
  | nil => rfl
  | cons fs members =>
    unfold groupFragments
    rw [List.map_append, List.map_append, Fragment.blank_joined]
    rfl

/-- The fragments of a member, unless it is empty. -/
def memberBlank (p : Predicate) : Option (List Fragment) :=
  if p.isEmpty then none else some (p.fragments.map blank)

theorem blank_memberFragments (ps : List Predicate) :
    (memberFragments ps).map (List.map blank) = (ps.map memberBlank).filterMap id := by
  induction ps with
  | nil => rfl
  | cons p ps ih =>
    rw [memberFragments, List.map_cons, memberBlank]
    cases hp : p.isEmpty with
    | true => exact ih
    | false =>
      change p.fragments.map blank :: (memberFragments ps).map (List.map blank) = _
      rw [ih]
      rfl

/-- The fragments of conditions of one shape are the same but for the values to bind. -/
theorem blank_fragments {p q : Predicate} (h : p.SameShape q) :
    p.fragments.map blank = q.fragments.map blank := by
  induction p using treeInduction generalizing q with
  | field c op v negated =>
    cases q with
    | field c' op' v' negated' =>
      rw [SameShape] at h
      obtain ⟨rfl, rfl, hform, rfl⟩ := h
      rw [fragments, fragments, blank_fieldFragments, blank_fieldFragments c op v', hform]
    | _ => exact absurd h (by simp [SameShape])
  | property c op other negated =>
    cases q with
    | property c' op' other' negated' =>
      rw [SameShape] at h
      obtain ⟨rfl, rfl, rfl, rfl⟩ := h
      rfl
    | _ => exact absurd h (by simp [SameShape])
  | between c low high negated =>
    cases q with
    | between c' low' high' negated' =>
      rw [SameShape] at h
      obtain ⟨rfl, rfl⟩ := h
      rfl
    | _ => exact absurd h (by simp [SameShape])
  | group k members ih =>
    cases q with
    | group k' members' =>
      rw [SameShape] at h
      obtain ⟨rfl, hmembers⟩ := h
      have hblank := map_eq_of_allSameShape (f := memberBlank) (fun p hp q hpq => by
        rw [memberBlank, memberBlank, isEmpty_of_sameShape hpq, ih p hp hpq]) hmembers
      rw [fragments, fragments, blank_groupFragments, blank_groupFragments, blank_memberFragments,
        blank_memberFragments, hblank]
    | _ => exact absurd h (by simp [SameShape])
  | anyRow e p negated ih =>
    cases q with
    | anyRow e' p' negated' =>
      rw [SameShape] at h
      obtain ⟨rfl, hp, rfl⟩ := h
      rw [fragments, fragments, List.map_append, List.map_append, List.map_append, List.map_append,
        ih hp]
    | _ => exact absurd h (by simp [SameShape])

end Predicate

/-! ## Facing fragments -/

/-- Any values face each other. -/
abbrev AnyValues (_ _ : Value) : Prop := True

namespace Fragment

theorem blank_eq_self_or (f : Fragment) : f.blank = f ∨ ∃ base v, f = .operand base v := by
  cases f with
  | operand base v => exact .inr ⟨base, v, rfl⟩
  | _ => exact .inl rfl

theorem faces_of_blank {f f' : Fragment} (h : f.blank = f'.blank) : f.Faces AnyValues f' := by
  rcases f.blank_eq_self_or with hf | ⟨base, v, rfl⟩
  · rcases f'.blank_eq_self_or with hf' | ⟨base', v', rfl⟩
    · rw [hf, hf'] at h
      rw [h]
      exact .refl f'
    · rw [hf] at h
      rw [h]
      exact .operand base' trivial
  · rcases f'.blank_eq_self_or with hf' | ⟨base', v', rfl⟩
    · rw [hf'] at h
      rw [← h]
      exact .operand base trivial
    · obtain ⟨rfl, -⟩ := Fragment.operand.inj h
      exact .operand base trivial

theorem forall₂_faces_of_blank {fs fs' : List Fragment} (h : fs.map blank = fs'.map blank) :
    List.Forall₂ (Faces AnyValues) fs fs' := by
  induction fs generalizing fs' with
  | nil =>
    rw [List.map_eq_nil_iff.mp h.symm]
    exact .nil
  | cons f fs ih =>
    obtain ⟨f', fs', rfl, hf, hfs⟩ := List.map_eq_cons_iff.mp h.symm
    exact .cons (faces_of_blank hf.symm) (ih hfs.symm)

end Fragment

theorem Predicate.faces_of_sameShape {p q : Option Predicate}
    (h : Option.Rel Predicate.SameShape p q) : Option.Rel (Predicate.Faces AnyValues) p q := by
  cases h with
  | none => exact .none
  | some hpq =>
    exact .some ⟨isEmpty_of_sameShape hpq, Fragment.forall₂_faces_of_blank (blank_fragments hpq)⟩

/-! ## Workspaces without values -/

/-- Workspaces that differ in the values of their parameters only. -/
structure Workspace.SameNames (w w' : Workspace) : Prop where
  /-- The catalogs are equal. -/
  catalog : w.catalog = w'.catalog
  /-- The records are equal. -/
  log : w.log = w'.log
  /-- The names are equal, and they come in the same order. -/
  names : w.parameters.names = w'.parameters.names

namespace Parameters

theorem contains_eq_any (ps : Parameters) (name : String) :
    ps.contains name = ps.names.any (· == name) := by
  unfold contains names
  rw [List.any_map]
  rfl

/-- Which name is fresh depends on the names that are there. -/
theorem freshName_congr {ps ps' : Parameters} (h : ps.names = ps'.names) (base : String) :
    ps.freshName base = ps'.freshName base := by
  have hsize : ps.size = ps'.size := by rw [← names_length, h, names_length]
  have hcontains : ∀ name, ps.contains name = ps'.contains name := by
    intro name
    rw [contains_eq_any, contains_eq_any, h]
  unfold freshName freshIndex
  simp only [hsize, hcontains]

theorem names_bind_congr {ps ps' : Parameters} (h : ps.names = ps'.names) (base : String)
    (v v' : Value) : (ps.bind base v).names = (ps'.bind base v').names := by
  rw [names_bind, names_bind, h, freshName_congr h]

end Parameters

namespace Work

theorem sameNames_mapping (s : Setting) (e : EntityType) :
    GoAlike Workspace.SameNames (mapping s e) (mapping s e) := by
  intro w w' h
  rw [mapping_run, mapping_run, ← h.catalog, ← h.log]
  cases w.catalog.mapping? e with
  | some m => exact ⟨.ok m, w, w', rfl, rfl, h⟩
  | none =>
    cases (s.model e).table.isEmpty with
    | true => exact ⟨.error _, w, w', rfl, rfl, h⟩
    | false => exact ⟨.ok _, _, _, rfl, rfl, rfl, rfl, h.names⟩

theorem sameNames_columns (s : Setting) (e : EntityType) :
    GoAlike Workspace.SameNames (columns s e) (columns s e) := by
  refine GoAlike.bind (sameNames_mapping s e) fun m => ?_
  intro w w' h
  rw [known_run, known_run, ← h.catalog]
  cases w.catalog.statement? e .columns with
  | some sql => exact ⟨.ok sql, w, w', rfl, rfl, h⟩
  | none => exact ⟨.ok _, _, _, rfl, rfl, rfl, h.log, h.names⟩

theorem sameNames_note (level : LogLevel) (text : String) :
    GoAlike Workspace.SameNames (note level text) (note level text) := by
  refine GoAlike.modify fun w w' h => ⟨h.catalog, ?_, h.names⟩
  dsimp only
  rw [h.log]

end Work

/-- The writing of statements does not look at the values of parameters. -/
theorem Setting.writesAlike_names (s : Setting) :
    WritesAlike s s Workspace.SameNames AnyValues where
  dialect := rfl
  mapping := Work.sameNames_mapping s
  columns := Work.sameNames_columns s
  note := Work.sameNames_note
  self _ := trivial
  freshName h base := Parameters.freshName_congr h.names base
  bind h base _ _ _ := ⟨h.catalog, h.log, Parameters.names_bind_congr h.names base _ _⟩

/-! ## Windows without numbers -/

namespace Dialect

theorem blank_bound {n : UInt64} (h : n.toNat ≤ greatestBound) (base : String) :
    (WindowPiece.bound base n).fragment.blank = .operand base .null := by
  obtain ⟨i, -, hi⟩ := windowValue_of_le h
  rw [WindowPiece.fragment, hi]
  rfl

/-- The pieces of accepted windows are the same but for the numbers to bind. -/
theorem blank_window (d : Dialect) (parts : SelectParts) {x y : Window} (hx : x.IsAccepted)
    (hy : y.IsAccepted) :
    ((d.window parts x.skipBound x.takeBound).map (·.fragment)).map Fragment.blank =
      ((d.window parts y.skipBound y.takeBound).map (·.fragment)).map Fragment.blank := by
  have hskip (base : String) := blank_bound (hx.toNat_skipBound ▸ hx.skip_le) base
  have htake (base : String) := blank_bound hx.take_le base
  have hskip' (base : String) := blank_bound (hy.toNat_skipBound ▸ hy.skip_le) base
  have htake' (base : String) := blank_bound hy.take_le base
  unfold window
  cases d.windowForm <;>
    simp only [List.map_cons, List.map_nil, hskip, htake, hskip', htake']

end Dialect

/-- Accepted windows of conditions of one shape are selected alike. -/
theorem Window.select_sameNames (s : Setting) (e : EntityType) {p q : Option Predicate}
    (terms : List OrderTerm) (h : Option.Rel Predicate.SameShape p q) {x y : Window}
    (hx : x.IsAccepted) (hy : y.IsAccepted) :
    GoAlike Workspace.SameNames (x.select s e p terms) (y.select s e q terms) := by
  have halike := s.writesAlike_names
  rw [select_eq hx, select_eq hy]
  refine GoAlike.bind (halike.windowParts e terms (Predicate.faces_of_sameShape h)) fun parts => ?_
  exact halike.draft (Fragment.forall₂_faces_of_blank (s.dialect.blank_window parts hx hy))

/-- No operand has a part in the text: statements of conditions of one shape, with accepted
    windows, have the same text and the same names in the same order, or fail for the same
    reason. -/
theorem operands_stay_out_of_text (s : Setting) (e : EntityType) (terms : List OrderTerm)
    (p q : Option Predicate) (h : Option.Rel Predicate.SameShape p q) :
    GoAlike Workspace.SameNames (Work.select s e p terms) (Work.select s e q terms) ∧
    GoAlike Workspace.SameNames (Work.count s e p) (Work.count s e q) ∧
    GoAlike Workspace.SameNames (Work.deleteWhere s e p) (Work.deleteWhere s e q) ∧
    (∀ n rows n' rows' : UInt64, (Window.page n rows).IsAccepted →
      (Window.page n' rows').IsAccepted →
        GoAlike Workspace.SameNames (Work.selectPage s e p terms n rows)
          (Work.selectPage s e q terms n' rows')) ∧
    (∀ first count first' count' : UInt64, (Window.set first count).IsAccepted →
      (Window.set first' count').IsAccepted →
        GoAlike Workspace.SameNames (Work.selectSet s e p terms first count)
          (Work.selectSet s e q terms first' count')) ∧
    ∀ n rows first count : UInt64, (Window.page n rows).IsAccepted →
      (Window.set first count).IsAccepted →
        GoAlike Workspace.SameNames (Work.selectPage s e p terms n rows)
          (Work.selectSet s e q terms first count) := by
  have halike := s.writesAlike_names
  have hfaces := Predicate.faces_of_sameShape h
  refine ⟨?_, ?_, ?_, ?_, ?_, ?_⟩
  · exact halike.select e terms hfaces
  · exact halike.count e hfaces
  · exact halike.deleteWhere e hfaces
  · intro n rows n' rows' hx hy
    exact Window.select_sameNames s e terms h hx hy
  · intro first count first' count' hx hy
    exact Window.select_sameNames s e terms h hx hy
  · intro n rows first count hx hy
    exact Window.select_sameNames s e terms h hx hy

/-! ## A sample -/

namespace Samples

/-- The shape of `ages` with other operands, one of them a text that looks like a statement. -/
def otherAges : Predicate :=
  .group .and
    [.field age .gt (.text "0); DROP TABLE [Person]; --") false,
     .field age .eq (.list [.text "_skip_0", .null]) true, .group .or [],
     .between age .null (.list []) false]

end Samples

/-- Two pages of two conditions of one shape. -/
theorem operands_stay_out_of_text_ages :
    Option.Rel Predicate.SameShape (some Samples.ages) (some Samples.otherAges) ∧
    ∃ text w w', Work.selectPage Samples.people ⟨"Person"⟩ (some Samples.ages)
        [⟨Samples.age, true⟩] 3 4 {} = .ok text w ∧
      Work.selectPage Samples.people ⟨"Person"⟩ (some Samples.otherAges)
        [⟨Samples.age, true⟩] 2 0x7FFFFFFFFFFFFFFF {} = .ok text w' ∧
      w.parameters.names = w'.parameters.names := by
  have hshape : Option.Rel Predicate.SameShape (some Samples.ages) (some Samples.otherAges) := by
    refine .some ?_
    simp [Samples.ages, Samples.otherAges, Predicate.SameShape, Predicate.AllSameShape, Value.form]
  obtain ⟨-, -, -, hpage, -, -⟩ := operands_stay_out_of_text Samples.people ⟨"Person"⟩
    [⟨Samples.age, true⟩] _ _ hshape
  obtain ⟨text, w, hw⟩ := (Work.selectPage_follows Samples.people ⟨"Person"⟩ (some Samples.ages)
    [⟨Samples.age, true⟩] 3 4 {}).succeeds (by decide +kernel)
  obtain ⟨r, y, y', hy, hy', hR⟩ := hpage 3 4 2 0x7FFFFFFFFFFFFFFF (by decide) (by decide) {} {}
    ⟨rfl, rfl, rfl⟩
  rw [hw] at hy
  cases r with
  | error cause => cases hy
  | ok text' =>
    obtain ⟨rfl, rfl⟩ := EStateM.Result.ok.inj hy
    exact ⟨hshape, text, w, y', hw, hy', hR.names⟩

end EntitySql
