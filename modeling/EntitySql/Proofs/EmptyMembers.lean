/-
  Empty conditions leave no trace in the conditions around them.

  A condition without its empty members, at every depth, has the same fragments
  (`fragments_pruned`), so it is written alike in every dialect and behind any parameters. What is
  written for fragments is what is written for their parts, one after the other (`clause_append`),
  and a group is therefore the pieces for its members that hold a condition, in parentheses
  (`clause_group`). The condition that is always true is written for an empty condition, and
  otherwise in a sub select on rows that have no condition (`standsInTests_fragments`).
-/
import EntitySql.Proofs.GuardedDeletions
import EntitySql.Proofs.KeyedRuns
import EntitySql.Proofs.Negation
import EntitySql.Proofs.RelatedRuns

namespace EntitySql

/-! ## Conditions without empty members -/

namespace Predicate

mutual

/-- The condition without the members that are empty, at every depth. -/
def pruned : Predicate → Predicate
  | .field c op v negated => .field c op v negated
  | .property c op other negated => .property c op other negated
  | .between c low high negated => .between c low high negated
  | .group k members => .group k (allPruned members)
  | .anyRow e p negated => .anyRow e p.pruned negated

/-- The conditions that are not empty, each without its empty members. -/
def allPruned : List Predicate → List Predicate
  | [] => []
  | p :: ps => if p.isEmpty then allPruned ps else p.pruned :: allPruned ps

end

theorem allPruned_eq_map (ps : List Predicate) : allPruned ps = (inhabited ps).map pruned := by
  induction ps with
  | nil => rfl
  | cons p ps ih =>
    rw [allPruned, ih]
    cases hp : p.isEmpty <;> simp [inhabited, hp]

/-- A condition is empty when nothing is left of it. -/
@[simp] theorem isEmpty_pruned (p : Predicate) : p.pruned.isEmpty = p.isEmpty := by
  induction p using treeInduction with
  | group k members ih =>
    rw [pruned, isEmpty_group, isEmpty, allPruned_eq_map]
    cases h : allEmpty members with
    | true =>
      rw [(inhabited_eq_nil_iff members).mpr h]
      rfl
    | false =>
      rw [allEmpty_eq_all, List.all_eq_false] at h
      obtain ⟨p, hp, hne⟩ := h
      rw [Bool.not_eq_true] at hne
      rw [List.all_eq_false]
      refine ⟨p.pruned, List.mem_map_of_mem (mem_inhabited.mpr ⟨hp, hne⟩), ?_⟩
      rw [ih p hp, hne]
      exact Bool.false_ne_true
  | _ => rfl

theorem isEmpty_of_mem_allPruned {q : Predicate} {ps : List Predicate} (h : q ∈ allPruned ps) :
    q.isEmpty = false := by
  rw [allPruned_eq_map] at h
  obtain ⟨p, hp, rfl⟩ := List.mem_map.mp h
  rw [isEmpty_pruned]
  exact (mem_inhabited.mp hp).2

/-- Every member is left that holds a condition. -/
theorem inhabited_allPruned (ps : List Predicate) : inhabited (allPruned ps) = allPruned ps := by
  refine List.filter_eq_self.mpr fun q hq => ?_
  rw [isEmpty_of_mem_allPruned hq]
  rfl

/-- No group in what is left has an empty member. -/
theorem isEmpty_of_mem_pruned {p : Predicate} {k : Connective} {members : List Predicate}
    (h : p.pruned.HasNode (.group k members)) {q : Predicate} (hq : q ∈ members) :
    q.isEmpty = false := by
  induction p using treeInduction with
  | group k' members' ih =>
    rw [pruned] at h
    cases h with
    | itself => exact isEmpty_of_mem_allPruned hq
    | member hp hnode =>
      rw [allPruned_eq_map] at hp
      obtain ⟨p', hp', rfl⟩ := List.mem_map.mp hp
      exact ih p' (mem_inhabited.mp hp').1 hnode
  | anyRow e p negated ih =>
    rw [pruned] at h
    cases h with
    | row hnode => exact ih hnode
  | _ =>
    rw [pruned] at h
    cases h

/-- The fragments are those of what is left. -/
theorem fragments_pruned (p : Predicate) : p.pruned.fragments = p.fragments := by
  induction p using treeInduction with
  | group k members ih =>
    have hmembers : (inhabited members).map (fun p => p.pruned.fragments) =
        (inhabited members).map fragments :=
      List.map_congr_left fun p hp => ih p (mem_inhabited.mp hp).1
    rw [pruned, fragments, fragments, memberFragments_eq_map, memberFragments_eq_map,
      inhabited_allPruned, allPruned_eq_map, List.map_map, ← hmembers]
    rfl
  | anyRow e p negated ih => rw [pruned, fragments, fragments, ih]
  | _ => rfl

end Predicate

/-! ## Writing one after the other -/

namespace Writing

/-- The second manuscript is the first one behind a text. -/
def Behind (front : String) (m m' : Manuscript) : Prop :=
  m' = ⟨m.workspace, front ++ m.text⟩

theorem behind_text (front s : String) : GoAlike (Behind front) (text s) (text s) := by
  refine GoAlike.modify fun m m' h => ?_
  subst h
  exact congrArg (Manuscript.mk _) String.append_assoc

theorem behind_beside (front : String) {α : Type} (work : Work α) :
    GoAlike (Behind front) (beside work) (beside work) := by
  intro m m' h
  subst h
  unfold beside
  cases work m.workspace with
  | ok x w => exact ⟨.ok x, _, _, rfl, rfl, rfl⟩
  | error e w => exact ⟨.error e, _, _, rfl, rfl, rfl⟩

theorem behind_lookUp (front : String) (s : Setting) (c : ColumnRef) :
    GoAlike (Behind front) (lookUp s c) (lookUp s c) := by
  refine GoAlike.bind (behind_beside front _) fun m => ?_
  refine GoAlike.bind (behind_beside front _) fun p => ?_
  exact GoAlike.pure (m, p)

/-- A fragment is written alike behind any text. -/
theorem behind_fragment (front : String) (s : Setting) (f : Fragment) :
    GoAlike (Behind front) (fragment s f) (fragment s f) := by
  cases f with
  | text t => exact behind_text front t
  | column c => exact GoAlike.bind (behind_lookUp front s c) fun mp => behind_text front _
  | lookUp c => exact GoAlike.bind (behind_lookUp front s c) fun mp => GoAlike.pure ()
  | resolve e => exact GoAlike.bind (behind_beside front _) fun m => GoAlike.pure ()
  | table e => exact GoAlike.bind (behind_beside front _) fun m => behind_text front _
  | operand base v =>
    intro m m' h
    subst h
    exact ⟨.ok (), _, _, rfl, rfl, congrArg (Manuscript.mk _) String.append_assoc⟩
  | everything => exact behind_text front _
  | refuse e => exact GoAlike.throw _

/-- Fragments are written alike behind any text. -/
theorem behind_all (front : String) (s : Setting) (fs : List Fragment) :
    GoAlike (Behind front) (all s fs) (all s fs) := by
  induction fs with
  | nil => exact GoAlike.pure ()
  | cons f fs ih => exact GoAlike.bind (behind_fragment front s f) fun _ => ih

theorem all_append (s : Setting) (fs gs : List Fragment) :
    all s (fs ++ gs) = all s fs >>= fun _ => all s gs := by
  induction fs with
  | nil => exact (pure_bind _ _).symm
  | cons f fs ih =>
    change (fragment s f >>= fun _ => all s (fs ++ gs)) =
      (fragment s f >>= fun _ => all s fs) >>= fun _ => all s gs
    rw [ih, bind_assoc]

end Writing

namespace Work

theorem clause_run (s : Setting) (fs : List Fragment) (w : Workspace) :
    clause s fs w =
      match Writing.all s fs ⟨w, ""⟩ with
      | .ok _ m => .ok m.text m.workspace
      | .error e m => .error e m.workspace := rfl

@[simp] theorem clause_text (s : Setting) (t : String) : clause s [.text t] = pure t := by
  funext w
  change EStateM.Result.ok ("" ++ t) w = _
  rw [String.empty_append]
  rfl

@[simp] theorem clause_resolve (s : Setting) (e : EntityType) :
    clause s [.resolve e] = do
      let _ ← mapping s e
      return "" := by
  funext w
  rw [bind_run, clause_run, Writing.all, Writing.fragment, bind_run, bind_run, Writing.beside]
  cases mapping s e w <;> rfl

@[simp] theorem clause_table (s : Setting) (e : EntityType) :
    clause s [.table e] = do
      let m ← mapping s e
      return s.dialect.tableName m := by
  funext w
  rw [bind_run, clause_run, Writing.all, Writing.fragment, bind_run, bind_run, Writing.beside]
  cases mapping s e w with
  | error cause w' => rfl
  | ok m w' =>
    change EStateM.Result.ok ("" ++ s.dialect.tableName m) w' = _
    rw [String.empty_append]
    rfl

/-- The text of fragments is that of the first ones and then that of the others. -/
theorem clause_append (s : Setting) (fs gs : List Fragment) :
    clause s (fs ++ gs) = do
      let front ← clause s fs
      let back ← clause s gs
      return front ++ back := by
  funext w
  rw [bind_run, clause_run, clause_run, Writing.all_append, bind_run]
  cases Writing.all s fs ⟨w, ""⟩ with
  | error e m => rfl
  | ok _ m =>
    obtain ⟨r, y, y', hy, hy', rfl⟩ := Writing.behind_all m.text s gs ⟨m.workspace, ""⟩ m
      (congrArg (Manuscript.mk _) String.append_empty.symm)
    dsimp only
    rw [hy', bind_run, clause_run, hy]
    cases r <;> rfl

/-- The text of joined fragments is that of the parts, joined. -/
theorem clause_joined (s : Setting) (separator : String) (parts : List (List Fragment)) :
    clause s (Fragment.joined separator parts) = do
      let texts ← parts.mapM (clause s)
      return separator.intercalate texts := by
  unfold Fragment.joined
  induction parts with
  | nil => rfl
  | cons fs parts ih =>
    cases parts with
    | nil => simp [List.intercalate_singleton]
    | cons gs parts =>
      rw [List.intercalate_cons_cons, clause_append, clause_append, ih, List.mapM_cons,
        List.mapM_cons]
      simp [String.intercalate_cons_cons, String.append_assoc]

/-- The texts of conditions that are written one after the other. -/
def clauses (s : Setting) (ps : List Predicate) : Work (List String) :=
  ps.mapM fun p => clause s p.fragments

/-- There is one text for each condition. -/
theorem length_clauses {s : Setting} {ps : List Predicate} {w w' : Workspace}
    {texts : List String} (h : clauses s ps w = .ok texts w') : texts.length = ps.length := by
  unfold clauses at h
  induction ps generalizing w texts with
  | nil =>
    cases h
    rfl
  | cons p ps ih =>
    rw [List.mapM_cons, bind_run] at h
    cases hp : clause s p.fragments w with
    | error e w₁ =>
      rw [hp] at h
      cases h
    | ok text w₁ =>
      rw [hp] at h
      dsimp only at h
      rw [bind_run] at h
      cases hps : ps.mapM (fun p => clause s p.fragments) w₁ with
      | error e w₂ =>
        rw [hps] at h
        cases h
      | ok texts' w₂ =>
        rw [hps] at h
        cases h
        rw [List.length_cons, List.length_cons, ih hps]

/-- A group with a member that is not empty is written as what is written for each such member,
    joined by the connective, in one pair of parentheses. -/
theorem clause_group (s : Setting) (k : Connective) {members : List Predicate}
    (h : Predicate.inhabited members ≠ []) :
    clause s (Predicate.group k members).fragments = do
      let texts ← clauses s (Predicate.inhabited members)
      return "(" ++ k.sql.intercalate texts ++ ")" := by
  unfold clauses
  rw [Predicate.fragments, Predicate.memberFragments_eq_map]
  cases hmembers : Predicate.inhabited members with
  | nil => exact absurd hmembers h
  | cons p ps =>
    have hparts : ((p :: ps).map Predicate.fragments).mapM (clause s) =
        (p :: ps).mapM fun p => clause s p.fragments := List.mapM_map
    unfold Predicate.groupFragments
    rw [List.map_cons]
    dsimp only
    rw [← List.map_cons, clause_append, clause_append, clause_joined, hparts]
    simp

/-- An entity type that was just resolved is resolved without a trace. -/
theorem mapping_again {α : Type} (s : Setting) (e : EntityType) (f : Mapping → Work α) :
    (mapping s e >>= fun _ => mapping s e >>= f) = mapping s e >>= f := by
  funext w
  rw [bind_run, bind_run]
  cases hm : mapping s e w with
  | error cause w' => rfl
  | ok m w' =>
    dsimp only
    rw [bind_run, mapping_run, mapping?_of_mapping hm]

/-- A test for a row is written around what is written for the condition on it. -/
theorem clause_anyRow (s : Setting) (e : EntityType) (p : Predicate) (negated : Bool) :
    clause s (Predicate.anyRow e p negated).fragments = do
      let m ← mapping s e
      let condition ← clause s p.fragments
      return (if negated then "(NOT EXISTS (SELECT 1 FROM " else "(EXISTS (SELECT 1 FROM ") ++
        s.dialect.tableName m ++ " WHERE " ++ condition ++ "))" := by
  have hfront (opening : String) :
      clause s [.resolve e, .text opening, .table e, .text " WHERE "] = do
        let m ← mapping s e
        return opening ++ s.dialect.tableName m ++ " WHERE " := by
    change clause s ([.resolve e] ++ ([.text opening] ++ ([.table e] ++ [.text " WHERE "]))) = _
    rw [clause_append, clause_append, clause_append]
    simp only [clause_resolve, clause_text, clause_table, bind_assoc, pure_bind,
      mapping_again, String.empty_append, String.append_assoc]
  rw [Predicate.fragments, clause_append, clause_append, hfront, clause_text]
  simp

end Work

/-! ## Where the condition stands that is always true -/

namespace Fragment

/-- The condition that is always true stands nowhere but as the whole condition of tests for a
    row, and `tests` holds of each of these: of its entity type and of whether it is negated. -/
def StandsInTests (tests : EntityType → Bool → Prop) (fs : List Fragment) : Prop :=
  ∀ l r, fs = l ++ .everything :: r → ∃ e negated l' r', tests e negated ∧
    l = l' ++ [.resolve e,
      .text (if negated then "(NOT EXISTS (SELECT 1 FROM " else "(EXISTS (SELECT 1 FROM "),
      .table e, .text " WHERE "] ∧
    r = .text "))" :: r'

variable {tests : EntityType → Bool → Prop} {fs gs : List Fragment}

theorem standsInTests_of_not_mem (h : Fragment.everything ∉ fs) : StandsInTests tests fs := by
  rintro l r rfl
  exact absurd (List.mem_append_right l List.mem_cons_self) h

theorem StandsInTests.mono {tests' : EntityType → Bool → Prop} (h : StandsInTests tests fs)
    (himp : ∀ e negated, tests e negated → tests' e negated) : StandsInTests tests' fs := by
  intro l r hfs
  obtain ⟨e, negated, l', r', htest, hl, hr⟩ := h l r hfs
  exact ⟨e, negated, l', r', himp e negated htest, hl, hr⟩

theorem StandsInTests.append (hfs : StandsInTests tests fs) (hgs : StandsInTests tests gs) :
    StandsInTests tests (fs ++ gs) := by
  intro l r h
  rcases List.append_eq_append_iff.mp h with ⟨l₂, rfl, hr⟩ | ⟨r₁, rfl, hr⟩
  · obtain ⟨e, negated, l', r', htest, rfl, rfl⟩ := hgs l₂ r hr
    exact ⟨e, negated, fs ++ l', r', htest, (List.append_assoc ..).symm, rfl⟩
  · cases r₁ with
    | nil =>
      -- the condition would be the first fragment of the second part
      obtain ⟨e, negated, l', r', htest, hl, rfl⟩ := hgs [] r hr.symm
      cases l' <;> cases hl
    | cons f r₁ =>
      rw [List.cons_append, List.cons.injEq] at hr
      obtain ⟨rfl, rfl⟩ := hr
      obtain ⟨e, negated, l', r', htest, hl, rfl⟩ := hfs l r₁ rfl
      exact ⟨e, negated, l', r' ++ gs, htest, hl, rfl⟩

theorem standsInTests_joined (separator : String) {parts : List (List Fragment)}
    (h : ∀ fs ∈ parts, StandsInTests tests fs) : StandsInTests tests (joined separator parts) := by
  have hseparator : StandsInTests tests [.text separator] := standsInTests_of_not_mem (by simp)
  unfold joined
  induction parts with
  | nil => exact standsInTests_of_not_mem List.not_mem_nil
  | cons fs parts ih =>
    have hfs := h fs List.mem_cons_self
    cases parts with
    | nil => rwa [List.intercalate_singleton]
    | cons gs parts =>
      rw [List.intercalate_cons_cons]
      exact (hfs.append hseparator).append (ih fun gs' hgs => h gs' (List.mem_cons_of_mem fs hgs))

end Fragment

namespace Predicate

/-- A test for a row is among the nodes that has an empty condition. -/
def HasEmptyTest (p : Predicate) (e : EntityType) (negated : Bool) : Prop :=
  ∃ q, p.HasNode (.anyRow e q negated) ∧ q.isEmpty = true

theorem everything_not_mem_fieldFragments (c : ColumnRef) (op : Operator) (v : Value)
    (negated : Bool) : Fragment.everything ∉ fieldFragments c op v negated := by
  cases v with
  | list items =>
    rw [fieldFragments]
    split
    · cases items with
      | nil => simp [listFragments]
      | cons v items =>
        intro h
        simp only [listFragments, List.mem_append, List.mem_cons, reduceCtorEq, List.not_mem_nil,
          or_false, false_or] at h
        rcases mem_joined h with h | ⟨fs, hfs, h⟩
        · cases h
        · obtain ⟨v, -, rfl⟩ := List.mem_map.mp hfs
          simp at h
    · simp
  | _ => simp [fieldFragments]

/-- In what is written for a condition that is not empty, the condition that is always true stands
    only in tests for a row whose conditions are empty. -/
theorem standsInTests_fragments {p : Predicate} (h : p.isEmpty = false) :
    Fragment.StandsInTests p.HasEmptyTest p.fragments := by
  induction p using treeInduction with
  | field c op v negated =>
    exact Fragment.standsInTests_of_not_mem (everything_not_mem_fieldFragments c op v negated)
  | property c op other negated => exact Fragment.standsInTests_of_not_mem (by simp [fragments])
  | between c low high negated => exact Fragment.standsInTests_of_not_mem (by simp [fragments])
  | group k members ih =>
    have hmembers : ∀ fs ∈ (inhabited members).map fragments,
        Fragment.StandsInTests (group k members).HasEmptyTest fs := by
      intro fs hfs
      obtain ⟨p, hp, rfl⟩ := List.mem_map.mp hfs
      obtain ⟨hmem, hne⟩ := mem_inhabited.mp hp
      refine (ih p hmem hne).mono ?_
      rintro e negated ⟨q, hq, hempty⟩
      exact ⟨q, .member hmem hq, hempty⟩
    rw [fragments, memberFragments_eq_map]
    cases hinhabited : inhabited members with
    | nil =>
      rw [isEmpty, (inhabited_eq_nil_iff members).mp hinhabited] at h
      cases h
    | cons p ps =>
      rw [hinhabited] at hmembers
      rw [List.map_cons] at hmembers ⊢
      have hopen : Fragment.StandsInTests (group k members).HasEmptyTest [.text "("] :=
        Fragment.standsInTests_of_not_mem (by simp)
      have hclose : Fragment.StandsInTests (group k members).HasEmptyTest [.text ")"] :=
        Fragment.standsInTests_of_not_mem (by simp)
      exact (hopen.append (Fragment.standsInTests_joined k.sql hmembers)).append hclose
  | anyRow e p negated ih =>
    rw [fragments]
    cases hp : p.isEmpty with
    | true =>
      rw [fragments_of_isEmpty hp]
      intro l r hsplit
      rw [List.append_assoc, List.singleton_append,
        List.append_cons_inj_of_notMem (by simp) (by simp)] at hsplit
      obtain ⟨rfl, -, rfl⟩ := hsplit
      exact ⟨e, negated, [], [], ⟨p, .itself _, hp⟩, rfl, rfl⟩
    | false =>
      have hcondition : Fragment.StandsInTests (anyRow e p negated).HasEmptyTest p.fragments := by
        refine (ih hp).mono ?_
        rintro e' negated' ⟨q, hq, hempty⟩
        exact ⟨q, .row hq, hempty⟩
      refine Fragment.StandsInTests.append (Fragment.StandsInTests.append ?_ hcondition) ?_
      · exact Fragment.standsInTests_of_not_mem (by simp)
      · exact Fragment.standsInTests_of_not_mem (by simp)

end Predicate

/-- A condition is written like the condition without its empty members, which has no group with
    such a member any more. A group is written as what is written for the members that are not
    empty, joined by its connective, in one pair of parentheses. An empty condition is written as
    the condition of the dialect that is always true, and binds nothing. Apart from that, this
    condition is written only as the whole condition of a test for a row that has an empty one,
    and what is written for a condition that is not empty is never the same. -/
theorem empty_members_leave_no_trace (s : Setting) :
    (∀ p : Predicate,
      Work.clause s p.pruned.fragments = Work.clause s p.fragments ∧
      Writing.all s p.pruned.fragments = Writing.all s p.fragments ∧
      ∀ k members, p.pruned.HasNode (.group k members) → ∀ q ∈ members, q.isEmpty = false) ∧
    (∀ k members, Predicate.inhabited members ≠ [] →
      (Work.clause s (Predicate.group k members).fragments = do
        let texts ← Work.clauses s (Predicate.inhabited members)
        return "(" ++ k.sql.intercalate texts ++ ")") ∧
      ∀ w texts w', Work.clauses s (Predicate.inhabited members) w = .ok texts w' →
        texts.length = (Predicate.inhabited members).length) ∧
    (∀ (p : Predicate) (w : Workspace), p.isEmpty = true →
      Work.clause s p.fragments w = .ok s.dialect.everything w) ∧
    (∀ e p negated, Work.clause s (Predicate.anyRow e p negated).fragments = do
      let m ← Work.mapping s e
      let condition ← Work.clause s p.fragments
      return (if negated then "(NOT EXISTS (SELECT 1 FROM " else "(EXISTS (SELECT 1 FROM ") ++
        s.dialect.tableName m ++ " WHERE " ++ condition ++ "))") ∧
    ∀ p : Predicate, p.isEmpty = false →
      Fragment.StandsInTests p.HasEmptyTest p.fragments ∧
      (s.dialect ∈ Dialect.all.map (·.2) → ∀ w text w',
        Work.clause s p.fragments w = .ok text w' → text ≠ s.dialect.everything) := by
  refine ⟨fun p => ?_, fun k members hne => ?_, fun p w hp => ?_, fun e p negated => ?_,
    fun p hp => ?_⟩
  · rw [p.fragments_pruned]
    exact ⟨rfl, rfl, fun k members hnode q hq => Predicate.isEmpty_of_mem_pruned hnode hq⟩
  · exact ⟨Work.clause_group s k hne, fun w texts w' htexts => Work.length_clauses htexts⟩
  · rw [Predicate.fragments_of_isEmpty hp]
    exact clause_everything s w
  · exact Work.clause_anyRow s e p negated
  · refine ⟨Predicate.standsInTests_fragments hp, fun hd w text w' hrun => ?_⟩
    obtain ⟨w₁, hw₁, -⟩ := Work.clause_of_compiles s (Work.compiles_of_clause hrun)
    rw [hrun] at hw₁
    cases hw₁
    exact (Predicate.isGuarded_rendering _ _ _ 0 (p.isEmpty_eq_false_iff.mp hp)).ne_everything hd

/-- Two of the three members of a sample are written, and the second of them has an empty
    condition. -/
theorem empty_members_leave_no_trace_halfEmpty :
    Work.clause Samples.people Samples.halfEmpty.pruned.fragments =
      Work.clause Samples.people Samples.halfEmpty.fragments ∧
    (Work.clause Samples.people Samples.halfEmpty.fragments = do
      let texts ← Work.clauses Samples.people
        [.group .or [.group .and [], .field Samples.age .eq .null true],
         .anyRow ⟨"Person"⟩ (.group .and []) false]
      return "(" ++ " AND ".intercalate texts ++ ")") ∧
    Work.clause Samples.people (Predicate.group .and []).fragments {} = .ok "1=1" {} ∧
    Fragment.StandsInTests Samples.halfEmpty.HasEmptyTest Samples.halfEmpty.fragments := by
  obtain ⟨hpruned, hgroup, hempty, -, hstands⟩ := empty_members_leave_no_trace Samples.people
  have hwritten := (hgroup .and
    [.group .or [], .group .or [.group .and [], .field Samples.age .eq .null true],
     .anyRow ⟨"Person"⟩ (.group .and []) false] (List.cons_ne_nil _ _)).1
  exact ⟨(hpruned Samples.halfEmpty).1, hwritten, hempty (.group .and []) {} rfl,
    (hstands Samples.halfEmpty rfl).1⟩

end EntitySql
