/-
  Deletions by condition are guarded.

  A condition holds something when a comparison or a test for rows is among its nodes (`HasLeaf`),
  and `isEmpty` tells whether that is so (`isEmpty_eq_false_iff`). A deletion is refused for want
  of a condition exactly when there is no leaf; no other check fails with that reason
  (`deletionPlan_eq_emptyPredicate_iff`).

  `IsGuarded` is the form of what is written for a condition with a leaf: every operand of a
  connective is written so for a member with a leaf, and members without one leave nothing behind.
  It holds of every rendering (`isGuarded_rendering`), by induction over the tree.
-/
import EntitySql.Proofs.ReadBack
import EntitySql.Proofs.SingleExchange

namespace EntitySql

namespace Predicate

/-! ## Nodes -/

/-- Whether the condition compares or tests for a row, and is no group. -/
def isLeaf : Predicate → Bool
  | .group _ _ => false
  | _ => true

/-- The nodes of a condition: the condition itself, those of the members of a group, and those of
    the condition on the rows of another table. -/
inductive HasNode : Predicate → Predicate → Prop where
  /-- The condition itself. -/
  | itself (p : Predicate) : HasNode p p
  /-- A node of a member. -/
  | member {k : Connective} {members : List Predicate} {p n : Predicate} (hp : p ∈ members)
      (h : HasNode p n) : HasNode (.group k members) n
  /-- A node of the condition on the rows. -/
  | row {e : EntityType} {p n : Predicate} {negated : Bool} (h : HasNode p n) :
      HasNode (.anyRow e p negated) n

/-- A comparison or a test for rows is among the nodes. -/
def HasLeaf (p : Predicate) : Prop := ∃ n, p.HasNode n ∧ n.isLeaf = true

theorem hasLeaf_of_isLeaf {p : Predicate} (h : p.isLeaf = true) : p.HasLeaf := ⟨p, .itself p, h⟩

theorem hasLeaf_group_iff (k : Connective) (members : List Predicate) :
    (group k members).HasLeaf ↔ ∃ p ∈ members, p.HasLeaf := by
  constructor
  · rintro ⟨n, hn, hleaf⟩
    cases hn with
    | itself => cases hleaf
    | member hp h => exact ⟨_, hp, n, h, hleaf⟩
  · rintro ⟨p, hp, n, hn, hleaf⟩
    exact ⟨n, .member hp hn, hleaf⟩

/-- A condition is empty when it has no leaf at any depth. -/
theorem isEmpty_eq_false_iff (p : Predicate) : p.isEmpty = false ↔ p.HasLeaf := by
  induction p using treeInduction with
  | group k members ih =>
    rw [isEmpty_group, hasLeaf_group_iff, List.all_eq_false]
    refine exists_congr fun p => and_congr_right fun hp => ?_
    rw [← ih p hp, Bool.not_eq_true]
  | _ => exact ⟨fun _ => hasLeaf_of_isLeaf rfl, fun _ => rfl⟩

instance (p : Predicate) : Decidable p.HasLeaf := decidable_of_iff _ p.isEmpty_eq_false_iff

theorem hasLeaf_negate_iff (p : Predicate) : p.negate.HasLeaf ↔ p.HasLeaf := by
  rw [← isEmpty_eq_false_iff, ← isEmpty_eq_false_iff, isEmpty_negate]

/-- The members with a leaf are those that are written. -/
theorem inhabited_eq_filter (ps : List Predicate) :
    inhabited ps = ps.filter fun p => p.HasLeaf := by
  refine List.filter_congr fun p _ => ?_
  rw [Bool.eq_iff_iff, Bool.not_eq_true', decide_eq_true_iff, isEmpty_eq_false_iff]

/-! ## Guarded texts -/

section

variable {d : Dialect} {ms : Mappings} {content : Nat → String}

/-- What is written for a condition with a leaf, where each operand of a connective is written so
    for a member with a leaf, one for each of them. The conditions of sub selects are not looked
    into. -/
inductive IsGuarded (d : Dialect) (ms : Mappings) (content : Nat → String) :
    Predicate → String → Prop where
  /-- A leaf, with `i` as the number of its first operand. -/
  | leaf {p : Predicate} (i : Nat) (h : p.isLeaf = true) :
      IsGuarded d ms content p ((p.rendering d ms i).fill content)
  /-- The members of a group that have a leaf, with what is written for each. -/
  | group (k : Connective) {members : List Predicate} {parts : List (Predicate × String)}
      (hne : parts ≠ []) (hmembers : parts.map (·.1) = members.filter fun p => p.HasLeaf)
      (hparts : ∀ part ∈ parts, IsGuarded d ms content part.1 part.2) :
      IsGuarded d ms content (.group k members)
        ("(" ++ k.sql.intercalate (parts.map (·.2)) ++ ")")

theorem IsGuarded.hasLeaf {p : Predicate} {text : String} (h : p.IsGuarded d ms content text) :
    p.HasLeaf := by
  cases h with
  | leaf i h => exact hasLeaf_of_isLeaf h
  | group k hne hmembers hparts =>
    obtain ⟨part, hpart⟩ := List.exists_mem_of_ne_nil _ hne
    have hmem := List.mem_map_of_mem (f := (·.1)) hpart
    rw [hmembers, List.mem_filter, decide_eq_true_iff] at hmem
    exact (hasLeaf_group_iff k _).mpr ⟨part.1, hmem⟩

/-- Every leaf is written in parentheses. -/
theorem rendering_of_isLeaf (d : Dialect) (ms : Mappings) (i : Nat) {p : Predicate}
    (h : p.isLeaf = true) : ∃ s rest, p.rendering d ms i = .text ("(" ++ s) :: rest := by
  cases p with
  | field c op v negated =>
    cases v with
    | list items =>
      cases items with
      | nil =>
        cases negated
        · exact ⟨"1=0)", [], rfl⟩
        · exact ⟨"1=1)", [], rfl⟩
      | cons v items => exact ⟨"", _, rfl⟩
    | _ => exact ⟨"", _, rfl⟩
  | property c op other negated => exact ⟨"", _, rfl⟩
  | between c low high negated => exact ⟨"", _, rfl⟩
  | group k members => cases h
  | anyRow e q negated =>
    cases negated
    · exact ⟨"EXISTS (SELECT 1 FROM ", _, rfl⟩
    · exact ⟨"NOT EXISTS (SELECT 1 FROM ", _, rfl⟩

/-- No operand is the condition that is always true. -/
theorem IsGuarded.ne_everything (hd : d ∈ Dialect.all.map (·.2)) {p : Predicate} {text : String}
    (h : p.IsGuarded d ms content text) : text ≠ d.everything := by
  have hopen : ∃ rest, text = "(" ++ rest := by
    cases h with
    | leaf i h =>
      obtain ⟨s, rest, hs⟩ := rendering_of_isLeaf d ms i h
      rw [hs, Layout.fill_text, String.append_assoc]
      exact ⟨_, rfl⟩
    | group k hne hmembers hparts => exact ⟨_, String.append_assoc⟩
  have heverything : d.everything = "1=1" := by
    have hall : ∀ d ∈ Dialect.all.map (·.2), d.everything = "1=1" := by
      simp [Dialect.all, Dialect.generic, Dialect.postgres, Dialect.sqlite, Dialect.mysql,
        Dialect.mssql, Dialect.mssqlRowNumber]
    exact hall d hd
  obtain ⟨rest, rfl⟩ := hopen
  rw [heverything]
  intro h
  have hchars := congrArg String.toList h
  rw [String.toList_append] at hchars
  cases hchars

/-- The members of a group that are written, beside their texts. -/
theorem exists_memberParts (d : Dialect) (ms : Mappings) (content : Nat → String)
    {members : List Predicate}
    (h : ∀ p ∈ members, ∀ i, p.HasLeaf →
      p.IsGuarded d ms content ((p.rendering d ms i).fill content)) (i : Nat) :
    ∃ parts : List (Predicate × String), parts.map (·.1) = inhabited members ∧
      parts.map (·.2) = (memberRenderings d ms i members).map (Layout.fill content) ∧
      ∀ part ∈ parts, part.1.IsGuarded d ms content part.2 := by
  induction members generalizing i with
  | nil => exact ⟨[], rfl, rfl, fun part hpart => absurd hpart List.not_mem_nil⟩
  | cons p ps ih =>
    have hps := fun q hq => h q (List.mem_cons_of_mem p hq)
    rw [memberRenderings]
    cases hp : p.isEmpty with
    | true =>
      obtain ⟨parts, hmembers, htexts, hparts⟩ := ih hps i
      refine ⟨parts, ?_, htexts, hparts⟩
      rw [hmembers]
      simp [inhabited, hp]
    | false =>
      obtain ⟨parts, hmembers, htexts, hparts⟩ := ih hps (i + p.operands.length)
      have hfirst := h p List.mem_cons_self i (p.isEmpty_eq_false_iff.mp hp)
      refine ⟨(p, (p.rendering d ms i).fill content) :: parts, ?_, ?_, ?_⟩
      · rw [List.map_cons, hmembers]
        simp [inhabited, hp]
      · rw [List.map_cons, htexts]
        rfl
      · intro part hpart
        rcases List.mem_cons.mp hpart with rfl | hpart
        · exact hfirst
        · exact hparts part hpart

theorem fill_groupRendering (d : Dialect) (content : Nat → String) (k : Connective)
    {ls : List Layout} (h : ls ≠ []) :
    (groupRendering d k ls).fill content =
      "(" ++ k.sql.intercalate (ls.map (Layout.fill content)) ++ ")" := by
  cases ls with
  | nil => exact absurd rfl h
  | cons l ls =>
    unfold groupRendering
    rw [Layout.fill_append, Layout.fill_append, Layout.fill_joined_eq_intercalate]
    rfl

/-- What is written for a condition with a leaf is guarded. -/
theorem isGuarded_rendering (d : Dialect) (ms : Mappings) (content : Nat → String) (i : Nat)
    {p : Predicate} (h : p.HasLeaf) :
    p.IsGuarded d ms content ((p.rendering d ms i).fill content) := by
  induction p using treeInduction generalizing i with
  | group k members ih =>
    obtain ⟨parts, hmembers, htexts, hparts⟩ := exists_memberParts d ms content ih i
    have hne : parts ≠ [] := by
      obtain ⟨p, hp, hleaf⟩ := (hasLeaf_group_iff k members).mp h
      have hmem : p ∈ inhabited members :=
        mem_inhabited.mpr ⟨hp, p.isEmpty_eq_false_iff.mpr hleaf⟩
      rintro rfl
      rw [← hmembers] at hmem
      exact absurd hmem List.not_mem_nil
    have hrenderings : memberRenderings d ms i members ≠ [] := by
      intro hnil
      rw [hnil, List.map_nil, List.map_eq_nil_iff] at htexts
      exact hne htexts
    rw [rendering, fill_groupRendering d content k hrenderings, ← htexts]
    rw [inhabited_eq_filter] at hmembers
    exact .group k hne hmembers hparts
  | _ => exact .leaf i rfl

end

/-! ## The reasons of a condition -/

theorem mem_joined {f : Fragment} {separator : String} {parts : List (List Fragment)}
    (h : f ∈ Fragment.joined separator parts) : f = .text separator ∨ ∃ fs ∈ parts, f ∈ fs := by
  unfold Fragment.joined at h
  induction parts with
  | nil => cases h
  | cons fs parts ih =>
    cases parts with
    | nil =>
      rw [List.intercalate_singleton] at h
      exact .inr ⟨fs, List.mem_cons_self, h⟩
    | cons gs parts =>
      rw [List.intercalate_cons_cons, List.mem_append, List.mem_append, List.mem_singleton] at h
      rcases h with (h | h) | h
      · exact .inr ⟨fs, List.mem_cons_self, h⟩
      · exact .inl h
      · rcases ih h with h | ⟨hs, hhs, h⟩
        · exact .inl h
        · exact .inr ⟨hs, List.mem_cons_of_mem fs hhs, h⟩

/-- The only fragments of a condition that fail by themselves are comparisons with a list. -/
theorem eq_listOperator_of_refuse_mem {p : Predicate} {q : QueryError}
    (h : Fragment.refuse q ∈ p.fragments) : q = .listOperator := by
  induction p using treeInduction with
  | field c op v negated =>
    cases v with
    | list items =>
      rw [fragments, fieldFragments] at h
      by_cases hop : op = .eq
      · rw [if_pos hop] at h
        cases items with
        | nil => simp [listFragments] at h
        | cons v items =>
          simp only [listFragments, List.mem_append, List.mem_cons, reduceCtorEq,
            List.not_mem_nil, or_false, false_or] at h
          rcases mem_joined h with h | ⟨fs, hfs, h⟩
          · cases h
          · obtain ⟨v, -, rfl⟩ := List.mem_map.mp hfs
            simp at h
      · simpa [if_neg hop] using h
    | _ => simp [fragments, fieldFragments] at h
  | property c op other negated => simp [fragments] at h
  | between c low high negated => simp [fragments] at h
  | group k members ih =>
    rw [fragments, memberFragments_eq_map] at h
    cases hmembers : inhabited members with
    | nil => simp [hmembers, groupFragments] at h
    | cons p ps =>
      rw [hmembers] at h
      simp only [List.map_cons, groupFragments, List.mem_append, List.mem_cons, reduceCtorEq,
        List.not_mem_nil, or_false, false_or] at h
      rcases mem_joined h with h | ⟨fs, hfs, h⟩
      · cases h
      · rw [← List.map_cons, ← hmembers] at hfs
        obtain ⟨p', hp', rfl⟩ := List.mem_map.mp hfs
        exact ih p' (mem_inhabited.mp hp').1 h
  | anyRow e p negated ih =>
    simp only [fragments, List.mem_append, List.mem_cons, reduceCtorEq, List.not_mem_nil, or_false,
      false_or] at h
    exact ih h

end Predicate

/-! ## Reasons of other checks -/

/-- The reason for the refusal of a deletion without a condition. -/
def Error.isEmptyPredicate : Error → Bool
  | .query (.emptyPredicate _) => true
  | _ => false

/-- No failure is the refusal of a deletion without a condition. -/
def SparesDeletion {α : Type} (r : Except Error α) : Prop :=
  ∀ cause, r = .error cause → cause.isEmptyPredicate = false

namespace SparesDeletion

theorem ok {α : Type} (x : α) : SparesDeletion (.ok x) := fun _ h => by cases h

theorem error {α : Type} {cause : Error} (h : cause.isEmptyPredicate = false) :
    SparesDeletion (.error cause : Except Error α) := by
  intro cause' hcause
  cases hcause
  exact h

theorem ne {α : Type} {r : Except Error α} (h : SparesDeletion r) (name : String) :
    r ≠ .error (.query (.emptyPredicate name)) := by
  intro hr
  have hcause := h _ hr
  cases hcause

theorem map {α β : Type} {r : Except Error α} (h : SparesDeletion r) (f : α → β) :
    SparesDeletion (r.map f) := by
  cases r with
  | error cause => exact error (h cause rfl)
  | ok x => exact ok (f x)

variable (s : Setting) (c : Catalog)

theorem mappings (e : EntityType) : SparesDeletion (s.mappings c e) := by
  unfold Setting.mappings
  cases c.mapping? e with
  | some m => exact ok m
  | none =>
    cases (s.model e).table.isEmpty with
    | true => exact error rfl
    | false => exact ok _

theorem column (r : ColumnRef) : SparesDeletion ((s.mappings c).column r) := by
  have hmapping := mappings s c r.entity
  unfold Mappings.column
  cases hm : s.mappings c r.entity with
  | error cause =>
    rw [hm] at hmapping
    exact error (hmapping cause rfl)
  | ok m =>
    dsimp only
    unfold Mapping.mapped Mapping.property
    cases m.property? r.property with
    | none => exact error rfl
    | some p =>
      dsimp only
      cases p.ignored with
      | true => exact error rfl
      | false => exact ok _

/-- A condition that cannot be written is not refused for being empty. -/
theorem plan? (d : Dialect) (p : Predicate) : SparesDeletion (p.plan? d (s.mappings c)) := by
  have hcheck : ∀ f ∈ p.fragments, SparesDeletion (f.check (s.mappings c)) := by
    intro f hf
    cases f with
    | column r => exact (column s c r).map _
    | lookUp r => exact (column s c r).map _
    | resolve e => exact (mappings s c e).map _
    | table e => exact (mappings s c e).map _
    | refuse q =>
      obtain rfl := Predicate.eq_listOperator_of_refuse_mem hf
      exact error rfl
    | _ => exact ok ()
  refine SparesDeletion.map ?_ _
  generalize p.fragments = fs at hcheck
  induction fs with
  | nil => exact ok ()
  | cons f fs ih =>
    have hf := hcheck f List.mem_cons_self
    rw [Fragment.checkAll]
    cases hc : f.check (s.mappings c) with
    | error cause =>
      rw [hc] at hf
      exact error (hf cause rfl)
    | ok u => exact ih fun g hg => hcheck g (List.mem_cons_of_mem f hg)

end SparesDeletion

/-! ## Deletions -/

/-- There is a mapping, but no condition with a leaf. -/
def Setting.LacksLeaf (s : Setting) (c : Catalog) (e : EntityType) (p : Option Predicate) : Prop :=
  (∃ m, s.mappings c e = .ok m) ∧ ∀ q ∈ p, ¬ q.HasLeaf

/-- The text deletes the rows of a table that meet a condition with a leaf, and what is written for
    the condition is guarded. -/
def Setting.IsGuardedDeletion (s : Setting) (c : Catalog) (e : EntityType) (p : Option Predicate)
    (names : List String) (sql : String) : Prop :=
  ∃ m q text, s.mappings c e = .ok m ∧ p = some q ∧ q.HasLeaf ∧
    sql = "DELETE FROM " ++ s.dialect.tableName m ++ " WHERE " ++ text ∧
    q.IsGuarded s.dialect (s.mappings c) (s.dialect.placeholders names) text

section

variable {s : Setting} {c : Catalog} {e : EntityType} {p : Option Predicate}

theorem filter_eq_none_of_lacks (h : ∀ q ∈ p, ¬ q.HasLeaf) : p.filter (!·.isEmpty) = none := by
  rw [Option.filter_eq_none_iff]
  intro q hq hne
  have hleaf := q.isEmpty_eq_false_iff.mp (by simpa using hne)
  exact h q hq hleaf

theorem Setting.lacksLeaf_negate_iff (s : Setting) (c : Catalog) (e : EntityType)
    (p : Option Predicate) : s.LacksLeaf c e (p.map Predicate.negate) ↔ s.LacksLeaf c e p := by
  refine and_congr_right fun _ => ?_
  cases p with
  | none => exact Iff.rfl
  | some q => simp [Predicate.hasLeaf_negate_iff]

/-- A deletion is refused for want of a condition when there is no leaf, and then only. -/
theorem deletionPlan_eq_emptyPredicate_iff :
    (∃ name, deletionPlan s.dialect (s.view c) e p = .error (.query (.emptyPredicate name))) ↔
      s.LacksLeaf c e p := by
  unfold deletionPlan
  change (∃ name, (s.mappings c e >>= _) = _) ↔ _
  constructor
  · rintro ⟨name, hplan⟩
    cases hm : s.mappings c e with
    | error cause =>
      rw [hm] at hplan
      cases hplan
      exact absurd hm ((SparesDeletion.mappings s c e).ne name)
    | ok m =>
      rw [hm] at hplan
      dsimp only [bind, Except.bind] at hplan
      refine ⟨⟨m, hm⟩, fun q hq hleaf => ?_⟩
      obtain rfl := Option.mem_def.mp hq
      rw [Option.filter_some, q.isEmpty_eq_false_iff.mpr hleaf] at hplan
      change (q.plan? s.dialect (s.mappings c)).bind _ = _ at hplan
      cases hq : q.plan? s.dialect (s.mappings c) with
      | error cause =>
        rw [hq] at hplan
        cases hplan
        exact absurd hq ((SparesDeletion.plan? s c s.dialect q).ne name)
      | ok plan =>
        rw [hq] at hplan
        cases hplan
  · rintro ⟨⟨m, hm⟩, h⟩
    rw [hm, filter_eq_none_of_lacks h]
    exact ⟨m.entity, rfl⟩

/-- The text of a deletion, with something in each place. -/
theorem isGuardedDeletion_of_deletionPlan {plan : Plan} (names : List String)
    (h : deletionPlan s.dialect (s.view c) e p = .ok plan) :
    s.IsGuardedDeletion c e p names (plan.layout.fill (s.dialect.placeholders names)) := by
  obtain ⟨m, hm, h⟩ := bind_eq_ok_iff.mp h
  cases hp : p.filter (!·.isEmpty) with
  | none =>
    rw [hp] at h
    cases h
  | some q =>
    rw [hp] at h
    obtain ⟨x, hx, h⟩ := bind_eq_ok_iff.mp h
    cases h
    obtain ⟨-, rfl⟩ := (q.plan?_eq_ok_iff s.dialect _ x).mp hx
    obtain ⟨rfl, hne⟩ := Option.filter_eq_some_iff.mp hp
    have hleaf := q.isEmpty_eq_false_iff.mp (by simpa using hne)
    refine ⟨m, q, _, hm, rfl, hleaf, ?_, q.isGuarded_rendering s.dialect _ _ 0 hleaf⟩
    simp only [Layout.fill_append, Layout.fill_text, Layout.fill_nil, String.append_empty,
      String.append_assoc]
    rfl

/-- A refused deletion leaves the parameters as they are. -/
theorem Work.deleteWhere_of_lacks (w : Workspace) (h : s.LacksLeaf w.catalog e p) :
    ∃ m w', s.mappings w.catalog e = .ok m ∧
      Work.deleteWhere s e p w = .error (.query (.emptyPredicate m.entity)) w' ∧
      w'.parameters = w.parameters := by
  obtain ⟨⟨m, hm⟩, hp⟩ := h
  obtain ⟨w₁, hw₁, -, hparameters⟩ := Work.answers_mapping s e w
  rw [show (s.view w.catalog).mapping e = .ok m from hm] at hw₁
  unfold Work.deleteWhere
  rw [bind_run, hw₁, filter_eq_none_of_lacks hp]
  exact ⟨m, _, hm, rfl, hparameters⟩

end

/-- A deletion by condition needs a leaf. Without one it is refused and nothing is sent; with one
    the condition that is sent is guarded. -/
structure Database.GuardsDeletion {σ : Type} (db : Database σ) (e : EntityType)
    (p : Option Predicate) : Prop where
  /-- The text is refused when there is no leaf, and only then. -/
  refused : ∀ w, (∃ name w', Work.deleteWhere db.setting e p w =
    .error (.query (.emptyPredicate name)) w') ↔ db.setting.LacksLeaf w.catalog e p
  /-- The refusal leaves the parameters as they are. -/
  untouched : ∀ w name w', Work.deleteWhere db.setting e p w =
    .error (.query (.emptyPredicate name)) w' → w'.parameters = w.parameters
  /-- A text that is written is guarded, behind any parameters. -/
  written : ∀ w sql w', Work.deleteWhere db.setting e p w = .ok sql w' →
    ∃ names, w'.parameters.names = w.parameters.names ++ names ∧
      db.setting.IsGuardedDeletion w.catalog e p names sql
  /-- The call is refused and hands nothing over when there is no leaf, and only then. -/
  unsent : ∀ a : Session (σ × List Request), (∃ name w, db.watched.deleteWhere e p a =
    .error (.query (.emptyPredicate name)) { a with workspace := w }) ↔
      db.setting.LacksLeaf a.workspace.catalog e p
  /-- What the call hands over is guarded. -/
  sent : ∀ a : Session (σ × List Request), ∃ requests,
    (lastState (db.watched.deleteWhere e p a)).executor.2 = a.executor.2 ++ requests ∧
      requests.length ≤ 1 ∧ ∀ r ∈ requests, db.setting.IsGuardedDeletion a.workspace.catalog e p
        r.statement.parameters.names r.statement.sql

namespace Database

variable {σ : Type} (db : Database σ) (e : EntityType) (p : Option Predicate)

theorem deleteWhere_eq_emptyPredicate_iff (w : Workspace) :
    (∃ name w', Work.deleteWhere db.setting e p w = .error (.query (.emptyPredicate name)) w') ↔
      db.setting.LacksLeaf w.catalog e p := by
  rw [← deletionPlan_eq_emptyPredicate_iff]
  obtain ⟨w₁, hw₁, -, -⟩ := Work.deleteWhere_follows db.setting e p w
  rw [hw₁]
  cases hplan : deletionPlan db.setting.dialect (db.setting.view w.catalog) e p with
  | ok plan =>
    constructor
    · rintro ⟨name, w', h⟩
      cases h
    · rintro ⟨name, h⟩
      cases h
  | error cause =>
    constructor
    · rintro ⟨name, w', h⟩
      cases h
      exact ⟨name, rfl⟩
    · rintro ⟨name, h⟩
      cases h
      exact ⟨name, w₁, rfl⟩

/-- A deletion that has no plan is not handed over. -/
theorem deleteWhere_of_error (a : Session (σ × List Request)) {cause : Error}
    (h : deletionPlan db.setting.dialect (db.setting.view a.workspace.catalog) e p =
      .error cause) :
    ∃ w, db.watched.deleteWhere e p a = .error cause { a with workspace := w } := by
  have hcall := (db.watched.sendsOnce_deleteWhere a e p).handsOver
  have hchecked : Exchange.deleteWhere db.setting a.workspace.catalog e p = .error cause := by
    rw [Exchange.deleteWhere, h]
    rfl
  exact (hcall.refused cause hchecked).2

/-- The statement of a deletion that has a plan is handed over, whatever comes of it. -/
theorem deleteWhere_of_ok (a : Session (σ × List Request)) {plan : Plan}
    (h : deletionPlan db.setting.dialect (db.setting.view a.workspace.catalog) e p = .ok plan) :
    ∃ (r : Except Error Bool) (w : Workspace) (x : σ), db.watched.deleteWhere e p a =
      ended r ⟨w, a.drawn, x, a.executor.2 ++ [.count (plan.statement db.setting.dialect)]⟩ := by
  have hcall := (db.watched.sendsOnce_deleteWhere a e p).handsOver
  have hchecked : Exchange.deleteWhere db.setting a.workspace.catalog e p =
      .ok (.count (plan.statement db.setting.dialect) fun rows => .ok (rows > 0)) := by
    rw [Exchange.deleteWhere, h]
    rfl
  obtain ⟨w, hw⟩ := hcall.sent _ hchecked
  exact ⟨_, w, _, hw⟩

theorem guardsDeletion : db.GuardsDeletion e p := by
  have hrefused := db.deleteWhere_eq_emptyPredicate_iff e p
  refine ⟨hrefused, ?_, ?_, ?_, ?_⟩
  · intro w name w' hw
    obtain ⟨m, w₁, -, hw₁, hparameters⟩ :=
      Work.deleteWhere_of_lacks w ((hrefused w).mp ⟨name, w', hw⟩)
    rw [hw] at hw₁
    cases hw₁
    exact hparameters
  · intro w sql w' hw
    have hfollows := Work.deleteWhere_follows db.setting e p w
    cases hplan : deletionPlan db.setting.dialect (db.setting.view w.catalog) e p with
    | error cause =>
      obtain ⟨w₁, hw₁, -, -⟩ := hfollows
      rw [hw, hplan] at hw₁
      cases hw₁
    | ok plan =>
      obtain ⟨rfl, hparameters⟩ := hfollows.of_ok hplan hw
      refine ⟨w.parameters.newNames (db.setting.dialect.bound plan.operands), ?_, ?_⟩
      · rw [hparameters, Plan.parameters, Parameters.names_bindAll]
      · exact isGuardedDeletion_of_deletionPlan _ hplan
  · intro a
    rw [← deletionPlan_eq_emptyPredicate_iff]
    constructor
    · rintro ⟨name, w, hcall⟩
      cases hplan : deletionPlan db.setting.dialect (db.setting.view a.workspace.catalog) e p with
      | error cause =>
        obtain ⟨w₁, hw₁⟩ := db.deleteWhere_of_error e p a hplan
        rw [hw₁] at hcall
        cases hcall
        exact ⟨name, rfl⟩
      | ok plan =>
        obtain ⟨r, w₁, x, hw₁⟩ := db.deleteWhere_of_ok e p a hplan
        -- the list of requests would be longer than it is
        have hend := congrArg lastState (hw₁.symm.trans hcall)
        rw [lastState_ended] at hend
        have hlength := congrArg (fun b => b.executor.2.length) hend
        simp [lastState] at hlength
    · rintro ⟨name, hplan⟩
      exact ⟨name, db.deleteWhere_of_error e p a hplan⟩
  · intro a
    cases hplan : deletionPlan db.setting.dialect (db.setting.view a.workspace.catalog) e p with
    | error cause =>
      obtain ⟨w, hw⟩ := db.deleteWhere_of_error e p a hplan
      refine ⟨[], ?_, Nat.zero_le 1, fun r hr => absurd hr List.not_mem_nil⟩
      rw [hw, List.append_nil]
      rfl
    | ok plan =>
      obtain ⟨r, w, x, hw⟩ := db.deleteWhere_of_ok e p a hplan
      refine ⟨[.count (plan.statement db.setting.dialect)], ?_, Nat.le_refl 1, fun r hr => ?_⟩
      · rw [hw, lastState_ended]
      · obtain rfl := List.mem_singleton.mp hr
        have hnames := plan.names_parameters db.setting.dialect
        change db.setting.IsGuardedDeletion _ e p (plan.parameters db.setting.dialect {}).names
          (plan.text db.setting.dialect {})
        rw [hnames]
        exact isGuardedDeletion_of_deletionPlan _ hplan

end Database

/-- For every dialect, entity, condition and executor: a deletion is refused, with the parameters
    as they are and nothing handed over, exactly when there is a mapping and no condition with a
    leaf; and in every deletion that is sent each operand of a connective outside of sub selects is
    what is written for a node with a leaf, and never the condition that is always true. The
    opposite of a condition is refused when the condition is. -/
theorem deletions_are_guarded {σ : Type} (db : Database σ)
    (hd : db.setting.dialect ∈ Dialect.all.map (·.2)) (e : EntityType) (p : Option Predicate) :
    db.GuardsDeletion e p ∧ db.GuardsDeletion e (p.map Predicate.negate) ∧
      (∀ c, db.setting.LacksLeaf c e (p.map Predicate.negate) ↔ db.setting.LacksLeaf c e p) ∧
      ∀ ms content q text, Predicate.IsGuarded db.setting.dialect ms content q text →
        q.HasLeaf ∧ text ≠ db.setting.dialect.everything := by
  refine ⟨db.guardsDeletion e p, db.guardsDeletion e _, ?_, ?_⟩
  · intro c
    exact db.setting.lacksLeaf_negate_iff c e p
  · intro ms content q text h
    exact ⟨h.hasLeaf, h.ne_everything hd⟩

/-! ## A sample -/

namespace Samples

/-- A condition with groups that hold nothing beside a comparison and a test for rows whose own
    condition holds nothing. -/
def halfEmpty : Predicate :=
  .group .and
    [.group .or [], .group .or [.group .and [], .field age .eq .null true],
     .anyRow ⟨"Person"⟩ (.group .and []) false]

/-- Groups of groups, and no comparison. -/
def hollow : Predicate := .group .and [.group .or [], .group .or [.group .and []]]

/-- People in a database that records what it is sent. -/
def peopleDatabase : Database Recorder := ⟨people, IdentifierSource.scattered, Recorder.executor⟩

theorem lacksLeaf_hollow : people.LacksLeaf {} ⟨"Person"⟩ (some hollow) := by
  refine ⟨⟨_, rfl⟩, fun q hq => ?_⟩
  obtain rfl := Option.some.inj hq
  decide

end Samples

/-- A condition that holds something beside empty groups is written, and the opposite of one that
    holds nothing is refused. -/
theorem deletions_are_guarded_people :
    (∃ sql w names, Work.deleteWhere Samples.people ⟨"Person"⟩ (some Samples.halfEmpty) {} =
        .ok sql w ∧
      Samples.people.IsGuardedDeletion {} ⟨"Person"⟩ (some Samples.halfEmpty) names sql) ∧
    ∃ name w, Work.deleteWhere Samples.people ⟨"Person"⟩ (some Samples.hollow.negate) {} =
      .error (.query (.emptyPredicate name)) w := by
  constructor
  · obtain ⟨hguards, -, -, -⟩ := deletions_are_guarded Samples.peopleDatabase
      Samples.dialect_mem_all ⟨"Person"⟩ (some Samples.halfEmpty)
    obtain ⟨sql, w, hw⟩ := (Work.deleteWhere_follows Samples.people ⟨"Person"⟩
      (some Samples.halfEmpty) {}).succeeds (by decide +kernel)
    obtain ⟨names, -, hsql⟩ := hguards.written {} sql w hw
    exact ⟨sql, w, names, hw, hsql⟩
  · obtain ⟨-, hguards, hlacks, -⟩ := deletions_are_guarded Samples.peopleDatabase
      Samples.dialect_mem_all ⟨"Person"⟩ (some Samples.hollow)
    exact (hguards.refused {}).mpr ((hlacks {}).mpr Samples.lacksLeaf_hollow)

end EntitySql
