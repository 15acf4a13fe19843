/-
  Conditions are refused for their first fault.

  A node of a condition has a fault of its own when an entity has no table, a property is not
  mapped or has no column, or a list is compared otherwise than by equality (`Predicate.fault?`).
  What is written for a condition fails for the first fault among its nodes, each node coming
  before those below it and these from left to right (`findSome?_fragments`), by induction over
  the tree: members that are left out have no fault, and what is resolved twice fails the first
  time. Dialect, parameters and operands have no part in it.
-/
import EntitySql.Proofs.GuardedDeletions
import EntitySql.Proofs.SoundCatalogs

namespace EntitySql

/-! ## Faults of names -/

/-- Why a property cannot be named: it is not mapped, or it has no column. -/
def Mapping.propertyFault? (m : Mapping) (name : String) : Option QueryError :=
  match m.property? name with
  | none => some (.unknownProperty m.entity name)
  | some p => if p.ignored then some (.ignoredProperty m.entity name) else none

namespace Model

/-- Why an entity type cannot be named: it has no table. -/
def entityFault? (defs : Model) (e : EntityType) : Option QueryError :=
  if (defs e).table.isEmpty then some (.unknownEntity e.name) else none

/-- Why a column cannot be named, the entity being looked at before the property. -/
def columnFault? (defs : Model) (c : ColumnRef) : Option QueryError :=
  (defs.entityFault? c.entity).or ((defs c.entity).propertyFault? c.property)

/-- The entity type has a table. -/
def HasTable (defs : Model) (e : EntityType) : Prop := (defs e).table.isEmpty = false

/-- The column is that of a mapped property, whose entity has a table. -/
def HasColumn (defs : Model) (c : ColumnRef) : Prop :=
  defs.HasTable c.entity ∧
    ∃ p, (defs c.entity).property? c.property = some p ∧ p.ignored = false

theorem entityFault?_eq_none_iff (defs : Model) (e : EntityType) :
    defs.entityFault? e = none ↔ defs.HasTable e := by
  unfold entityFault? HasTable
  cases (defs e).table.isEmpty <;> simp

theorem columnFault?_eq_none_iff (defs : Model) (c : ColumnRef) :
    defs.columnFault? c = none ↔ defs.HasColumn c := by
  unfold columnFault? HasColumn
  rw [Option.or_eq_none_iff, entityFault?_eq_none_iff]
  refine and_congr_right fun _ => ?_
  unfold Mapping.propertyFault?
  cases (defs c.entity).property? c.property with
  | none => simp
  | some p => cases hp : p.ignored <;> simp [hp]

end Model

/-- Success without a fault, and failure with one. -/
def verdict : Option QueryError → Except Error Unit
  | none => .ok ()
  | some fault => .error (.query fault)

namespace Catalog

variable {s : Setting} {c : Catalog}

/-- With a sound catalog an entity type is resolved unless its definition has no table. -/
theorem IsSound.mapping_verdict (h : c.IsSound s.dialect) (e : EntityType) :
    ((s.mappings c e).map fun _ => ()) =
      verdict ((c.definitions s.model).entityFault? e) := by
  have hmappings := mappings_definitions h s.model e
  rw [Setting.mappings_empty] at hmappings
  rw [← hmappings]
  unfold Model.entityFault?
  cases (c.definitions s.model e).table.isEmpty <;> rfl

/-- With a sound catalog a column is resolved unless its name has a fault. -/
theorem IsSound.column_verdict (h : c.IsSound s.dialect) (x : ColumnRef) :
    ((Mappings.column (s.mappings c) x).map fun _ => ()) =
      verdict ((c.definitions s.model).columnFault? x) := by
  have hmapping := h.mapping_verdict x.entity
  unfold Mappings.column Model.columnFault?
  cases hm : s.mappings c x.entity with
  | error cause =>
    rw [hm] at hmapping
    cases hfault : (c.definitions s.model).entityFault? x.entity with
    | none =>
      rw [hfault] at hmapping
      cases hmapping
    | some fault =>
      rw [hfault] at hmapping
      exact hmapping
  | ok m =>
    obtain rfl := Setting.eq_definitions_of_mappings hm
    rw [hm] at hmapping
    cases hfault : (c.definitions s.model).entityFault? x.entity with
    | some fault =>
      rw [hfault] at hmapping
      cases hmapping
    | none =>
      dsimp only [Option.none_or]
      unfold Mapping.mapped Mapping.property Mapping.propertyFault?
      cases hq : (c.definitions s.model x.entity).property? x.property with
      | none => rfl
      | some p =>
        dsimp only
        cases p.ignored <;> rfl

end Catalog

/-! ## Faults of fragments -/

namespace Fragment

/-- Why a fragment cannot be written. -/
def fault? (defs : Model) : Fragment → Option QueryError
  | .column c => defs.columnFault? c
  | .lookUp c => defs.columnFault? c
  | .resolve e => defs.entityFault? e
  | .table e => defs.entityFault? e
  | .refuse fault => some fault
  | _ => none

/-- Fragments fail for the first of their faults. -/
theorem checkAll_eq_verdict {s : Setting} {c : Catalog} (h : c.IsSound s.dialect)
    (fs : List Fragment) :
    checkAll (s.mappings c) fs = verdict (fs.findSome? (fault? (c.definitions s.model))) := by
  have hcheck (f : Fragment) :
      f.check (s.mappings c) = verdict (f.fault? (c.definitions s.model)) := by
    cases f with
    | column x => exact h.column_verdict x
    | lookUp x => exact h.column_verdict x
    | resolve e => exact h.mapping_verdict e
    | table e => exact h.mapping_verdict e
    | _ => rfl
  induction fs with
  | nil => rfl
  | cons f fs ih =>
    rw [checkAll, hcheck, List.findSome?_cons, ih]
    cases f.fault? (c.definitions s.model) <;> rfl

/-- A separator has no fault. -/
theorem findSome?_joined (defs : Model) (separator : String) (parts : List (List Fragment)) :
    (joined separator parts).findSome? (fault? defs) =
      parts.findSome? fun fs => fs.findSome? (fault? defs) := by
  unfold joined
  induction parts with
  | nil => rfl
  | cons fs parts ih =>
    cases parts with
    | nil => simp [List.intercalate_singleton]
    | cons gs parts =>
      rw [List.intercalate_cons_cons, List.findSome?_append, List.findSome?_append, ih,
        List.findSome?_cons (a := fs)]
      cases fs.findSome? (fault? defs) <;> rfl

end Fragment

/-! ## Faults of conditions -/

namespace Predicate

mutual

/-- The nodes of a condition, each before those below it and these from left to right. -/
def nodes : Predicate → List Predicate
  | .group k members => .group k members :: allNodes members
  | .anyRow e p negated => .anyRow e p negated :: p.nodes
  | .field c op v negated => [.field c op v negated]
  | .property c op other negated => [.property c op other negated]
  | .between c low high negated => [.between c low high negated]

/-- The nodes of several conditions, from left to right. -/
def allNodes : List Predicate → List Predicate
  | [] => []
  | p :: ps => p.nodes ++ allNodes ps

end

theorem allNodes_eq_flatMap (ps : List Predicate) : allNodes ps = ps.flatMap nodes := by
  induction ps with
  | nil => rfl
  | cons p ps ih => rw [allNodes, ih, List.flatMap_cons]

/-- The list holds every node. -/
theorem mem_nodes_iff {p n : Predicate} : n ∈ p.nodes ↔ p.HasNode n := by
  constructor
  · intro h
    induction p using treeInduction with
    | group k members ih =>
      rw [nodes, List.mem_cons, allNodes_eq_flatMap, List.mem_flatMap] at h
      rcases h with rfl | ⟨q, hq, hn⟩
      · exact .itself _
      · exact .member hq (ih q hq hn)
    | anyRow e p negated ih =>
      rw [nodes, List.mem_cons] at h
      rcases h with rfl | hn
      · exact .itself _
      · exact .row (ih hn)
    | _ =>
      obtain rfl := List.mem_singleton.mp h
      exact .itself _
  · intro h
    induction h with
    | itself p => cases p <;> simp [nodes]
    | @member k members p n hp _ ih =>
      rw [nodes, allNodes_eq_flatMap]
      exact List.mem_cons_of_mem _ (List.mem_flatMap.mpr ⟨p, hp, ih⟩)
    | row _ ih =>
      rw [nodes]
      exact List.mem_cons_of_mem _ ih

/-- Why a node cannot be written, whatever is below it: of a list the operator is looked at
    first, and of two columns the left one. -/
def fault? (defs : Model) : Predicate → Option QueryError
  | .field c op v _ =>
    if v.isList = true ∧ op ≠ .eq then some .listOperator else defs.columnFault? c
  | .property c _ other _ => (defs.columnFault? c).or (defs.columnFault? other)
  | .between c _ _ _ => defs.columnFault? c
  | .group _ _ => none
  | .anyRow e _ _ => defs.entityFault? e

/-- The columns and the table that the node names are there, and a list is compared by
    equality. -/
def IsValid (defs : Model) : Predicate → Prop
  | .field c op v _ => defs.HasColumn c ∧ (v.isList = true → op = .eq)
  | .property c _ other _ => defs.HasColumn c ∧ defs.HasColumn other
  | .between c _ _ _ => defs.HasColumn c
  | .group _ _ => True
  | .anyRow e _ _ => defs.HasTable e

theorem fault?_eq_none_iff (defs : Model) (p : Predicate) :
    p.fault? defs = none ↔ p.IsValid defs := by
  cases p with
  | field c op v negated =>
    rw [fault?, IsValid, ← Model.columnFault?_eq_none_iff]
    by_cases h : v.isList = true ∧ op ≠ .eq
    · rw [if_pos h]
      simp [h.1, h.2]
    · rw [if_neg h, and_iff_left fun hlist => by_contra fun hop => h ⟨hlist, hop⟩]
  | property c op other negated =>
    rw [fault?, IsValid, Option.or_eq_none_iff, Model.columnFault?_eq_none_iff,
      Model.columnFault?_eq_none_iff]
  | between c low high negated => exact defs.columnFault?_eq_none_iff c
  | group k members => simp [fault?, IsValid]
  | anyRow e p negated => exact defs.entityFault?_eq_none_iff e

/-- The fault of the first node that has one. -/
def firstFault? (defs : Model) (p : Predicate) : Option QueryError :=
  p.nodes.findSome? (fault? defs)

theorem findSome?_flatMap_nodes (defs : Model) (ps : List Predicate) :
    (ps.flatMap nodes).findSome? (fault? defs) = ps.findSome? (firstFault? defs) := by
  induction ps with
  | nil => rfl
  | cons p ps ih =>
    rw [List.flatMap_cons, List.findSome?_append, ih, List.findSome?_cons, firstFault?]
    cases p.nodes.findSome? (fault? defs) <;> rfl

theorem firstFault?_group (defs : Model) (k : Connective) (members : List Predicate) :
    (group k members).firstFault? defs = members.findSome? (firstFault? defs) := by
  rw [firstFault?, nodes, allNodes_eq_flatMap, List.findSome?_cons]
  exact findSome?_flatMap_nodes defs members

theorem firstFault?_anyRow (defs : Model) (e : EntityType) (p : Predicate) (negated : Bool) :
    (anyRow e p negated).firstFault? defs = (defs.entityFault? e).or (p.firstFault? defs) := by
  rw [firstFault?, nodes, List.findSome?_cons, fault?, firstFault?]
  cases defs.entityFault? e <;> rfl

/-- A condition without comparisons has no fault. -/
theorem firstFault?_of_isEmpty (defs : Model) {p : Predicate} (h : p.isEmpty = true) :
    p.firstFault? defs = none := by
  induction p using treeInduction with
  | group k members ih =>
    rw [isEmpty_group, List.all_eq_true] at h
    rw [firstFault?_group, List.findSome?_eq_none_iff]
    exact fun p hp => ih p hp (h p hp)
  | _ => simp [isEmpty] at h

/-- Members that are left out have no part in the first fault. -/
theorem findSome?_inhabited (defs : Model) (ps : List Predicate) :
    (inhabited ps).findSome? (firstFault? defs) = ps.findSome? (firstFault? defs) := by
  unfold inhabited
  induction ps with
  | nil => rfl
  | cons p ps ih =>
    rw [List.findSome?_cons, ← ih]
    cases hp : p.isEmpty with
    | true => simp [hp, firstFault?_of_isEmpty defs hp]
    | false => simp [hp, List.findSome?_cons]

theorem findSome?_listFragments (defs : Model) (c : ColumnRef) (items : List Value)
    (negated : Bool) :
    (listFragments c items negated).findSome? (Fragment.fault? defs) = defs.columnFault? c := by
  have hoperands (items : List Value) :
      (items.map fun v => [Fragment.operand c.property v]).findSome?
        (fun fs => fs.findSome? (Fragment.fault? defs)) = none := by
    rw [List.findSome?_eq_none_iff]
    intro fs hfs
    obtain ⟨v, -, rfl⟩ := List.mem_map.mp hfs
    rfl
  cases items with
  | nil =>
    simp only [listFragments, List.findSome?_cons, Fragment.fault?]
    cases defs.columnFault? c <;> rfl
  | cons v items =>
    unfold listFragments
    rw [List.findSome?_append, List.findSome?_append, Fragment.findSome?_joined, hoperands]
    simp only [List.findSome?_cons, Fragment.fault?]
    cases defs.columnFault? c <;> rfl

theorem findSome?_groupFragments (defs : Model) (k : Connective) (parts : List (List Fragment)) :
    (groupFragments k parts).findSome? (Fragment.fault? defs) =
      parts.findSome? fun fs => fs.findSome? (Fragment.fault? defs) := by
  cases parts with
  | nil => rfl
  | cons fs parts =>
    unfold groupFragments
    rw [List.findSome?_append, List.findSome?_append, Fragment.findSome?_joined]
    exact Option.or_none

/-- The first fault of what is written for a condition is that of its nodes. -/
theorem findSome?_fragments (defs : Model) (p : Predicate) :
    p.fragments.findSome? (Fragment.fault? defs) = p.firstFault? defs := by
  induction p using treeInduction with
  | field c op v negated =>
    rw [firstFault?, nodes, List.findSome?_singleton, fragments, fault?]
    cases v with
    | list items =>
      rw [fieldFragments]
      by_cases hop : op = .eq
      · simp [hop, findSome?_listFragments]
      · simp [hop, Fragment.fault?, Value.isList]
    | _ =>
      simp only [fieldFragments, List.findSome?_cons, Fragment.fault?, Value.isList]
      cases defs.columnFault? c <;> rfl
  | property c op other negated =>
    rw [firstFault?, nodes, List.findSome?_singleton, fault?]
    simp only [fragments, List.findSome?_cons, Fragment.fault?]
    cases defs.columnFault? c with
    | some fault => rfl
    | none => cases defs.columnFault? other <;> rfl
  | between c low high negated =>
    rw [firstFault?, nodes, List.findSome?_singleton, fault?]
    simp only [fragments, List.findSome?_cons, Fragment.fault?]
    cases defs.columnFault? c <;> rfl
  | group k members ih =>
    have hmembers := List.map_congr_left fun p (hp : p ∈ inhabited members) =>
      ih p (mem_inhabited.mp hp).1
    have hfirst := congrArg (List.findSome? id) hmembers
    rw [List.findSome?_map, List.findSome?_map, Function.id_comp, Function.id_comp] at hfirst
    rw [fragments, findSome?_groupFragments, memberFragments_eq_map, List.findSome?_map,
      firstFault?_group, ← findSome?_inhabited]
    exact hfirst
  | anyRow e p negated ih =>
    rw [fragments, List.findSome?_append, List.findSome?_append, ih, firstFault?_anyRow]
    simp only [List.findSome?_cons, Fragment.fault?]
    cases defs.entityFault? e with
    | some fault => rfl
    | none => cases p.firstFault? defs <;> rfl

/-! ## Conditions without operands -/

mutual

/-- The condition with nothing left of its operands but which comparisons have a list. -/
def outline : Predicate → Predicate
  | .field c op v negated => .field c op (if v.isList then .list [] else .null) negated
  | .property c op other negated => .property c op other negated
  | .between c _ _ negated => .between c .null .null negated
  | .group k members => .group k (allOutlines members)
  | .anyRow e p negated => .anyRow e p.outline negated

/-- Several conditions with nothing left of their operands but which comparisons have a list. -/
def allOutlines : List Predicate → List Predicate
  | [] => []
  | p :: ps => p.outline :: allOutlines ps

end

theorem allOutlines_eq_map (ps : List Predicate) : allOutlines ps = ps.map outline := by
  induction ps with
  | nil => rfl
  | cons p ps ih => rw [allOutlines, ih, List.map_cons]

theorem nodes_outline (p : Predicate) : p.outline.nodes = p.nodes.map outline := by
  induction p using treeInduction with
  | group k members ih =>
    rw [outline, nodes, nodes, List.map_cons, outline, allNodes_eq_flatMap, allNodes_eq_flatMap,
      allOutlines_eq_map, List.flatMap_map, List.map_flatMap]
    exact congrArg _ (List.flatMap_congr ih)
  | anyRow e p negated ih => rw [outline, nodes, nodes, List.map_cons, outline, ih]
  | _ => rfl

/-- No fault depends on an operand that stays a list or none. -/
theorem fault?_outline (defs : Model) (p : Predicate) : p.outline.fault? defs = p.fault? defs := by
  cases p with
  | field c op v negated =>
    rw [outline, fault?, fault?]
    cases v.isList <;> rfl
  | _ => rfl

theorem firstFault?_outline (defs : Model) (p : Predicate) :
    p.outline.firstFault? defs = p.firstFault? defs := by
  unfold firstFault?
  rw [nodes_outline, List.findSome?_map]
  exact congrArg (p.nodes.findSome? ·) (funext fun n => n.fault?_outline defs)

end Predicate

/-! ## Writing -/

namespace Work

/-- How work ends, but for what it answers. -/
def ending {α : Type} (work : Work α) (w : Workspace) : Except Error Unit :=
  (answerOf (work w)).map fun _ => ()

/-- A condition fails for the first fault among its nodes. -/
theorem ending_clause {s : Setting} {w : Workspace} (h : w.catalog.IsSound s.dialect)
    (p : Predicate) :
    ending (clause s p.fragments) w =
      verdict (p.firstFault? (w.catalog.definitions s.model)) := by
  obtain ⟨w', hw', -, -⟩ := clause_follows s p.fragments w
  rw [ending, hw', answerOf_ended, ← p.findSome?_fragments, ← Fragment.checkAll_eq_verdict h]
  change ((clausePlan _ (s.mappings w.catalog) _).map _).map _ = _
  unfold clausePlan
  cases Fragment.checkAll (s.mappings w.catalog) p.fragments <;> rfl

end Work

/-- Conditions can be written exactly when all their nodes are valid. A condition that cannot fails
    for the fault of a node that has only valid ones in front of it, and what was written before
    does not matter. For the same definitions and but for the operands the same condition, the
    writing ends alike, whatever the dialect and the parameters. -/
theorem conditions_fail_for_their_first_fault (s : Setting) (p : Predicate) (w : Workspace)
    (hreached : w.catalog.IsReached s.dialect) :
    (Work.ending (Work.clause s p.fragments) w = .ok () ↔
      ∀ n, p.HasNode n → n.IsValid (w.catalog.definitions s.model)) ∧
    (∀ cause, Work.ending (Work.clause s p.fragments) w = .error cause ↔
      ∃ before n after fault, p.nodes = before ++ n :: after ∧
        (∀ q ∈ before, q.IsValid (w.catalog.definitions s.model)) ∧
        n.fault? (w.catalog.definitions s.model) = some fault ∧ cause = .query fault) ∧
    (∀ text, answerOf (Writing.all s p.fragments ⟨w, text⟩) =
      Work.ending (Work.clause s p.fragments) w) ∧
    ∀ (s' : Setting) (q : Predicate) (w' : Workspace), w'.catalog.IsReached s'.dialect →
      w'.catalog.definitions s'.model = w.catalog.definitions s.model →
      q.outline = p.outline →
        Work.ending (Work.clause s' q.fragments) w' =
          Work.ending (Work.clause s p.fragments) w := by
  have hending := Work.ending_clause hreached.isSound p
  refine ⟨?_, fun cause => ?_, fun text => ?_, fun s' q w' hreached' hdefs houtline => ?_⟩
  · have hnone : p.firstFault? (w.catalog.definitions s.model) = none ↔
        ∀ n, p.HasNode n → n.IsValid (w.catalog.definitions s.model) := by
      unfold Predicate.firstFault?
      rw [List.findSome?_eq_none_iff]
      exact forall_congr' fun n =>
        imp_congr Predicate.mem_nodes_iff (Predicate.fault?_eq_none_iff _ n)
    rw [hending, ← hnone]
    cases p.firstFault? (w.catalog.definitions s.model) <;> simp [verdict]
  · have hverdict : verdict (p.firstFault? (w.catalog.definitions s.model)) = .error cause ↔
        ∃ fault, p.firstFault? (w.catalog.definitions s.model) = some fault ∧
          cause = .query fault := by
      cases p.firstFault? (w.catalog.definitions s.model) <;> simp [verdict, eq_comm]
    rw [hending, hverdict]
    constructor
    · rintro ⟨fault, hfirst, rfl⟩
      obtain ⟨before, n, after, hnodes, hn, hbefore⟩ := List.findSome?_eq_some_iff.mp hfirst
      exact ⟨before, n, after, fault, hnodes,
        fun q hq => (Predicate.fault?_eq_none_iff _ q).mp (hbefore q hq), hn, rfl⟩
    · rintro ⟨before, n, after, fault, hnodes, hbefore, hn, rfl⟩
      exact ⟨fault, List.findSome?_eq_some_iff.mpr ⟨before, n, after, hnodes, hn,
        fun q hq => (Predicate.fault?_eq_none_iff _ q).mpr (hbefore q hq)⟩, rfl⟩
  · obtain ⟨m, hm, -, -⟩ := Writing.all_run s p.fragments ⟨w, text⟩
    rw [hm, answerOf_ended, hending, ← p.findSome?_fragments]
    exact Fragment.checkAll_eq_verdict hreached.isSound p.fragments
  · rw [hending, Work.ending_clause hreached'.isSound q, hdefs, ← q.firstFault?_outline, houtline,
      p.firstFault?_outline]

namespace Samples

/-- A range without a fault, a sub select with an unknown property, and behind both a list that
    is not compared by equality. -/
def flawed (low : Value) (items : List Value) : Predicate :=
  .group .or
    [.group .and [.between age low (.int32 9) false],
     .anyRow ⟨"Person"⟩ (.property age .eq ⟨⟨"Person"⟩, "height"⟩ true) false,
     .field age .like (.list items) false]

end Samples

/-- The property is found out before the list is, in two dialects and with other operands. -/
theorem conditions_fail_for_their_first_fault_flawed :
    Work.ending (Work.clause Samples.people (Samples.flawed (.int32 1) []).fragments) {} =
      .error (.query (.unknownProperty "Person" "height")) ∧
    Work.ending (Work.clause ⟨.sqlite, Samples.people.model⟩
        (Samples.flawed .null [.int32 5]).fragments) {} =
      .error (.query (.unknownProperty "Person" "height")) := by
  obtain ⟨-, hfails, -, halike⟩ := conditions_fail_for_their_first_fault Samples.people
    (Samples.flawed (.int32 1) []) {} .empty
  have hfirst := (hfails (.query (.unknownProperty "Person" "height"))).mpr
    ⟨[Samples.flawed (.int32 1) [], .group .and [.between Samples.age (.int32 1) (.int32 9) false],
        .between Samples.age (.int32 1) (.int32 9) false,
        .anyRow ⟨"Person"⟩ (.property Samples.age .eq ⟨⟨"Person"⟩, "height"⟩ true) false],
      _, _, _, rfl, by simp only [← Predicate.fault?_eq_none_iff]; decide, rfl, rfl⟩
  refine ⟨hfirst, ?_⟩
  rw [halike ⟨.sqlite, Samples.people.model⟩ (Samples.flawed .null [.int32 5]) {} .empty rfl rfl]
  exact hfirst

end EntitySql
