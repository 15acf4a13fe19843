/-
  Mappings after any number of steps.

  A property that is mapped takes the place of the one of its name, or the end (`putsIn`). Mapping
  by convention puts the names that are new at the end, in the order of their first mention
  (`foldl_mention`), and then changes the key of one property at most (`addsConventional`). So names
  stand in the order in which they came first (`namesOf_build`), whatever the steps were.

  The properties that statements list are taken from the mapping by conditions of which each implies
  the next one, so that they are nested in its order (`isNested`).
-/
import EntitySql.Proofs.BuiltMappings
import Mathlib.Data.List.Basic

namespace EntitySql

/-! ## Names of keys by convention -/

/-- A character is in lower case a given letter when it is this letter, in either case. -/
theorem Text.toLower_eq_iff {c lower upper : Char} (hletter : 'A'.val ≤ upper.val)
    (hletter' : upper.val ≤ 'Z'.val) (hcase : lower.val = upper.val + ('a'.val - 'A'.val)) :
    c.toLower = lower ↔ c = lower ∨ c = upper := by
  rw [UInt32.le_iff_toNat_le] at hletter hletter'
  have hsum := congrArg UInt32.toNat hcase
  have hA : 'A'.val.toNat = 65 := rfl
  have hZ : 'Z'.val.toNat = 90 := rfl
  have hshift : ('a'.val - 'A'.val).toNat = 32 := rfl
  rw [UInt32.toNat_add, hshift] at hsum
  simp only [Char.ext_iff, ← UInt32.toNat_inj]
  unfold Char.toLower
  split
  · rename_i h
    rw [ge_iff_le, UInt32.le_iff_toNat_le, UInt32.le_iff_toNat_le] at h
    rw [UInt32.toNat_add, hshift]
    omega
  · rename_i h
    rw [ge_iff_le, UInt32.le_iff_toNat_le, UInt32.le_iff_toNat_le] at h
    omega

namespace Mapping

/-- The characters are `id`, in any case. -/
inductive AreId : List Char → Prop where
  /-- One letter and the other. -/
  | letters {c d : Char} (hc : c = 'i' ∨ c = 'I') (hd : d = 'd' ∨ d = 'D') : AreId [c, d]

/-- The name ends with `id`, in any case. -/
def EndsWithId (name : String) : Prop := ∃ front back, name.toList = front ++ back ∧ AreId back

theorem areId_iff {cs : List Char} : AreId cs ↔ cs.map Char.toLower = ['i', 'd'] := by
  have hi (c : Char) : c.toLower = 'i' ↔ c = 'i' ∨ c = 'I' :=
    Text.toLower_eq_iff (by decide) (by decide) rfl
  have hd (c : Char) : c.toLower = 'd' ↔ c = 'd' ∨ c = 'D' :=
    Text.toLower_eq_iff (by decide) (by decide) rfl
  constructor
  · rintro ⟨hc, hd'⟩
    rw [List.map_cons, List.map_cons, List.map_nil, (hi _).mpr hc, (hd _).mpr hd']
  · intro h
    obtain ⟨c, rest, rfl, hc, hrest⟩ := List.map_eq_cons_iff.mp h
    obtain ⟨d, none, rfl, hd', hnone⟩ := List.map_eq_cons_iff.mp hrest
    obtain rfl := List.map_eq_nil_iff.mp hnone
    exact .letters ((hi c).mp hc) ((hd d).mp hd')

theorem isIdName_iff {name : String} : isIdName name = true ↔ AreId name.toList := by
  rw [areId_iff]
  exact beq_iff_eq

theorem endsWithId_iff {name : String} : endsWithId name = true ↔ EndsWithId name := by
  unfold endsWithId EndsWithId Text.lowerCase
  rw [List.isPrefixOf_iff_prefix, ← List.reverse_suffix, List.reverse_reverse]
  constructor
  · rintro ⟨front, hfront⟩
    obtain ⟨cs, ds, hname, -, hds⟩ := List.map_eq_append_iff.mp hfront.symm
    exact ⟨cs, ds, hname, areId_iff.mpr hds⟩
  · rintro ⟨front, back, hname, hback⟩
    rw [hname, List.map_append, areId_iff.mp hback]
    exact List.suffix_append _ _

/-! ## A property that is mapped -/

/-- A property takes the place of the one of its name, or the end if there is none. -/
inductive PutsIn (p : PropertyMapping) : List PropertyMapping → List PropertyMapping → Prop where
  /-- It takes the place of the only one of its name. -/
  | replaced {front back : List PropertyMapping} {q : PropertyMapping} (hname : q.name = p.name)
      (hfront : p.name ∉ namesOf front) (hback : p.name ∉ namesOf back) :
      PutsIn p (front ++ q :: back) (front ++ p :: back)
  /-- Its name is new. -/
  | added {ps : List PropertyMapping} (hnew : p.name ∉ namesOf ps) : PutsIn p ps (ps ++ [p])

theorem putsIn (p : PropertyMapping) {ps : List PropertyMapping} (hnodup : (namesOf ps).Nodup) :
    PutsIn p ps (put p ps) := by
  induction ps with
  | nil => exact .added List.not_mem_nil
  | cons q ps ih =>
    obtain ⟨hq, hps⟩ := List.nodup_cons.mp hnodup
    unfold put
    by_cases hname : q.name = p.name
    · have hback : p.name ∉ namesOf ps := by
        rw [← hname]
        exact hq
      have hput : PutsIn p ([] ++ q :: ps) ([] ++ p :: ps) :=
        .replaced hname List.not_mem_nil hback
      rw [if_pos hname]
      exact hput
    · rw [if_neg hname]
      have hcons {qs : List PropertyMapping} (hqs : p.name ∉ namesOf qs) :
          p.name ∉ namesOf (q :: qs) :=
        List.not_mem_cons_of_ne_of_not_mem (Ne.symm hname) hqs
      have hput := ih hps
      generalize put p ps = ps' at hput ⊢
      cases hput with
      | @replaced front back r hsame hfront hback =>
        show PutsIn p ((q :: front) ++ r :: back) ((q :: front) ++ p :: back)
        exact .replaced hsame (hcons hfront) hback
      | added hnew => exact .added (hcons hnew)

/-! ## Properties that are mapped by convention -/

/-- The properties that names add: those of them that are new, each once, in the order of their
    first mention. -/
def newcomers (ps : List PropertyMapping) (names : List String) : List PropertyMapping :=
  (names.removeAll (namesOf ps)).eraseDups.map fun name => { name := name }

theorem foldl_mention (ps : List PropertyMapping) (names : List String) :
    names.foldl mention ps = ps ++ newcomers ps names := by
  induction names generalizing ps with
  | nil => exact (List.append_nil ps).symm
  | cons name names ih =>
    rw [List.foldl_cons, ih]
    unfold mention newcomers
    rw [List.cons_removeAll]
    by_cases hname : name ∈ namesOf ps
    · have hany : ps.any (·.name == name) = true := by simpa using hname
      have hcontains : (namesOf ps).contains name = true := List.contains_iff_mem.mpr hname
      rw [if_pos hany, hcontains, if_neg (by decide)]
    · have hany : ¬ ps.any (·.name == name) = true := by simpa using hname
      have hcontains : (namesOf ps).contains name = false := by simpa using hname
      have hnames : namesOf (ps ++ [{ name := name }]) = namesOf ps ++ [name] := by simp
      -- the names that are new beside this one are those that are new and other ones
      have hrest : names.removeAll (namesOf ps ++ [name]) =
          (names.removeAll (namesOf ps)).filter (!· == name) := by
        unfold List.removeAll
        rw [List.filter_filter]
        refine List.filter_congr fun other _ => ?_
        rw [Bool.eq_iff_iff]
        simp [or_comm]
      rw [if_neg hany, hcontains, if_pos rfl, hnames, hrest, List.eraseDups_cons, List.map_cons,
        List.append_assoc]
      rfl

/-- The property that becomes the key by convention: the first one called `id`, or else the first
    one whose name ends so, in any case. -/
inductive IsFirstId (front : List PropertyMapping) (p : PropertyMapping)
    (back : List PropertyMapping) : Prop where
  /-- It is called so. -/
  | called (hp : AreId p.name.toList) (hfront : ∀ q ∈ front, ¬ AreId q.name.toList)
  /-- No property is called so, and its name ends so. -/
  | ending (hnone : ∀ q ∈ front ++ p :: back, ¬ AreId q.name.toList) (hp : EndsWithId p.name)
      (hfront : ∀ q ∈ front, ¬ EndsWithId q.name)

/-- What mapping by convention makes of properties. -/
inductive AddsConventional (names : List String) (prototype : String → Option Value)
    (ps : List PropertyMapping) : List PropertyMapping → Prop where
  /-- There is a key, and no kind of key is changed. -/
  | keyed (hkey : ∃ p ∈ ps, p.key ≠ .notKey) :
      AddsConventional names prototype ps (ps ++ newcomers ps names)
  /-- There is no key, and no name for one. -/
  | keyless (hkeyless : ∀ p ∈ ps, p.key = .notKey)
      (hnone : ∀ p ∈ ps ++ newcomers ps names, ¬ EndsWithId p.name) :
      AddsConventional names prototype ps (ps ++ newcomers ps names)
  /-- There is no key, and one property becomes a key. -/
  | chosen {front back : List PropertyMapping} {p : PropertyMapping} {kind : KeyKind}
      (hkeyless : ∀ p ∈ ps, p.key = .notKey)
      (hps : ps ++ newcomers ps names = front ++ p :: back) (hfirst : IsFirstId front p back)
      (hkind : kind = conventionalKind (prototype p.name)) (hkey : kind ≠ .notKey) :
      AddsConventional names prototype ps (front ++ { p with key := kind } :: back)

theorem conventionalKind_ne_notKey (v : Option Value) : conventionalKind v ≠ .notKey := by
  unfold conventionalKind
  split <;> exact KeyKind.noConfusion

section

variable {ps : List PropertyMapping} {P : PropertyMapping → Bool} {Q : PropertyMapping → Prop}

/-- The first property with a condition, and those around it. -/
theorem split_of_findIdx? (hP : ∀ p, P p = true ↔ Q p) {i : Nat} (h : ps.findIdx? P = some i) :
    ∃ front p back, ps = front ++ p :: back ∧ front.length = i ∧ Q p ∧ ∀ q ∈ front, ¬ Q q := by
  obtain ⟨hi, hp, hfront⟩ := List.findIdx?_eq_some_iff_getElem.mp h
  refine ⟨ps.take i, ps[i], ps.drop (i + 1), ?_, List.length_take_of_le (Nat.le_of_lt hi),
    (hP _).mp hp, ?_⟩
  · rw [List.getElem_cons_drop, List.take_append_drop]
  · intro q hq hQ
    obtain ⟨j, hj, rfl⟩ := List.mem_take_iff_getElem.mp hq
    exact hfront j (by omega) ((hP _).mpr hQ)

theorem none_of_findIdx? (hP : ∀ p, P p = true ↔ Q p) (h : ps.findIdx? P = none) :
    ∀ p ∈ ps, ¬ Q p := by
  intro p hp hQ
  have hnone := List.findIdx?_eq_none_iff.mp h p hp
  rw [(hP p).mpr hQ] at hnone
  cases hnone

end

theorem modify_append (front : List PropertyMapping) (p : PropertyMapping)
    (back : List PropertyMapping) (f : PropertyMapping → PropertyMapping) :
    (front ++ p :: back).modify front.length f = front ++ f p :: back := by
  induction front with
  | nil => rfl
  | cons q front ih => exact congrArg (q :: ·) ih

/-- The key by convention is the first one that is called so, or else the first one that ends
    so. -/
theorem conventionalKey?_cases (ps : List PropertyMapping) :
    (conventionalKey? ps = none ∧ ∀ p ∈ ps, ¬ EndsWithId p.name) ∨
      ∃ front p back, ps = front ++ p :: back ∧ conventionalKey? ps = some front.length ∧
        IsFirstId front p back := by
  have hcalled (p : PropertyMapping) : isIdName p.name = true ↔ AreId p.name.toList := isIdName_iff
  have hending (p : PropertyMapping) : endsWithId p.name = true ↔ EndsWithId p.name :=
    endsWithId_iff
  unfold conventionalKey?
  cases hfirst : ps.findIdx? fun p => isIdName p.name with
  | some i =>
    obtain ⟨front, p, back, hps, rfl, hp, hfront⟩ := split_of_findIdx? hcalled hfirst
    exact .inr ⟨front, p, back, hps, rfl, .called hp hfront⟩
  | none =>
    have hnone := none_of_findIdx? hcalled hfirst
    cases hfirst : ps.findIdx? fun p => endsWithId p.name with
    | some i =>
      obtain ⟨front, p, back, hps, rfl, hp, hfront⟩ := split_of_findIdx? hending hfirst
      exact .inr ⟨front, p, back, hps, rfl, .ending (hps ▸ hnone) hp hfront⟩
    | none => exact .inl ⟨rfl, none_of_findIdx? hending hfirst⟩

theorem addsConventional (m : Mapping) (names : List String) (prototype : String → Option Value) :
    AddsConventional names prototype m.properties
      (m.addConventional names prototype).properties := by
  unfold addConventional
  dsimp only
  rw [foldl_mention]
  by_cases hany : m.properties.any PropertyMapping.isKey = true
  · rw [if_pos hany]
    obtain ⟨p, hp, hkey⟩ := List.any_eq_true.mp hany
    exact .keyed ⟨p, hp, by simpa [PropertyMapping.isKey, KeyKind.isKey] using hkey⟩
  · rw [if_neg hany]
    have hkeyless : ∀ p ∈ m.properties, p.key = .notKey := by
      simpa [PropertyMapping.isKey, KeyKind.isKey] using hany
    rcases conventionalKey?_cases (m.properties ++ newcomers m.properties names) with
      ⟨hkey, hnone⟩ | ⟨front, p, back, hps, hkey, hfirst⟩
    · rw [hkey]
      exact .keyless hkeyless hnone
    · rw [hkey]
      dsimp only
      rw [hps, modify_append]
      exact .chosen hkeyless hps hfirst rfl (conventionalKind_ne_notKey _)

/-! ## Several steps -/

/-- A step that builds a mapping. -/
inductive Step where
  /-- Maps one property. -/
  | insert (p : PropertyMapping)
  /-- Maps properties by convention, with what a fresh entity holds. -/
  | addConventional (names : List String) (prototype : String → Option Value)
  /-- Names the schema. -/
  | withSchema (schema : String)
  /-- Names the entity. -/
  | withEntity (entity : String)

/-- The mapping after the step. -/
def Step.apply (m : Mapping) : Step → Mapping
  | insert p => m.insert p
  | addConventional names prototype => m.addConventional names prototype
  | withSchema schema => m.withSchema schema
  | withEntity entity => m.withEntity entity

/-- The names of properties that the step mentions. -/
def Step.mentions : Step → List String
  | insert p => [p.name]
  | addConventional names _ => names
  | withSchema _ | withEntity _ => []

/-- The mapping after all steps. -/
def build (m : Mapping) (steps : List Step) : Mapping := steps.foldl Step.apply m

theorem IsBuilt.build {m : Mapping} (h : m.IsBuilt) (steps : List Step) : (m.build steps).IsBuilt :=
  List.foldlRecOn steps _ h fun m h step _ => by
    cases step with
    | insert p => exact h.insert p
    | addConventional names prototype => exact h.addConventional names prototype
    | withSchema schema => exact h.withSchema schema
    | withEntity entity => exact h.withEntity entity

theorem namesOf_apply (m : Mapping) (step : Step) :
    namesOf (step.apply m).properties = step.mentions.foldl withName (namesOf m.properties) := by
  cases step with
  | insert p => exact namesOf_put p m.properties
  | addConventional names prototype => exact namesOf_addConventional m names prototype
  | withSchema | withEntity => rfl

/-- Names stand in the order in which steps mentioned them first. -/
theorem namesOf_build (m : Mapping) (steps : List Step) :
    namesOf (m.build steps).properties =
      (steps.flatMap Step.mentions).foldl withName (namesOf m.properties) := by
  induction steps generalizing m with
  | nil => rfl
  | cons step steps ih =>
    rw [List.flatMap_cons, List.foldl_append, ← namesOf_apply]
    exact ih (step.apply m)

theorem names_build (table : String) (steps : List Step) :
    namesOf ((ofTable table).build steps).properties =
      (steps.flatMap Step.mentions).eraseDups := by
  rw [namesOf_build]
  exact foldl_withName _

/-! ## Properties that statements list -/

/-- The properties that statements list are nested, in the order of the mapping, and leave out the
    keys that they have to. -/
structure IsNested (m : Mapping) : Prop where
  /-- Columns are properties. -/
  columns : m.columns.Sublist m.properties
  /-- An insertion lists columns. -/
  insertable : m.insertable.Sublist m.columns
  /-- An update assigns what an insertion lists. -/
  updatable : (m.updatable false).Sublist m.insertable
  /-- Leaving out the keys that are supplied, it assigns no more. -/
  unassigned : (m.updatable true).Sublist (m.updatable false)
  /-- An insertion lists no key that the database generates. -/
  not_identity : ∀ p ∈ m.insertable, p.key ≠ .identity
  /-- An update assigns no key that is generated or drawn. -/
  not_drawn : ∀ p ∈ m.updatable false, p.key ≠ .identity ∧ p.key ≠ .guid
  /-- Leaving out the keys that are supplied, it assigns no key at all. -/
  not_key : ∀ p ∈ m.updatable true, p.key = .notKey

theorem isUpdatable_false_iff {kind : KeyKind} :
    isUpdatable false kind = true ↔ kind ≠ .identity ∧ kind ≠ .guid := by
  cases kind <;> decide

theorem isUpdatable_true_iff {kind : KeyKind} : isUpdatable true kind = true ↔ kind = .notKey := by
  cases kind <;> decide

theorem mem_updatable_iff {m : Mapping} {excludeAssigned : Bool} {p : PropertyMapping} :
    p ∈ m.updatable excludeAssigned ↔
      p ∈ m.columns ∧ p.readOnly = false ∧ isUpdatable excludeAssigned p.key = true := by
  unfold updatable
  rw [List.mem_filter, Bool.and_eq_true, Bool.not_eq_true']

theorem isNested (m : Mapping) : m.IsNested where
  columns := List.filter_sublist
  insertable := List.filter_sublist
  updatable := by
    refine List.monotone_filter_right m.columns fun p hp => ?_
    rw [Bool.and_eq_true, isUpdatable_false_iff] at hp
    rw [Bool.and_eq_true, bne_iff_ne]
    exact ⟨hp.1, hp.2.1⟩
  unassigned := by
    refine List.monotone_filter_right m.columns fun p hp => ?_
    rw [Bool.and_eq_true, isUpdatable_true_iff] at hp
    rw [Bool.and_eq_true, hp.2]
    exact ⟨hp.1, rfl⟩
  not_identity p hp := (mem_insertable_iff.mp hp).2.2
  not_drawn p hp := isUpdatable_false_iff.mp (mem_updatable_iff.mp hp).2.2
  not_key p hp := isUpdatable_true_iff.mp (mem_updatable_iff.mp hp).2.2

/-- After any steps from the mapping to a table, the names of the properties differ and stand in the
    order in which the steps mentioned them first. A property that is mapped then takes the place of
    the only one of its name, or the end. Mapping by convention, with any names and whatever a fresh
    entity holds, adds the names that are new at the end; where there is a key it changes nothing
    else, and otherwise it makes a key of one property at most, the first one called `id` in any
    case, or else the first one whose name ends so. The properties that statements list are nested
    in the order of the mapping, and leave out the keys that they have to. -/
theorem steps_keep_order_and_keys (table : String) (steps : List Step) :
    let m := (ofTable table).build steps
    (namesOf m.properties).Nodup ∧
      namesOf m.properties = (steps.flatMap Step.mentions).eraseDups ∧
      (∀ p, PutsIn p m.properties (m.insert p).properties) ∧
      (∀ names prototype, AddsConventional names prototype m.properties
        (m.addConventional names prototype).properties) ∧
      m.IsNested := by
  intro m
  have hnodup : (namesOf m.properties).Nodup := ((IsBuilt.ofTable table).build steps).nodup
  exact ⟨hnodup, names_build table steps, fun p => putsIn p hnodup, m.addsConventional, m.isNested⟩

example :
    ((ofTable "t").addConventional ["grid", "ID", "grid", "id"] fun _ => some (.int64 0)).properties =
      [{ name := "grid" }, { name := "ID", key := .identity }, { name := "id" }] := by
  decide +kernel

end Mapping

end EntitySql
