/-
  The key of an entity: what it holds, and that it is accepted.

  A key is read from an entity property by property (`parts_of_keyOf`), and looked up property by
  property when it is given. Between the two a number becomes an integer of 64 bits
  (`Value.IsKeyedAs`), and nothing else changes: the parts of the key hold what the entity holds, in
  whatever order they are given (`HoldsKeys`). So the key is accepted (`keyParameters_of_keyOf`) as
  the entity is (`entityKeyParameters_of_keyOf`), and both bind the same names to the same values
  (`bindsAlike_of_keyOf`).
-/
import EntitySql.Proofs.Insertion
import EntitySql.Proofs.PropertyParameters
import Mathlib.Algebra.Order.Ring.Int

namespace EntitySql

/-! ## Values as keys -/

/-- The second value is the first one as a part of a key: an integer of 64 bits for an integer or a
    whole decimal of the same number, and otherwise the same value. -/
inductive Value.IsKeyedAs : Value → Value → Prop where
  /-- An integer of 64 bits. -/
  | int64 (i : Int64) : IsKeyedAs (.int64 i) (.int64 i)
  /-- A text. -/
  | text (s : String) : IsKeyedAs (.text s) (.text s)
  /-- An identifier. -/
  | uuid (u : Uuid) : IsKeyedAs (.uuid u) (.uuid u)
  /-- An integer of 32 bits. -/
  | int32 {i : Int32} {j : Int64} (h : j.toInt = i.toInt) : IsKeyedAs (.int32 i) (.int64 j)
  /-- A whole decimal. -/
  | decimal {x : Decimal} {j : Int64} (h : x.signed = j.toInt * 10 ^ x.scale) :
      IsKeyedAs (.decimal x) (.int64 j)

/-- An integer that is in range is the number that it was made of. -/
theorem int64?_eq_some_iff {i : Int} {j : Int64} : int64? i = some j ↔ j.toInt = i := by
  constructor
  · intro h
    obtain ⟨⟨hleast, hgreatest⟩, rfl⟩ := Option.ite_some_none_eq_some.mp h
    exact Int64.toInt_ofInt_of_le hleast (by omega)
  · rintro rfl
    have hleast := j.le_toInt
    have hgreatest := j.toInt_lt
    rw [int64?, if_pos (by omega), Int64.ofInt_toInt]

/-- A whole decimal is what is left of it without its fraction digits. -/
theorem Decimal.signed_of_isWhole {x : Decimal} (h : x.isWhole = true) :
    x.signed = x.truncate * 10 ^ x.scale := by
  have hmod : x.coefficient % 10 ^ x.scale = 0 := eq_of_beq h
  have hcoefficient : x.coefficient / 10 ^ x.scale * 10 ^ x.scale = x.coefficient :=
    Nat.div_mul_cancel (Nat.dvd_of_mod_eq_zero hmod)
  have hint : (Int.ofNat (x.coefficient / 10 ^ x.scale)) * 10 ^ x.scale =
      Int.ofNat x.coefficient := by
    rw [Int.ofNat_eq_natCast, Int.ofNat_eq_natCast]
    exact_mod_cast hcoefficient
  unfold signed truncate
  cases x.negative with
  | true =>
    simp only [if_true, Nat.pow_eq]
    rw [Int.neg_mul, hint]
  | false => exact hint.symm

/-- What is taken for a key has the value of the key. -/
theorem Key.isKeyedAs_of_ofValue {v : Value} {key : Key} (h : Key.ofValue v = .ok key) :
    ∃ v', key.toValue? = some v' ∧ v.IsKeyedAs v' := by
  unfold ofValue ofValue? at h
  cases v with
  | int32 i =>
    cases h
    exact ⟨_, rfl, .int32 (Int32.toInt_toInt64 i)⟩
  | int64 i =>
    cases h
    exact ⟨_, rfl, .int64 i⟩
  | text s =>
    cases h
    exact ⟨_, rfl, .text s⟩
  | uuid u =>
    cases h
    exact ⟨_, rfl, .uuid u⟩
  | decimal x =>
    cases hwhole : x.isWhole with
    | false => simp [Value.asInt64, hwhole] at h
    | true =>
      cases hint : int64? x.truncate with
      | none => simp [Value.asInt64, hwhole, hint] at h
      | some j =>
        simp only [Value.asInt64, hwhole, hint, if_true, Option.map_some] at h
        cases h
        refine ⟨_, rfl, .decimal ?_⟩
        rw [int64?_eq_some_iff.mp hint]
        exact Decimal.signed_of_isWhole hwhole
  | _ => cases h

/-- The dialects of databases keep the numbers of keys. -/
theorem Dialect.isKeyedAs_bindValue {d : Dialect} (hd : d ∈ Dialect.all.map (·.2)) {v v' : Value}
    (h : v.IsKeyedAs v') : (d.bindValue v).IsKeyedAs (d.bindValue v') := by
  rcases bindValue_eq hd with hbind | hbind
  · rw [hbind]
    exact h
  · rw [hbind]
    cases h with
    | int64 i => exact .int64 i
    | text s => exact .text s
    | uuid u => exact .text u.text
    | int32 h => exact .int32 h
    | decimal h => exact .decimal h

/-! ## The key of an entity -/

/-- A collection succeeds when each step of it does. -/
theorem foldlM_eq_ok {α β ε : Type} {g : β → α → Except ε β} {f : β → α → β} {xs : List α}
    (hg : ∀ x ∈ xs, ∀ b, g b x = .ok (f b x)) (b : β) : xs.foldlM g b = .ok (xs.foldl f b) := by
  induction xs generalizing b with
  | nil => rfl
  | cons x xs ih =>
    rw [List.forall_mem_cons] at hg
    rw [List.foldlM_cons, hg.1]
    exact ih hg.2 (f b x)

namespace Mapping

/-- The value that a property has in the key of an entity. -/
def keyedValue {ε : Type} (E : Entity ε) (e : ε) (name : String) : Option Value :=
  (E.get? e name).bind fun v => (Key.ofValue? v).bind Key.toValue?

variable {ε : Type} {m : Mapping} {E : Entity ε} {e : ε} {d : Dialect}

/-- A part of a key is called like its property, and has its value. -/
theorem keyedValue_of_keyPart {k : PropertyMapping} {part : String × Key}
    (h : m.keyPart E e k = .ok part) :
    part.1 = k.name ∧ ∃ v v', E.get? e k.name = some v ∧ v.isNull = false ∧ v.IsKeyedAs v' ∧
      part.2.toValue? = some v' ∧ keyedValue E e k.name = some v' := by
  obtain ⟨v, hv, h⟩ := bind_eq_ok_iff.mp h
  obtain ⟨hget, hnull⟩ := keyValue_eq_ok_iff.mp (mapError_eq_ok_iff.mp hv)
  obtain ⟨key, hkey, h⟩ := bind_eq_ok_iff.mp h
  cases h
  obtain ⟨v', hv', hkeyed⟩ := Key.isKeyedAs_of_ofValue hkey
  have hof : Key.ofValue? v = some key := by
    unfold Key.ofValue at hkey
    cases hof : Key.ofValue? v with
    | none =>
      rw [hof] at hkey
      cases hkey
    | some key' =>
      rw [hof] at hkey
      cases hkey
      rfl
  refine ⟨rfl, v, v', hget, hnull, hkeyed, hv', ?_⟩
  rw [keyedValue, hget, Option.bind_some, hof, Option.bind_some, hv']

theorem parts_of_mapM {keys : List PropertyMapping} {parts : List (String × Key)}
    (h : keys.mapM (m.keyPart E e) = .ok parts) :
    parts.map (·.1) = namesOf keys ∧ ∀ k ∈ keys, ∃ part ∈ parts, m.keyPart E e k = .ok part := by
  induction keys generalizing parts with
  | nil =>
    cases h
    exact ⟨rfl, fun k hk => absurd hk List.not_mem_nil⟩
  | cons k keys ih =>
    rw [List.mapM_cons] at h
    obtain ⟨part, hpart, h⟩ := bind_eq_ok_iff.mp h
    obtain ⟨parts, hparts, h⟩ := bind_eq_ok_iff.mp h
    cases h
    obtain ⟨hnames, hrest⟩ := ih hparts
    refine ⟨?_, fun k' hk' => ?_⟩
    · rw [List.map_cons, hnames, (keyedValue_of_keyPart hpart).1]
      rfl
    · rcases List.mem_cons.mp hk' with rfl | hk'
      · exact ⟨part, List.mem_cons_self, hpart⟩
      · obtain ⟨part', hmem, hpart'⟩ := hrest k' hk'
        exact ⟨part', List.mem_cons_of_mem part hmem, hpart'⟩

/-- The key of an entity is its only part, or made of several. -/
theorem parts_of_keyOf {key : Key} (h : m.keyOf E e = .ok key) :
    ∃ parts : List (String × Key), m.keys.mapM (m.keyPart E e) = .ok parts ∧ parts ≠ [] ∧
      ((∃ name, parts = [(name, key)]) ∨ key = .composite parts) := by
  obtain ⟨parts, hparts, h⟩ := bind_eq_ok_iff.mp h
  refine ⟨parts, hparts, ?_⟩
  match parts with
  | [] => cases h
  | [part] =>
    cases h
    exact ⟨List.cons_ne_nil _ _, .inl ⟨part.1, rfl⟩⟩
  | part :: part' :: parts =>
    cases h
    exact ⟨List.cons_ne_nil _ _, .inr rfl⟩

theorem keys_ne_nil_of_keyOf {key : Key} (h : m.keyOf E e = .ok key) : m.keys ≠ [] := by
  obtain ⟨parts, hparts, hne, -⟩ := parts_of_keyOf h
  intro hkeys
  rw [hkeys] at hparts
  cases hparts
  exact hne rfl

/-- What an entity has for its key properties, it has in its key as well. -/
theorem keyedValue_of_keyOf {key : Key} (h : m.keyOf E e = .ok key) :
    ∀ k ∈ m.keys, ∃ v v', E.get? e k.name = some v ∧ v.isNull = false ∧ v.IsKeyedAs v' ∧
      keyedValue E e k.name = some v' := by
  intro k hk
  obtain ⟨parts, hparts, -, -⟩ := parts_of_keyOf h
  obtain ⟨part, -, hpart⟩ := (parts_of_mapM hparts).2 k hk
  obtain ⟨-, v, v', hget, hnull, hkeyed, -, hvalue⟩ := keyedValue_of_keyPart hpart
  exact ⟨v, v', hget, hnull, hkeyed, hvalue⟩

/-- The parts have the value of each key property of an entity, in whatever order. -/
structure HoldsKeys (m : Mapping) (E : Entity ε) (e : ε) (parts : List (String × Key)) :
    Prop where
  /-- The names of the parts differ. -/
  nodup : (parts.map (·.1)).Nodup
  /-- They are names of key properties. -/
  names : ∀ part ∈ parts, part.1 ∈ namesOf m.keys
  /-- Each key property has a part with its value. -/
  part : ∀ k ∈ m.keys, ∃ part v, (k.name, part) ∈ parts ∧ part.toValue? = some v ∧
    keyedValue E e k.name = some v

theorem holdsKeys_of_mapM (hbuilt : m.IsBuilt) {parts : List (String × Key)}
    (h : m.keys.mapM (m.keyPart E e) = .ok parts) : m.HoldsKeys E e parts := by
  obtain ⟨hnames, hparts⟩ := parts_of_mapM h
  refine ⟨?_, fun part hpart => ?_, fun k hk => ?_⟩
  · rw [hnames]
    exact hbuilt.nodup_keys
  · rw [← hnames]
    exact List.mem_map_of_mem hpart
  · obtain ⟨⟨name, part⟩, hmem, hpart⟩ := hparts k hk
    obtain ⟨rfl, v, v', -, -, -, hpart, hvalue⟩ := keyedValue_of_keyPart hpart
    exact ⟨part, v', hmem, hpart, hvalue⟩

/-- The order of the parts does not matter. -/
theorem HoldsKeys.perm {parts parts' : List (String × Key)} (h : m.HoldsKeys E e parts)
    (hperm : parts'.Perm parts) : m.HoldsKeys E e parts' := by
  refine ⟨?_, fun part hpart => h.names part (hperm.mem_iff.mp hpart), fun k hk => ?_⟩
  · exact (hperm.map _).nodup_iff.mpr h.nodup
  · obtain ⟨part, v, hmem, hvalue⟩ := h.part k hk
    exact ⟨part, v, hperm.mem_iff.mpr hmem, hvalue⟩

/-! ## Keys that are accepted -/

/-- A key of parts that has the value of each key property is accepted. -/
theorem keyParameters_composite (d : Dialect) {parts : List (String × Key)}
    (h : m.HoldsKeys E e parts) (hne : m.keys ≠ []) :
    m.keyParameters d (.composite parts) = .ok (.ofProperties d (keyedValue E e) m.keys) := by
  rw [keyParameters_of_known d hne h.names]
  refine foldlM_eq_ok (fun k hk ps => ?_) Parameters.empty
  obtain ⟨part, v, hmem, hpart, hvalue⟩ := h.part k hk
  rw [bindPart_of_lookup (lookup_of_mem h.nodup hmem) hpart, hvalue, Option.getD_some]

/-- A key without parts is accepted for the only key property. -/
theorem keyParameters_single (d : Dialect) {k : PropertyMapping} (hkeys : m.keys = [k]) {key : Key}
    {v : Value} (hkey : key.toValue? = some v) (hvalue : keyedValue E e k.name = some v) :
    m.keyParameters d key = .ok (.ofProperties d (keyedValue E e) m.keys) := by
  rw [keyParameters_of_toValue? d hkeys hkey, hkeys]
  unfold Parameters.ofProperties
  rw [List.foldl_cons, List.foldl_nil, hvalue]
  rfl

/-- The key of an entity is accepted, with its parts in any order. -/
theorem keyParameters_of_keyOf (d : Dialect) (hbuilt : m.IsBuilt) {key : Key}
    (h : m.keyOf E e = .ok key) :
    m.keyParameters d key = .ok (.ofProperties d (keyedValue E e) m.keys) ∧
      ∀ parts parts', key = .composite parts → parts'.Perm parts →
        m.keyParameters d (.composite parts') =
          .ok (.ofProperties d (keyedValue E e) m.keys) := by
  obtain ⟨parts, hparts, -, hkey⟩ := parts_of_keyOf h
  have hholds := holdsKeys_of_mapM hbuilt hparts
  have hne := keys_ne_nil_of_keyOf h
  rcases hkey with ⟨name, rfl⟩ | rfl
  · obtain ⟨k, hkeys, rfl⟩ := List.map_eq_singleton_iff.mp (parts_of_mapM hparts).1.symm
    obtain ⟨part, v, hmem, hpart, hvalue⟩ := hholds.part k (by rw [hkeys]; exact .head [])
    cases List.mem_singleton.mp hmem
    refine ⟨keyParameters_single d hkeys hpart hvalue, fun parts parts' hkey _ => ?_⟩
    rw [hkey] at hpart
    cases hpart
  · refine ⟨keyParameters_composite d hholds hne, fun parts₁ parts₂ hkey hperm => ?_⟩
    cases hkey
    exact keyParameters_composite d (hholds.perm hperm) hne

/-- The key properties of the entity itself are accepted. -/
theorem entityKeyParameters_of_keyOf (d : Dialect) {key : Key} (h : m.keyOf E e = .ok key) :
    m.entityKeyParameters d E e = .ok (.ofProperties d (E.get? e) m.keys) := by
  have hne := keys_ne_nil_of_keyOf h
  have hfold : m.keys.foldlM (fun (ps : Parameters) k => (m.keyValue E e k).map fun v =>
      ps.insert k.name (d.bindValue v)) {} = .ok (.ofProperties d (E.get? e) m.keys) := by
    refine foldlM_eq_ok (fun k hk ps => ?_) Parameters.empty
    obtain ⟨v, -, hget, hnull, -, -⟩ := keyedValue_of_keyOf h k hk
    rw [keyValue_eq_ok_iff.mpr ⟨hget, hnull⟩, hget]
    rfl
  unfold entityKeyParameters
  split
  · next hkeys => exact absurd hkeys hne
  · exact hfold

/-! ## The same values under the same names -/

/-- The parameters of a key, collected from an entity and from the key that was given. -/
structure BindsAlike (m : Mapping) (d : Dialect) (E : Entity ε) (e : ε) (own given : Parameters) :
    Prop where
  /-- From the entity, the names are those of the key properties in their order. -/
  names_own : own.names = namesOf m.keys
  /-- From the key that was given, they are the same. -/
  names_given : given.names = namesOf m.keys
  /-- One of them has the value of the entity, and the other one that value as a part of a key. -/
  values : ∀ k ∈ m.keys, ∃ v v', E.get? e k.name = some v ∧ v.IsKeyedAs v' ∧
    own.get? k.name = some (d.bindValue v) ∧ given.get? k.name = some (d.bindValue v') ∧
    (d ∈ Dialect.all.map (·.2) → (d.bindValue v).IsKeyedAs (d.bindValue v'))

theorem bindsAlike_of_keyOf (d : Dialect) (hbuilt : m.IsBuilt) {key : Key}
    (h : m.keyOf E e = .ok key) :
    m.BindsAlike d E e (.ofProperties d (E.get? e) m.keys)
      (.ofProperties d (keyedValue E e) m.keys) := by
  have hnames (value : String → Option Value) :
      (Parameters.ofProperties d value m.keys).names = namesOf m.keys := by
    unfold Parameters.names
    rw [Parameters.entries_ofProperties d value hbuilt.nodup_keys, List.map_map]
    rfl
  refine ⟨hnames _, hnames _, fun k hk => ?_⟩
  obtain ⟨v, v', hget, -, hkeyed, hvalue⟩ := keyedValue_of_keyOf h k hk
  have hbound (value : String → Option Value) :
      (Parameters.ofProperties d value m.keys).get? k.name =
        some (d.bindValue ((value k.name).getD .null)) := by
    refine (Parameters.areValues_ofProperties d value m.keys).1.get? k.name ?_
    rw [hnames]
    exact List.mem_map_of_mem hk
  refine ⟨v, v', hget, hkeyed, ?_, ?_, fun hd => Dialect.isKeyedAs_bindValue hd hkeyed⟩
  · rw [hbound, hget, Option.getD_some]
  · rw [hbound, hvalue, Option.getD_some]

end Mapping

end EntitySql
