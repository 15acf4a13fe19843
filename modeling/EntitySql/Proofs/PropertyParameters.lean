/-
  The parameters that the properties of a mapping become.

  The parameters of several properties are collected one by one from a function that tells their
  values (`Parameters.ofProperties`). Whatever is collected, each name is there once and has the
  value that is told of it (`AreValues`), also when two collections are put together
  (`AreValues.extend`). The parameters of a key are such a collection, from the values of an entity
  (`bindsKey_entity`) or from the key that was given (`bindsKey_given`), and none of its values is
  missing.
-/
import EntitySql.Database
import EntitySql.Proofs.BuiltMappings
import EntitySql.Proofs.FreshNames
import EntitySql.Proofs.View

namespace EntitySql

/-- Where names differ, each of them is looked up to what stands beside it. -/
theorem lookup_of_mem {β : Type} {entries : List (String × β)} (h : (entries.map (·.1)).Nodup)
    {entry : String × β} (hentry : entry ∈ entries) :
    entries.lookup entry.1 = some entry.2 := by
  induction entries with
  | nil => cases hentry
  | cons e entries ih =>
    rw [List.map_cons, List.nodup_cons] at h
    rw [List.lookup_cons]
    rcases List.mem_cons.mp hentry with rfl | hentry
    · rw [beq_self_eq_true]
    · have hne : entry.1 ≠ e.1 := fun he => h.1 (he ▸ List.mem_map_of_mem hentry)
      rw [beq_eq_false_iff_ne.mpr hne]
      exact ih h.2 hentry

/-! ## Values that are bound -/

/-- The dialects of databases bind values as they are, or with the texts of their identifiers. -/
theorem Dialect.bindValue_eq {d : Dialect} (hd : d ∈ Dialect.all.map (·.2)) :
    d.bindValue = id ∨ d.bindValue = uuidsAsText := by
  simp only [Dialect.all, List.map_cons, List.map_nil, List.mem_cons, List.not_mem_nil,
    or_false] at hd
  rcases hd with rfl | rfl | rfl | rfl | rfl | rfl
  · exact .inl rfl
  · exact .inl rfl
  · exact .inr rfl
  · exact .inr rfl
  · exact .inl rfl
  · exact .inl rfl

/-! ## Parameters of properties -/

namespace Parameters

theorem names_insert (ps : Parameters) (name : String) (v : Value) :
    (ps.insert name v).names = Mapping.withName ps.names name := by
  unfold insert names
  dsimp only
  induction ps.entries with
  | nil => rfl
  | cons entry entries ih =>
    unfold put
    by_cases hn : entry.1 = name
    · rw [if_pos hn, List.map_cons, List.map_cons, hn, Mapping.withName_head]
    · rw [if_neg hn, List.map_cons, List.map_cons, Mapping.withName_cons hn, ih]

theorem get?_insert (ps : Parameters) (name : String) (v : Value) (name' : String) :
    (ps.insert name v).get? name' = if name' = name then some v else ps.get? name' := by
  unfold insert get?
  dsimp only
  induction ps.entries with
  | nil =>
    by_cases h : name' = name
    · simp [put, h]
    · simp [put, h, List.lookup_cons, beq_eq_false_iff_ne.mpr h]
  | cons entry entries ih =>
    unfold put
    by_cases hn : entry.1 = name
    · rw [if_pos hn, List.lookup_cons, List.lookup_cons]
      by_cases h : name' = name
      · simp [h, hn]
      · simp [h, hn, beq_eq_false_iff_ne.mpr h]
    · rw [if_neg hn, List.lookup_cons, List.lookup_cons, ih]
      by_cases h : name' = name
      · simp [h, beq_eq_false_iff_ne.mpr (Ne.symm hn)]
      · simp [h]

theorem get?_of_mem {ps : Parameters} (h : ps.names.Nodup) {entry : String × Value}
    (hentry : entry ∈ ps.entries) : ps.get? entry.1 = some entry.2 := lookup_of_mem h hentry

/-- Each name is there once, and has what is bound for the value that is told of it. -/
structure AreValues (d : Dialect) (value : String → Option Value) (ps : Parameters) : Prop where
  /-- The names differ. -/
  nodup : ps.names.Nodup
  /-- The value of a name. -/
  get? : ∀ n ∈ ps.names, ps.get? n = some (d.bindValue ((value n).getD .null))

section

variable {d : Dialect} {value : String → Option Value} {ps : Parameters}

theorem areValues_empty : AreValues d value {} := ⟨List.nodup_nil, fun n hn => by cases hn⟩

theorem AreValues.insert (h : ps.AreValues d value) (name : String) :
    (ps.insert name (d.bindValue ((value name).getD .null))).AreValues d value := by
  refine ⟨?_, fun n hn => ?_⟩
  · rw [names_insert]
    exact Mapping.nodup_withName h.nodup name
  · rw [get?_insert]
    by_cases hname : n = name
    · rw [if_pos hname, hname]
    · rw [if_neg hname]
      rw [names_insert, Mapping.mem_withName] at hn
      exact h.get? n (hn.resolve_right hname)

/-- Insertions of what is told keep to what is told, and add the names inserted. -/
theorem AreValues.foldl {α : Type} (name : α → String) (bound : α → Value) (xs : List α)
    (hxs : ∀ x ∈ xs, bound x = d.bindValue ((value (name x)).getD .null))
    (h : ps.AreValues d value) :
    (xs.foldl (fun ps x => ps.insert (name x) (bound x)) ps).AreValues d value ∧
      ∀ n, n ∈ (xs.foldl (fun ps x => ps.insert (name x) (bound x)) ps).names ↔
        n ∈ ps.names ∨ n ∈ xs.map name := by
  induction xs generalizing ps with
  | nil => exact ⟨h, by simp⟩
  | cons x xs ih =>
    rw [List.forall_mem_cons] at hxs
    have hinsert := h.insert (name x)
    rw [← hxs.1] at hinsert
    obtain ⟨hvalues, hnames⟩ := ih hxs.2 hinsert
    refine ⟨hvalues, fun n => ?_⟩
    rw [List.foldl_cons, hnames, names_insert, Mapping.mem_withName, List.map_cons, List.mem_cons,
      or_assoc]

theorem AreValues.value_of_mem (h : ps.AreValues d value) {entry : String × Value}
    (hentry : entry ∈ ps.entries) : entry.2 = d.bindValue ((value entry.1).getD .null) := by
  have hget := h.get? entry.1 (List.mem_map_of_mem hentry)
  rw [get?_of_mem h.nodup hentry] at hget
  exact Option.some.inj hget

/-- Two collections of what is told, put together. -/
theorem AreValues.extend {others : Parameters} (h : ps.AreValues d value)
    (hothers : others.AreValues d value) :
    (ps.extend others).AreValues d value ∧
      ∀ n, n ∈ (ps.extend others).names ↔ n ∈ ps.names ∨ n ∈ others.names :=
  h.foldl Prod.fst Prod.snd others.entries fun _ hentry => hothers.value_of_mem hentry

end

/-- The parameters of several properties, collected in order. -/
def ofProperties (d : Dialect) (value : String → Option Value) (qs : List PropertyMapping) :
    Parameters :=
  qs.foldl (fun ps q => ps.insert q.name (d.bindValue ((value q.name).getD .null))) {}

theorem areValues_ofProperties (d : Dialect) (value : String → Option Value)
    (qs : List PropertyMapping) :
    (ofProperties d value qs).AreValues d value ∧
      ∀ n, n ∈ (ofProperties d value qs).names ↔ n ∈ Mapping.namesOf qs := by
  have hempty : ({} : Parameters).AreValues d value := areValues_empty
  obtain ⟨hvalues, hnames⟩ := hempty.foldl (·.name)
    (fun q => d.bindValue ((value q.name).getD .null)) qs fun _ _ => rfl
  refine ⟨hvalues, fun n => (hnames n).trans ?_⟩
  simp [names]

/-- Properties with different names become parameters in their order. -/
theorem entries_ofProperties (d : Dialect) (value : String → Option Value)
    {qs : List PropertyMapping} (h : (Mapping.namesOf qs).Nodup) :
    (ofProperties d value qs).entries =
      qs.map fun q => (q.name, d.bindValue ((value q.name).getD .null)) := by
  have hfold : ∀ (qs : List PropertyMapping) (ps : Parameters),
      (ps.names ++ Mapping.namesOf qs).Nodup →
      (qs.foldl (fun ps q => ps.insert q.name (d.bindValue ((value q.name).getD .null))) ps).entries =
        ps.entries ++ qs.map fun q => (q.name, d.bindValue ((value q.name).getD .null)) := by
    intro qs
    induction qs with
    | nil => simp
    | cons q qs ih =>
      intro ps hps
      have hnew : q.name ∉ ps.names := by
        intro hmem
        exact (List.nodup_append.mp hps).2.2 q.name hmem q.name (by simp) rfl
      have hinsert : ps.insert q.name (d.bindValue ((value q.name).getD .null)) =
          ⟨ps.entries ++ [(q.name, d.bindValue ((value q.name).getD .null))]⟩ :=
        congrArg Parameters.mk (put_of_not_mem hnew)
      rw [List.foldl_cons, ih _ ?_, hinsert]
      · simp
      · rw [hinsert]
        simpa [names] using hps
  exact hfold qs {} h

end Parameters

/-! ## Parameters of keys -/

/-- The value that a key holds for a property: its part of that name, or the whole of a key without
    parts. -/
def Key.valueOf? (key : Key) (name : String) : Option Value :=
  match key with
  | .composite parts => (parts.lookup name).bind Key.toValue?
  | key => key.toValue?

theorem Key.isNull_of_toValue? {key : Key} {v : Value} (h : key.toValue? = some v) :
    v.isNull = false := by
  cases key with
  | composite parts => cases h
  | _ =>
    cases h
    rfl

/-- A collection that may fail is one that does not, and each step of it has succeeded. -/
theorem foldlM_eq_foldl {α β ε : Type} {g : β → α → Except ε β} {f : β → α → β} {P : α → Prop}
    {xs : List α} (hg : ∀ x ∈ xs, ∀ b b', g b x = .ok b' → b' = f b x ∧ P x) {b b' : β}
    (h : xs.foldlM g b = .ok b') : b' = xs.foldl f b ∧ ∀ x ∈ xs, P x := by
  induction xs generalizing b with
  | nil =>
    cases h
    exact ⟨rfl, by simp⟩
  | cons x xs ih =>
    rw [List.forall_mem_cons] at hg
    rw [List.foldlM_cons] at h
    obtain ⟨b₁, hb₁, h⟩ := bind_eq_ok_iff.mp h
    obtain ⟨rfl, hx⟩ := hg.1 b b₁ hb₁
    obtain ⟨hb', hxs⟩ := ih hg.2 h
    exact ⟨hb', List.forall_mem_cons.mpr ⟨hx, hxs⟩⟩

namespace Mapping

/-- The parameters of a whole key: each of its properties has a value and is bound. -/
structure BindsKey (m : Mapping) (d : Dialect) (value : String → Option Value) (ps : Parameters) :
    Prop where
  /-- There is a key property. -/
  nonempty : m.keys ≠ []
  /-- The parameters are those of the key properties. -/
  bound : ps = Parameters.ofProperties d value m.keys
  /-- No key property is without a value. -/
  value : ∀ k ∈ m.keys, ∃ v, value k.name = some v ∧ v.isNull = false

variable {m : Mapping} {d : Dialect} {ps : Parameters}

/-- A key property has a value when it is there and holds something. -/
theorem keyValue_eq_ok_iff {ε : Type} {E : Entity ε} {e : ε} {k : PropertyMapping} {v : Value} :
    m.keyValue E e k = .ok v ↔ E.get? e k.name = some v ∧ v.isNull = false := by
  unfold keyValue
  cases E.get? e k.name with
  | none => simp
  | some w =>
    have hsome (hw : w.isNull = false) :
        (Except.ok w : Except QueryError Value) = .ok v ↔ some w = some v ∧ v.isNull = false := by
      simp only [Except.ok.injEq, Option.some.injEq]
      exact ⟨fun h => ⟨h, h ▸ hw⟩, And.left⟩
    cases w with
    | null =>
      constructor
      · intro h
        cases h
      · rintro ⟨h, hnull⟩
        cases h
        cases hnull
    | _ => exact hsome rfl

/-- The key of an entity is bound from its values. -/
theorem bindsKey_entity {ε : Type} {E : Entity ε} {e : ε}
    (h : m.entityKeyParameters d E e = .ok ps) : m.BindsKey d (E.get? e) ps := by
  have hstep (k : PropertyMapping) (ps ps' : Parameters)
      (hk : ((m.keyValue E e k).map fun v => ps.insert k.name (d.bindValue v)) = .ok ps') :
      ps' = ps.insert k.name (d.bindValue ((E.get? e k.name).getD .null)) ∧
        ∃ v, E.get? e k.name = some v ∧ v.isNull = false := by
    obtain ⟨v, hv, rfl⟩ := map_eq_ok_iff.mp hk
    obtain ⟨hget, hnull⟩ := keyValue_eq_ok_iff.mp hv
    rw [hget]
    exact ⟨rfl, v, rfl, hnull⟩
  unfold entityKeyParameters at h
  have hne : m.keys ≠ [] := by
    intro hkeys
    rw [hkeys] at h
    cases h
  have hfold : m.keys.foldlM (fun ps k => (m.keyValue E e k).map fun v =>
      ps.insert k.name (d.bindValue v)) {} = .ok ps := by
    split at h
    · cases h
    · exact h
  obtain ⟨hps, hvalues⟩ := foldlM_eq_foldl (fun k _ => hstep k) hfold
  exact ⟨hne, hps, hvalues⟩

/-- The parameters with one more: what the first part of its name holds for a key property. -/
def bindPart (m : Mapping) (d : Dialect) (parts : List (String × Key)) (ps : Parameters)
    (k : PropertyMapping) : Except QueryError Parameters :=
  match parts.lookup k.name with
  | none => .error (.keyMismatch m.entity (.missing k.name))
  | some part =>
    match part.toValue? with
    | none => .error (.unsupported .compositeValue)
    | some v => .ok (ps.insert k.name (d.bindValue v))

theorem bindPart_of_lookup {parts : List (String × Key)} {k : PropertyMapping} {part : Key}
    {v : Value} (hpart : parts.lookup k.name = some part) (hv : part.toValue? = some v)
    (ps : Parameters) : m.bindPart d parts ps k = .ok (ps.insert k.name (d.bindValue v)) := by
  unfold bindPart
  rw [hpart]
  dsimp only
  rw [hv]

theorem bindPart_eq_ok {parts : List (String × Key)} {k : PropertyMapping} {ps ps' : Parameters}
    (h : m.bindPart d parts ps k = .ok ps') :
    ∃ v, (Key.composite parts).valueOf? k.name = some v ∧ v.isNull = false ∧
      ps' = ps.insert k.name (d.bindValue v) := by
  have hvalue : (Key.composite parts).valueOf? k.name =
      (parts.lookup k.name).bind Key.toValue? := rfl
  unfold bindPart at h
  cases hpart : parts.lookup k.name with
  | none =>
    rw [hpart] at h
    cases h
  | some part =>
    rw [hpart] at h
    dsimp only at h
    cases hv : part.toValue? with
    | none =>
      rw [hv] at h
      cases h
    | some v =>
      rw [hv] at h
      cases h
      refine ⟨v, ?_, Key.isNull_of_toValue? hv, rfl⟩
      rw [hvalue, hpart, Option.bind_some, hv]

/-- Parts that are called like key properties are bound one key property after the other. -/
theorem keyParameters_of_known (d : Dialect) {parts : List (String × Key)} (hne : m.keys ≠ [])
    (hknown : ∀ part ∈ parts, part.1 ∈ namesOf m.keys) :
    m.keyParameters d (.composite parts) = m.keys.foldlM (m.bindPart d parts) {} := by
  have hfind : (parts.find? fun part => !m.keys.any (·.name == part.1)) = none := by
    rw [List.find?_eq_none]
    intro part hpart
    obtain ⟨k, hk, hname⟩ := List.mem_map.mp (hknown part hpart)
    simpa using ⟨k, hk, hname⟩
  unfold keyParameters
  cases hkeys : m.keys with
  | nil => exact absurd hkeys hne
  | cons k ks =>
    rw [hkeys] at hfind
    dsimp only
    rw [hfind]
    refine congrArg (fun step => (k :: ks).foldlM step Parameters.empty) ?_
    funext ps k'
    unfold bindPart
    cases parts.lookup k'.name with
    | none => rfl
    | some part =>
      cases part with
      | composite inner => rfl
      | _ => rfl

/-- A key without parts is bound to the only key property. -/
theorem keyParameters_of_toValue? (d : Dialect) {k : PropertyMapping} (hkeys : m.keys = [k])
    {key : Key} {v : Value} (hkey : key.toValue? = some v) :
    m.keyParameters d key = .ok (Parameters.empty.insert k.name (d.bindValue v)) := by
  unfold keyParameters
  rw [hkeys]
  cases key with
  | composite parts => cases hkey
  | _ =>
    cases hkey
    rfl

/-- A key without parts is that of the only key property. -/
theorem bindsKey_single {key : Key} {v : Value} (hv : key.toValue? = some v)
    (hvalue : ∀ name, key.valueOf? name = some v) {k : PropertyMapping} (hkeys : m.keys = [k]) :
    m.BindsKey d key.valueOf? (Parameters.empty.insert k.name (d.bindValue v)) := by
  refine ⟨by simp [hkeys], ?_, ?_⟩
  · rw [hkeys]
    unfold Parameters.ofProperties
    rw [List.foldl_cons, List.foldl_nil, hvalue]
    rfl
  · rw [hkeys]
    simpa [hvalue] using Key.isNull_of_toValue? hv

/-- In a key that is accepted, all parts are called like key properties. -/
theorem known_of_keyParameters {parts : List (String × Key)}
    (h : m.keyParameters d (.composite parts) = .ok ps) :
    m.keys ≠ [] ∧ ∀ part ∈ parts, part.1 ∈ namesOf m.keys := by
  unfold keyParameters at h
  cases hkeys : m.keys with
  | nil =>
    rw [hkeys] at h
    cases h
  | cons k ks =>
    rw [hkeys] at h
    dsimp only at h
    split at h
    · cases h
    · next hfind =>
      refine ⟨List.cons_ne_nil k ks, fun part hpart => ?_⟩
      have hknown := List.find?_eq_none.mp hfind part hpart
      rw [Bool.not_eq_true', Bool.not_eq_false, List.any_eq_true] at hknown
      obtain ⟨k', hk', hname⟩ := hknown
      exact List.mem_map.mpr ⟨k', hk', beq_iff_eq.mp hname⟩

theorem bindsKey_parts {parts : List (String × Key)}
    (h : m.keyParameters d (.composite parts) = .ok ps) :
    m.BindsKey d (Key.composite parts).valueOf? ps := by
  obtain ⟨hne, hknown⟩ := known_of_keyParameters h
  rw [keyParameters_of_known d hne hknown] at h
  have hstep (k : PropertyMapping) (ps ps' : Parameters)
      (hk : m.bindPart d parts ps k = .ok ps') :
      ps' = ps.insert k.name (d.bindValue (((Key.composite parts).valueOf? k.name).getD .null)) ∧
        ∃ v, (Key.composite parts).valueOf? k.name = some v ∧ v.isNull = false := by
    obtain ⟨v, hv, hnull, rfl⟩ := bindPart_eq_ok hk
    rw [hv]
    exact ⟨rfl, v, rfl, hnull⟩
  obtain ⟨hps, hvalues⟩ := foldlM_eq_foldl (fun k _ => hstep k) h
  exact ⟨hne, hps, hvalues⟩

/-- A key that was given is bound from its parts, or as a whole. -/
theorem bindsKey_given {key : Key} (h : m.keyParameters d key = .ok ps) :
    m.BindsKey d key.valueOf? ps := by
  cases key with
  | composite parts => exact bindsKey_parts h
  | _ =>
    unfold keyParameters at h
    match hkeys : m.keys with
    | [] =>
      rw [hkeys] at h
      cases h
    | [k] =>
      rw [hkeys] at h
      cases h
      exact bindsKey_single rfl (fun _ => rfl) hkeys
    | k :: k' :: ks =>
      rw [hkeys] at h
      cases h

end Mapping

end EntitySql
