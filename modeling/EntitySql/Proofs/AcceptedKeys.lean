/-
  The keys that are accepted when an entity is looked up.

  A key fits a mapping when it tells the value of every key property and names no other one
  (`Mapping.Fits`). A key that does not fit fails one of the checks, which are made in a fixed order
  (`Mapping.RefusesKey`), so that there is no third way for a key to end (`Mapping.fits_or_refuses`).
  From this both directions follow: a key that fits is bound (`Mapping.Fits.accepted`), a key that
  fails a check is refused with that check (`Mapping.RefusesKey.refused`), and as a key is not both
  bound and refused, nothing else is (`Mapping.keyParameters_eq_error_iff`).
-/
import EntitySql.Proofs.ReturnedKeys

namespace EntitySql

/-! ## Parts of keys -/

namespace Key

/-- What a key holds for a property: its first part of that name, or the whole of a key without
    parts. -/
def partFor? (key : Key) (name : String) : Option Key :=
  match key with
  | .composite parts => parts.lookup name
  | key => some key

theorem partFor?_eq_none_iff {parts : List (String × Key)} {name : String} :
    (composite parts).partFor? name = none ↔ name ∉ parts.map (·.1) := by
  have hlookup : (composite parts).partFor? name = parts.lookup name := rfl
  rw [hlookup, List.lookup_eq_none_iff, List.mem_map]
  constructor
  · rintro hnone ⟨part, hpart, rfl⟩
    simpa using hnone part hpart
  · intro hnot part hpart
    rw [bne_iff_ne]
    rintro rfl
    exact hnot ⟨part, hpart, rfl⟩

/-- A key holds a value for a property, which is not made of parts in turn. -/
def Supplies (key : Key) (name : String) (v : Value) : Prop :=
  ∃ part, key.partFor? name = some part ∧ part.toValue? = some v

theorem supplies_iff {key : Key} {name : String} {v : Value} :
    key.Supplies name v ↔ key.valueOf? name = some v := by
  have hvalue : key.valueOf? name = (key.partFor? name).bind toValue? := by
    cases key <;> rfl
  rw [hvalue, Option.bind_eq_some_iff]
  exact Iff.rfl

theorem exists_toValue?_iff {key : Key} :
    (∃ v, key.toValue? = some v) ↔ key.isComposite = false := by
  cases key <;> simp [toValue?, isComposite]

end Key

/-! ## Keys that fit -/

namespace Mapping

/-- The key tells the value of every key property and names no other one. -/
inductive Fits (m : Mapping) : Key → Prop where
  /-- A key without parts, for the only key property. -/
  | single {key : Key} {k : PropertyMapping} (hkey : key.isComposite = false)
      (hkeys : m.keys = [k]) : Fits m key
  /-- Parts that have together the names of the key properties; the first part of each name is not
      made of parts in turn. A mapping without key properties fits no key. -/
  | parts {parts : List (String × Key)} (hne : m.keys ≠ [])
      (hnames : ∀ name, name ∈ parts.map (·.1) ↔ name ∈ namesOf m.keys)
      (hfirst : ∀ k ∈ m.keys, ∃ v, (Key.composite parts).Supplies k.name v) :
      Fits m (.composite parts)

/-- The first check that a key fails, by what it is refused with. -/
inductive RefusesKey (m : Mapping) : Key → QueryError → Prop where
  /-- There is no key property. -/
  | noKeys {key : Key} (hkeys : m.keys = []) : RefusesKey m key (.noKeys m.entity)
  /-- A key without parts cannot stand for several key properties. -/
  | several {key : Key} (hkey : key.isComposite = false) (hkeys : 2 ≤ m.keys.length) :
      RefusesKey m key (.keyMismatch m.entity (.compositeRequired m.keys.length))
  /-- A part is named that is no key property; those in front of it are. -/
  | stranger {before after : List (String × Key)} {name : String} {part : Key} (hne : m.keys ≠ [])
      (hbefore : ∀ known ∈ before, known.1 ∈ namesOf m.keys) (hname : name ∉ namesOf m.keys) :
      RefusesKey m (.composite (before ++ (name, part) :: after))
        (.keyMismatch m.entity (.notAKey name))
  /-- A key property has no part; those in front of it have values. -/
  | missing {parts : List (String × Key)} {before after : List PropertyMapping}
      {k : PropertyMapping} (hknown : ∀ part ∈ parts, part.1 ∈ namesOf m.keys)
      (hkeys : m.keys = before ++ k :: after)
      (hbefore : ∀ k' ∈ before, ∃ v, (Key.composite parts).Supplies k'.name v)
      (hpart : k.name ∉ parts.map (·.1)) :
      RefusesKey m (.composite parts) (.keyMismatch m.entity (.missing k.name))
  /-- The first part of a key property is made of parts in turn; the key properties in front of it
      have values. -/
  | nested {parts inner : List (String × Key)} {before after : List PropertyMapping}
      {k : PropertyMapping} (hknown : ∀ part ∈ parts, part.1 ∈ namesOf m.keys)
      (hkeys : m.keys = before ++ k :: after)
      (hbefore : ∀ k' ∈ before, ∃ v, (Key.composite parts).Supplies k'.name v)
      (hpart : (Key.composite parts).partFor? k.name = some (.composite inner)) :
      RefusesKey m (.composite parts) (.unsupported .compositeValue)

/-- One entry for each key property, in their order, with what is bound for the value that the key
    holds for it. -/
def BindsParts (m : Mapping) (d : Dialect) (key : Key) (ps : Parameters) : Prop :=
  List.Forall₂ (fun (k : PropertyMapping) (entry : String × Value) =>
    ∃ v, key.Supplies k.name v ∧ entry = (k.name, d.bindValue v)) m.keys ps.entries

variable {m : Mapping} {d : Dialect} {key : Key} {fault : QueryError} {ps : Parameters}

/-! ## Each key ends in one way -/

/-- All members of a list have a property, or there is a first one without it. -/
theorem forall_or_first {α : Type} (P : α → Prop) (xs : List α) :
    (∀ x ∈ xs, P x) ∨
      ∃ before x after, xs = before ++ x :: after ∧ (∀ y ∈ before, P y) ∧ ¬P x := by
  induction xs with
  | nil => exact .inl fun x hx => absurd hx List.not_mem_nil
  | cons x xs ih =>
    by_cases hx : P x
    · rcases ih with hall | ⟨before, y, after, rfl, hbefore, hy⟩
      · exact .inl (List.forall_mem_cons.mpr ⟨hx, hall⟩)
      · exact .inr ⟨x :: before, y, after, rfl, List.forall_mem_cons.mpr ⟨hx, hbefore⟩, hy⟩
    · exact .inr ⟨[], x, xs, rfl, fun y hy => absurd hy List.not_mem_nil, hx⟩

/-- Parts whose names are known fit, or fail for the first key property that has no value. -/
theorem fits_or_refuses_parts {parts : List (String × Key)} (hne : m.keys ≠ [])
    (hknown : ∀ part ∈ parts, part.1 ∈ namesOf m.keys) :
    m.Fits (.composite parts) ∨ ∃ fault, m.RefusesKey (.composite parts) fault := by
  rcases forall_or_first (fun k => ∃ v, (Key.composite parts).Supplies k.name v) m.keys with
    hall | ⟨before, k, after, hkeys, hbefore, hk⟩
  · refine .inl (.parts hne (fun name => ⟨fun hname => ?_, fun hname => ?_⟩) hall)
    · obtain ⟨part, hpart, rfl⟩ := List.mem_map.mp hname
      exact hknown part hpart
    · obtain ⟨k, hk, rfl⟩ := List.mem_map.mp hname
      obtain ⟨v, part, hpart, -⟩ := hall k hk
      by_contra hnot
      rw [Key.partFor?_eq_none_iff.mpr hnot] at hpart
      cases hpart
  · refine .inr ?_
    cases hpart : (Key.composite parts).partFor? k.name with
    | none =>
      exact ⟨_, .missing hknown hkeys hbefore (Key.partFor?_eq_none_iff.mp hpart)⟩
    | some part =>
      cases part with
      | composite inner => exact ⟨_, .nested hknown hkeys hbefore hpart⟩
      | _ => exact absurd ⟨_, _, hpart, rfl⟩ hk

/-- A key fits or fails a check. -/
theorem fits_or_refuses (m : Mapping) (key : Key) :
    m.Fits key ∨ ∃ fault, m.RefusesKey key fault := by
  cases hkeys : m.keys with
  | nil => exact .inr ⟨_, .noKeys hkeys⟩
  | cons k ks =>
    have hne : m.keys ≠ [] := by
      rw [hkeys]
      exact List.cons_ne_nil k ks
    cases key with
    | composite parts =>
      rcases forall_or_first (·.1 ∈ namesOf m.keys) parts with
        hknown | ⟨before, ⟨name, part⟩, after, rfl, hbefore, hname⟩
      · exact fits_or_refuses_parts hne hknown
      · exact .inr ⟨_, .stranger hne hbefore hname⟩
    | _ =>
      cases ks with
      | nil => exact .inl (.single rfl hkeys)
      | cons k' ks =>
        have hlength : 2 ≤ m.keys.length := by
          rw [hkeys, List.length_cons, List.length_cons]
          omega
        exact .inr ⟨_, .several rfl hlength⟩

/-! ## Keys that are bound -/

theorem bindPart_of_supplies {parts : List (String × Key)} {k : PropertyMapping}
    (h : ∃ v, (Key.composite parts).Supplies k.name v) (ps : Parameters) :
    m.bindPart d parts ps k = .ok
      (ps.insert k.name (d.bindValue (((Key.composite parts).valueOf? k.name).getD .null))) := by
  obtain ⟨v, hv⟩ := h
  rw [Key.supplies_iff.mp hv, Option.getD_some]
  obtain ⟨part, hpart, hv⟩ := hv
  exact bindPart_of_lookup hpart hv ps

/-- A key that fits is accepted. -/
theorem Fits.accepted (h : m.Fits key) (d : Dialect) : ∃ ps, m.keyParameters d key = .ok ps := by
  cases h with
  | single hkey hkeys =>
    obtain ⟨v, hv⟩ := Key.exists_toValue?_iff.mpr hkey
    exact ⟨_, keyParameters_of_toValue? d hkeys hv⟩
  | @parts parts hne hnames hfirst =>
    have hknown : ∀ part ∈ parts, part.1 ∈ namesOf m.keys := fun part hpart =>
      (hnames part.1).mp (List.mem_map_of_mem hpart)
    rw [keyParameters_of_known d hne hknown]
    exact ⟨_, foldlM_eq_ok (fun k hk => bindPart_of_supplies (hfirst k hk)) _⟩

/-- What is bound for a key is what it holds for each key property. -/
theorem bindsParts_of_keyParameters (hbuilt : m.IsBuilt) (h : m.keyParameters d key = .ok ps) :
    m.BindsParts d key ps := by
  have hkey := bindsKey_given h
  unfold BindsParts
  rw [hkey.bound, Parameters.entries_ofProperties d _ hbuilt.nodup_keys,
    List.forall₂_map_right_iff, List.forall₂_same]
  intro k hk
  obtain ⟨v, hv, -⟩ := hkey.value k hk
  refine ⟨v, Key.supplies_iff.mpr hv, ?_⟩
  rw [hv, Option.getD_some]

/-! ## Keys that are refused -/

/-- A collection fails with its first step that does. -/
theorem foldlM_eq_error {α β ε : Type} {g : β → α → Except ε β} {f : β → α → β}
    {before after : List α} {x : α} {cause : ε}
    (hbefore : ∀ y ∈ before, ∀ b, g b y = .ok (f b y)) (hx : ∀ b, g b x = .error cause) (b : β) :
    (before ++ x :: after).foldlM g b = .error cause := by
  rw [List.foldlM_append, foldlM_eq_ok hbefore]
  change (x :: after).foldlM g (before.foldl f b) = .error cause
  rw [List.foldlM_cons, hx]
  rfl

theorem keyParameters_of_bindPart {parts : List (String × Key)}
    {before after : List PropertyMapping} {k : PropertyMapping} {fault : QueryError}
    (hknown : ∀ part ∈ parts, part.1 ∈ namesOf m.keys) (hkeys : m.keys = before ++ k :: after)
    (hbefore : ∀ k' ∈ before, ∃ v, (Key.composite parts).Supplies k'.name v)
    (hk : ∀ ps, m.bindPart d parts ps k = .error fault) :
    m.keyParameters d (.composite parts) = .error fault := by
  have hne : m.keys ≠ [] := by simp [hkeys]
  rw [keyParameters_of_known d hne hknown, hkeys]
  exact foldlM_eq_error (fun k' hk' => bindPart_of_supplies (hbefore k' hk')) hk _

/-- A key that fails a check is refused with it. -/
theorem RefusesKey.refused (h : m.RefusesKey key fault) (d : Dialect) :
    m.keyParameters d key = .error fault := by
  cases h with
  | noKeys hkeys =>
    unfold keyParameters
    rw [hkeys]
  | several hkey hkeys =>
    unfold keyParameters
    match hm : m.keys with
    | [] => simp [hm] at hkeys
    | [k] => simp [hm] at hkeys
    | k :: k' :: ks =>
      cases key with
      | composite parts => cases hkey
      | _ => rfl
  | @stranger before after name part hne hbefore hname =>
    have hfind : ((before ++ (name, part) :: after).find? fun part =>
        !m.keys.any (·.name == part.1)) = some (name, part) := by
      refine List.find?_eq_some_iff_append.mpr ⟨by simpa using hname, before, after, rfl, ?_⟩
      intro known hknown
      simpa using hbefore known hknown
    unfold keyParameters
    cases hkeys : m.keys with
    | nil => exact absurd hkeys hne
    | cons k ks =>
      rw [hkeys] at hfind
      dsimp only
      rw [hfind]
  | @missing parts before after k hknown hkeys hbefore hpart =>
    refine keyParameters_of_bindPart hknown hkeys hbefore fun ps => ?_
    have hlookup : parts.lookup k.name = none := Key.partFor?_eq_none_iff.mpr hpart
    unfold bindPart
    rw [hlookup]
  | @nested parts inner before after k hknown hkeys hbefore hpart =>
    refine keyParameters_of_bindPart hknown hkeys hbefore fun ps => ?_
    have hlookup : parts.lookup k.name = some (.composite inner) := hpart
    unfold bindPart
    rw [hlookup]
    rfl

/-- The keys that are accepted are those that fit. -/
theorem fits_iff (m : Mapping) (d : Dialect) (key : Key) :
    m.Fits key ↔ ∃ ps, m.keyParameters d key = .ok ps := by
  refine ⟨fun h => h.accepted d, fun ⟨ps, hps⟩ => ?_⟩
  refine (m.fits_or_refuses key).resolve_right fun ⟨fault, hfault⟩ => ?_
  cases hps.symm.trans (hfault.refused d)

/-- A key is refused with the first check that it fails. -/
theorem keyParameters_eq_error_iff (m : Mapping) (d : Dialect) (key : Key) (fault : QueryError) :
    m.keyParameters d key = .error fault ↔ m.RefusesKey key fault := by
  refine ⟨fun h => ?_, fun h => h.refused d⟩
  rcases m.fits_or_refuses key with hfits | ⟨fault', hfault'⟩
  · obtain ⟨ps, hps⟩ := hfits.accepted d
    cases hps.symm.trans h
  · cases (hfault'.refused d).symm.trans h
    exact hfault'

end Mapping

/-! ## Calls -/

theorem Exchange.get_of_refuses {ε : Type} {s : Setting} {c : Catalog} {E : Entity ε} {m : Mapping}
    (hm : s.mappings c E.type = .ok m) {key : Key} {fault : QueryError}
    (h : m.RefusesKey key fault) : Exchange.get s c E key = .error (.query fault) := by
  unfold Exchange.get
  rw [hm]
  dsimp only [bind, Except.bind]
  rw [h.refused s.dialect]
  rfl

/-- For every mapping that is built and every key: the keys that are accepted are those that fit.
    What is bound for them has one entry for each key property, in their order, with the value of
    the first part of its name. All other keys are refused with the first check that they fail. A
    look-up hands over one request with these parameters, or ends with this fault and hands over
    nothing. -/
theorem only_fitting_keys_are_accepted {m : Mapping} (hbuilt : m.IsBuilt) (key : Key) :
    (∀ d : Dialect,
      (m.Fits key ↔ ∃ ps, m.keyParameters d key = .ok ps) ∧
      (∀ ps, m.keyParameters d key = .ok ps → m.BindsParts d key ps) ∧
      ∀ fault, m.keyParameters d key = .error fault ↔ m.RefusesKey key fault) ∧
    ∀ {σ ε : Type} (db : Database σ) (E : Entity ε) (a : Session (σ × List Request)),
      db.setting.mappings a.workspace.catalog E.type = .ok m →
      (m.Fits key → ∃ ex, Act.HandsOver db.executor (db.watched.get E key) a (.ok ex) ∧
        m.keyParameters db.setting.dialect key = .ok ex.statement.parameters ∧
        m.BindsParts db.setting.dialect key ex.statement.parameters) ∧
      ∀ fault, m.RefusesKey key fault →
        ∃ w, db.watched.get E key a = .error (.query fault) { a with workspace := w } := by
  refine ⟨fun d => ⟨m.fits_iff d key, fun ps h => Mapping.bindsParts_of_keyParameters hbuilt h,
    m.keyParameters_eq_error_iff d key⟩, ?_⟩
  intro σ ε db E a hm
  have hsent : Act.HandsOver db.executor (db.watched.get E key) a
      (Exchange.get db.setting a.workspace.catalog E key) :=
    (db.watched.sendsOnce_get E a key).handsOver
  refine ⟨fun hfits => ?_, fun fault hfault => ?_⟩
  · obtain ⟨ps, hps⟩ := hfits.accepted db.setting.dialect
    obtain ⟨ex, rfl, hex⟩ := Exchange.get_of_keyParameters hm hps
    rw [hex] at hsent
    exact ⟨ex, hsent, hps, Mapping.bindsParts_of_keyParameters hbuilt hps⟩
  · exact (hsent.refused _ (Exchange.get_of_refuses hm hfault)).2

namespace Samples

/-- The key of a parcel with a name that comes twice. -/
def repeatedKey : Key :=
  .composite [("token", .uuid .nil), ("shop", .int64 4), ("number", .int64 70),
    ("token", .composite [])]

/-- The key with these two parts exchanged. -/
def nestedKey : Key :=
  .composite [("token", .composite []), ("shop", .int64 4), ("number", .int64 70),
    ("token", .uuid .nil)]

end Samples

/-- Of two parts with the same name the first one decides whether a key is accepted, and what is
    bound. -/
theorem only_fitting_keys_are_accepted_parcel :
    (∃ ex, Act.HandsOver Samples.parcels.executor
        (Samples.parcels.watched.get Samples.parcelType Samples.repeatedKey) Samples.fresh
        (.ok ex) ∧
      ex.statement.parameters =
        ⟨[("shop", .int64 4), ("number", .int64 70), ("token", .text Uuid.nil.text)]⟩) ∧
    ∃ w, Samples.parcels.watched.get Samples.parcelType Samples.nestedKey Samples.fresh =
      .error (.query (.unsupported .compositeValue)) { Samples.fresh with workspace := w } := by
  constructor
  · obtain ⟨hcheck, hcall⟩ := only_fitting_keys_are_accepted Samples.parcel.isBuilt_mapping
      Samples.repeatedKey
    have hfits := (hcheck .sqlite).1.mpr ⟨_, rfl⟩
    obtain ⟨ex, hex, hps, -⟩ := (hcall Samples.parcels Samples.parcelType Samples.fresh
      Samples.mappings_parcel).1 hfits
    exact ⟨ex, hex, (Except.ok.inj hps).symm⟩
  · obtain ⟨hcheck, hcall⟩ := only_fitting_keys_are_accepted Samples.parcel.isBuilt_mapping
      Samples.nestedKey
    have hrefuses := ((hcheck .sqlite).2.2 (.unsupported .compositeValue)).mp rfl
    exact (hcall Samples.parcels Samples.parcelType Samples.fresh Samples.mappings_parcel).2 _
      hrefuses

end EntitySql
