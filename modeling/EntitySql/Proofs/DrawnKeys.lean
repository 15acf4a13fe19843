/-
  What becomes of the keys that an insertion draws.

  Whatever has no value gets the next identifier (`filled_eq_ok`), in the type of its property. From
  then on only the generated key is changed (`EndsInsertion.of_ok`), so that the entity still has
  the value when its key is read, and the statement that was sent binds this value where it lists
  the property (`Statement.Inserts`). Which properties it lists does not depend on which keys are
  drawn: a key that may only be read is drawn and answered, and it is not sent
  (`insert_keeps_read_only_key_back`).
-/
import EntitySql.Proofs.InsertionEffects
import Mathlib.Data.List.Nodup

namespace EntitySql

open Mapping (namesOf)

/-! ## Keys that are stored -/

/-- A change of a key property stores the value in it, converted to its type, if the entity has the
    property, and leaves the other properties as they are. -/
structure Entity.StoresKeys {ε : Type} (E : Entity ε) (m : Mapping)
    (types : String → Option ValueType) : Prop where
  /-- If the property has a value then, it is the converted one. -/
  changed : ∀ {e e' : ε} {name : String} {v v' : Value}, name ∈ namesOf m.keys →
    E.set e name v = .ok e' → E.get? e' name = some v' → Field.stored (types name) v = .ok v'
  /-- Another property has the value that it had. -/
  unchanged : E.KeepsOthers (· ∈ namesOf m.keys)

namespace RecordType

theorem lookup_put_of_ne {name other : String} (h : other ≠ name) (v : Value) (r : Record) :
    (put name v r).lookup other = r.lookup other := by
  induction r with
  | nil => rfl
  | cons field r ih =>
    obtain ⟨n, w⟩ := field
    unfold put
    by_cases hn : n = name
    · have hother : (other == n) = false := beq_eq_false_iff_ne.mpr (hn ▸ h)
      rw [if_pos hn, List.lookup_cons, List.lookup_cons, hother]
    · rw [if_neg hn, List.lookup_cons, List.lookup_cons, ih]

theorem lookup_put_self {name : String} {v v' : Value} {r : Record}
    (h : (put name v r).lookup name = some v') : v' = v := by
  induction r with
  | nil => cases h
  | cons field r ih =>
    obtain ⟨n, w⟩ := field
    unfold put at h
    by_cases hn : n = name
    · rw [if_pos hn, List.lookup_cons, beq_iff_eq.mpr hn.symm] at h
      exact (Option.some.inj h).symm
    · rw [if_neg hn, List.lookup_cons, beq_eq_false_iff_ne.mpr (Ne.symm hn)] at h
      exact ih h

/-- A change stores the converted value in the field of that name. Without such a field it is passed
    over, if it does not fail. -/
theorem set_cases {t : RecordType} {owner name : String} {r r' : Record} {v : Value}
    (h : t.set owner r name v = .ok r') :
    (∃ f v', t.fields.find? (·.name == name) = some f ∧ Field.stored f.type v = .ok v' ∧
      r' = put name v' r) ∨
    (t.fields.find? (·.name == name) = none ∧ t.lenient = true ∧ r' = r) := by
  unfold RecordType.set at h
  cases hf : t.fields.find? (·.name == name) with
  | some f =>
    rw [hf] at h
    obtain ⟨v', hv', rfl⟩ := map_eq_ok_iff.mp h
    exact .inl ⟨f, v', rfl, hv', rfl⟩
  | none =>
    rw [hf] at h
    cases hlenient : t.lenient with
    | false =>
      rw [hlenient] at h
      cases h
    | true =>
      rw [hlenient] at h
      cases h
      exact .inr ⟨rfl, rfl, rfl⟩

/-- The type of a field, if it has one. -/
def typeOf (t : RecordType) (name : String) : Option ValueType :=
  (t.fields.find? (·.name == name)).bind (·.type)

/-- Records store their keys, unless they pass over a change of a key that is none of their
    fields. -/
theorem storesKeys (t : RecordType) (type : EntityType) {m : Mapping}
    (h : t.lenient = false ∨ namesOf m.keys ⊆ t.fields.map (·.name)) :
    (t.entityOf type).StoresKeys m t.typeOf := by
  have hset {name : String} (hname : name ∈ namesOf m.keys) {r r' : Record} {v : Value}
      (hr : t.set type.name r name v = .ok r') :
      ∃ v', Field.stored (t.typeOf name) v = .ok v' ∧ r' = put name v' r := by
    rcases set_cases hr with ⟨f, v', hf, hv', rfl⟩ | ⟨hf, hlenient, -⟩
    · refine ⟨v', ?_, rfl⟩
      unfold typeOf
      rw [hf]
      exact hv'
    · rcases h with hstrict | hfields
      · rw [hstrict] at hlenient
        cases hlenient
      · obtain ⟨f, hfield, hfname⟩ := List.mem_map.mp (hfields hname)
        exact absurd (beq_iff_eq.mpr hfname) (List.find?_eq_none.mp hf f hfield)
  refine ⟨fun {r r' name v v'} hname hr hget => ?_, fun r r' name v hname hr other hother => ?_⟩
  · obtain ⟨w, hw, rfl⟩ := hset hname hr
    rw [lookup_put_self hget]
    exact hw
  · obtain ⟨w, -, rfl⟩ := hset hname hr
    exact lookup_put_of_ne hother w r

end RecordType

/-- An identifier is converted to itself or to its text. -/
theorem ValueType.eq_of_convert_uuid {t : ValueType} {u : Uuid} {v : Value}
    (h : t.convert (.uuid u) = .ok v) : v = .uuid u ∨ v = .text u.text := by
  unfold convert at h
  induction t with
  | text =>
    cases h
    exact .inr rfl
  | sharedText =>
    cases h
    exact .inr rfl
  | uuid =>
    cases h
    exact .inl rfl
  | option t ih =>
    obtain ⟨x, hx, rfl⟩ := map_eq_ok_iff.mp h
    obtain ⟨y, hy, rfl⟩ := map_eq_ok_iff.mp hx
    exact ih (map_eq_ok_iff.mpr ⟨y, hy, rfl⟩)
  | _ => cases h

/-- A key that an identifier is stored in has a value, unless the identifier is nil. -/
theorem Inserting.isUnset_of_stored {type : Option ValueType} {u : Uuid} {v : Value}
    (h : Field.stored type (.uuid u) = .ok v) (hu : u.isNil = false) :
    isUnset (some v) = false := by
  have hv : v = .uuid u ∨ v = .text u.text := by
    cases type with
    | none => exact .inl (Except.ok.inj h).symm
    | some t => exact ValueType.eq_of_convert_uuid h
  rcases hv with rfl | rfl
  · exact hu
  · rfl

/-! ## Keys that are drawn -/

/-- The value of a key to be drawn when the keys have been drawn. -/
inductive Database.KeyValue {σ ε : Type} (db : Database σ) (E : Entity ε) (m : Mapping)
    (types : String → Option ValueType) (n : Nat) (e : ε) (k : PropertyMapping) : Value → Prop where
  /-- It had this value before, and nothing is drawn for it. -/
  | own {v : Value} (hset : Inserting.isUnset (E.get? e k.name) = false)
      (hundrawn : k.name ∉ (db.drawnKeys E m n e).map (·.1)) (hv : E.get? e k.name = some v) :
      KeyValue db E m types n e k v
  /-- It had no value, and the identifier that is drawn for it is stored in its type. -/
  | drawn {u : Uuid} {v : Value} (hunset : Inserting.isUnset (E.get? e k.name) = true)
      (hdrawn : (k.name, .uuid u) ∈ db.drawnKeys E m n e)
      (hv : Field.stored (types k.name) (.uuid u) = .ok v)
      (hset : Inserting.isUnset (some v) = false) : KeyValue db E m types n e k v

/-- An identifier is drawn for each of the given keys that has no value. -/
theorem mem_drawings_of_unset {ε : Type} (ids : IdentifierSource) {E : Entity ε} {e : ε}
    {ks : List PropertyMapping} {k : PropertyMapping} (hk : k ∈ ks)
    (hunset : Inserting.isUnset (E.get? e k.name) = true) (n : Nat) :
    ∃ i, (k.name, .uuid (ids i)) ∈ drawings ids E e ks n := by
  have hmem : k ∈ ks.filter fun k => Inserting.isUnset (E.get? e k.name) :=
    List.mem_filter.mpr ⟨hk, hunset⟩
  obtain ⟨i, hi, hget⟩ := List.getElem_of_mem hmem
  refine ⟨n + i, List.mem_mapIdx.mpr ⟨i, hi, ?_⟩⟩
  rw [hget]

theorem not_mem_drawings_of_set {ε : Type} (ids : IdentifierSource) {E : Entity ε} {e : ε}
    {name : String} (hset : Inserting.isUnset (E.get? e name) = false) (ks : List PropertyMapping)
    (n : Nat) : name ∉ (drawings ids E e ks n).map (·.1) := by
  rw [map_fst_drawings]
  intro hname
  obtain ⟨k, hk, rfl⟩ := List.mem_map.mp hname
  rw [(List.mem_filter.mp hk).2] at hset
  cases hset

/-- When keys with different names have been filled, what is drawn for them has been stored, and
    nothing else has been changed. -/
theorem Inserting.filled_eq_ok {ε : Type} {E : Entity ε} {m : Mapping}
    {types : String → Option ValueType} (hE : E.StoresKeys m types) {ids : IdentifierSource}
    {ks : List PropertyMapping} (hks : ks ⊆ m.keys) (hnodup : (namesOf ks).Nodup)
    {n n' : Nat} {e e' : ε} (h : filled ids E ks n e = (.ok (), n', e')) :
    n' = n + (drawings ids E e ks n).length ∧
      (∀ change ∈ drawings ids E e ks n, ∀ v, E.get? e' change.1 = some v →
        Field.stored (types change.1) change.2 = .ok v) ∧
      ∀ name, name ∉ (drawings ids E e ks n).map (·.1) → E.get? e' name = E.get? e name := by
  have hnames : ∀ k ∈ ks, k.name ∈ namesOf m.keys := fun k hk =>
    List.mem_map_of_mem (hks hk)
  rcases filled_eq hE.unchanged ids hnames hnodup n e with
    ⟨e₁, hstored, hfilled⟩ | ⟨before, change, rest, e₁, cause, -, -, -, hfilled⟩
  · rw [h] at hfilled
    cases hfilled
    have hfst := map_fst_drawings ids E e ks n
    have hdrawn : ∀ change ∈ drawings ids E e ks n, change.1 ∈ namesOf m.keys := by
      intro change hchange
      have hname : change.1 ∈ (drawings ids E e ks n).map (·.1) := List.mem_map_of_mem hchange
      rw [hfst] at hname
      obtain ⟨k, hk, hname⟩ := List.mem_map.mp hname
      exact hname ▸ hnames k (List.mem_filter.mp hk).1
    have hdrawnNodup : ((drawings ids E e ks n).map (·.1)).Nodup := by
      rw [hfst]
      exact hnodup.sublist (List.filter_sublist.map _)
    refine ⟨rfl, fun change hchange v hget => ?_, fun name =>
      Entity.KeepsOthers.unchanged_setAll hE.unchanged hdrawn hstored⟩
    obtain ⟨e₁, e₂, hset, hlast⟩ :=
      Entity.KeepsOthers.changed_setAll hE.unchanged hdrawn hstored hdrawnNodup hchange
    exact hE.changed (hdrawn change hchange) hset (hlast ▸ hget)
  · rw [h] at hfilled
    cases hfilled

/-- What the keys to be drawn have when an insertion has drawn them. -/
theorem Database.keyValue_of_filled {σ ε : Type} (db : Database σ) {E : Entity ε} {m : Mapping}
    {types : String → Option ValueType} (hE : E.StoresKeys m types) (hbuilt : m.IsBuilt)
    (hids : ∀ n, (db.identifiers n).isNil = false) {n n' : Nat} {e e' : ε}
    (h : Inserting.filled db.identifiers E (m.keys.filter (·.key == .guid)) n e =
      (.ok (), n', e')) :
    n' = n + (db.drawnKeys E m n e).length ∧
      ∀ k ∈ m.keys, k.key = .guid → ∀ v, E.get? e' k.name = some v →
        db.KeyValue E m types n e k v := by
  have hnodup : (namesOf (m.keys.filter (·.key == .guid))).Nodup :=
    hbuilt.nodup_keys.sublist (List.filter_sublist.map _)
  obtain ⟨hcount, hdrawn, hkept⟩ :=
    Inserting.filled_eq_ok hE List.filter_sublist.subset hnodup h
  refine ⟨hcount, fun k hk hguid v hget => ?_⟩
  cases hunset : Inserting.isUnset (E.get? e k.name) with
  | false =>
    have hundrawn := not_mem_drawings_of_set db.identifiers hunset
      (m.keys.filter (·.key == .guid)) n
    rw [hkept k.name hundrawn] at hget
    exact .own hunset hundrawn hget
  | true =>
    have hmem : k ∈ m.keys.filter (·.key == .guid) :=
      List.mem_filter.mpr ⟨hk, beq_iff_eq.mpr hguid⟩
    obtain ⟨i, hi⟩ := mem_drawings_of_unset db.identifiers hmem hunset n
    have hstored := hdrawn _ hi v hget
    exact .drawn hunset hi hstored (Inserting.isUnset_of_stored hstored (hids i))

/-! ## Keys that are answered -/

/-- The part of a key that stands for a key property: the whole key for the only one, or else the
    part of its name. -/
inductive Key.Answers (key : Key) (m : Mapping) (k : PropertyMapping) : Key → Prop where
  /-- There is no other key property. -/
  | whole (hkeys : m.keys = [k]) : Answers key m k key
  /-- The parts have the names of the key properties, in order. -/
  | part {parts : List (String × Key)} {part : Key} (hkey : key = .composite parts)
      (hnames : parts.map (·.1) = namesOf m.keys) (hpart : (k.name, part) ∈ parts) :
      Answers key m k part

/-- The key of an entity is made of what its key properties have. -/
theorem Mapping.answers_of_keyOf {ε : Type} {m : Mapping} {E : Entity ε} {e : ε} {key : Key}
    (h : m.keyOf E e = .ok key) {k : PropertyMapping} (hk : k ∈ m.keys) :
    ∃ v part, E.get? e k.name = some v ∧ Key.ofValue v = .ok part ∧ key.Answers m k part := by
  obtain ⟨parts, hparts, -, hkey⟩ := parts_of_keyOf h
  obtain ⟨hnames, hall⟩ := parts_of_mapM hparts
  obtain ⟨⟨name, part⟩, hmem, hpart⟩ := hall k hk
  obtain ⟨v, hv, hpart⟩ := bind_eq_ok_iff.mp hpart
  obtain ⟨hget, -⟩ := keyValue_eq_ok_iff.mp (mapError_eq_ok_iff.mp hv)
  obtain ⟨part', hof, hpart⟩ := bind_eq_ok_iff.mp hpart
  cases hpart
  refine ⟨v, part, hget, hof, ?_⟩
  rcases hkey with ⟨name, rfl⟩ | rfl
  · cases List.mem_singleton.mp hmem
    obtain ⟨k', hkeys, -⟩ := List.map_eq_singleton_iff.mp hnames.symm
    rw [hkeys] at hk
    cases List.mem_singleton.mp hk
    exact .whole hkeys
  · exact .part rfl hnames hmem

/-! ## Insertions that succeed -/

namespace Mapping

/-- Properties of the same name are the same. -/
theorem IsBuilt.eq_of_name {m : Mapping} (h : m.IsBuilt) {p q : PropertyMapping}
    (hp : p ∈ m.columns) (hq : q ∈ m.columns) (hname : p.name = q.name) : p = q :=
  List.inj_on_of_nodup_map h.nodup_columns hp hq hname

variable {ε : Type} {m : Mapping} {E : Entity ε} {e e' : ε}

/-- The key that an insertion answers is that of the entity as it leaves it, which has the generated
    key. -/
theorem EndsInsertion.of_ok {answer : Except Error RowSet} {result : Except Error Key}
    (h : m.EndsInsertion E e answer result e') {key : Key} (hok : result = .ok key) :
    m.keyOf E e' = .ok key ∧
      (e' = e ∨ ∃ k id, m.identity? = some k ∧ E.set e k.name (.int64 id) = .ok e') := by
  cases h with
  | failed | untold | refused => cases hok
  | complete => exact ⟨hok, .inl rfl⟩
  | taken hk _ hset => exact ⟨hok, .inr ⟨_, _, hk, hset⟩⟩

/-- The generated key is the only property that is changed after the keys have been drawn. -/
theorem EndsInsertion.get?_of_ok {types : String → Option ValueType} (hE : E.StoresKeys m types)
    (hbuilt : m.IsBuilt) {answer : Except Error RowSet} {key : Key}
    (h : m.EndsInsertion E e answer (.ok key) e') {p : PropertyMapping} (hp : p ∈ m.columns)
    (hkind : p.key ≠ .identity) : E.get? e' p.name = E.get? e p.name := by
  rcases (h.of_ok rfl).2 with rfl | ⟨k, id, hk, hset⟩
  · rfl
  have hkey : k ∈ m.keys := List.mem_of_find?_eq_some hk
  have hidentity : k.key = .identity := by
    have hkind := List.find?_some hk
    exact eq_of_beq hkind
  refine hE.unchanged (List.mem_map_of_mem hkey) hset p.name fun hname => hkind ?_
  rw [hbuilt.eq_of_name hp (List.mem_filter.mp hkey).1 hname, hidentity]

end Mapping

/-- The values of the listed properties are all that is bound. -/
theorem Statement.Inserts.congr {st : Statement} {d : Dialect} {m : Mapping}
    {value value' : String → Option Value} {tail : String} (h : st.Inserts d m value tail)
    (hvalue : ∀ p ∈ m.insertable, value' p.name = value p.name) : st.Inserts d m value' tail := by
  refine ⟨h.fits, ?_⟩
  rw [h.bound]
  exact List.map_congr_left fun p hp => by rw [hvalue p hp]

/-- An insertion that succeeds has drawn its keys, handed over the insertion of the entity with
    them and ended by the answer. -/
theorem Database.insert_ok {σ ε : Type} {db : Database σ} {E : Entity ε}
    {a : Session (σ × List Request)} {m : Mapping}
    (hc : a.workspace.catalog.IsCoherent db.setting.dialect)
    (hm : db.setting.mappings a.workspace.catalog E.type = .ok m) (hbuilt : m.IsBuilt) {e : ε}
    {key : Key} {x : Insertion (σ × List Request) ε}
    (hrun : db.watched.insert E ⟨a, e⟩ = .ok key x) :
    ∃ e₁ r rest answer,
      Inserting.filled db.identifiers E (m.keys.filter (·.key == .guid)) a.drawn e =
        (.ok (), x.session.drawn, e₁) ∧
      x.session.executor.2 = a.executor.2 ++ r :: rest ∧
      r.statement.Inserts db.setting.dialect m (E.get? e₁) (m.identityTail db.setting.dialect) ∧
      (∀ r' ∈ rest, r'.statement.AsksIdentity db.setting.dialect) ∧
      m.EndsInsertion E e₁ answer (.ok key) x.entity := by
  obtain ⟨p, e₁, hprepared, -, -, hends⟩ := db.watched.prepared_of_insert hc hm hrun
  obtain ⟨hfilled, r, rest, hlist, hinserts, hasks⟩ :=
    (Database.insertsInto hc hm hbuilt e).sent p _ e₁ hprepared
  rw [hrun] at hlist
  exact ⟨e₁, r, rest, _, hfilled, hlist, hinserts, hasks, hends⟩

/-- What an insertion that succeeds makes of the value of a key property. -/
structure Mapping.InsertsKey {ε : Type} (m : Mapping) (d : Dialect) (E : Entity ε) (e : ε)
    (key : Key) (sent : Statement) (k : PropertyMapping) (v : Value) : Prop where
  /-- The entity has it. -/
  held : E.get? e k.name = some v
  /-- It is answered, as the key or as the part for the property. -/
  answered : ∃ part, Key.ofValue v = .ok part ∧ key.Answers m k part
  /-- A column that may be written is listed, and it is bound to the value. -/
  listed : k.readOnly = false →
    k ∈ m.insertable ∧ sent.parameters.get? k.name = some (d.bindValue v)
  /-- A column that may only be read is not listed, and nothing is bound to it. -/
  unlisted : k.readOnly = true → k ∉ m.insertable ∧ k.name ∉ sent.parameters.names

/-- The key properties that are listed are those that the database does not generate and that may be
    written. -/
theorem Mapping.insertsKey {ε : Type} {m : Mapping} {d : Dialect} {E : Entity ε} {e : ε}
    {key : Key} {st : Statement} {tail : String} (hbuilt : m.IsBuilt)
    (hinserts : st.Inserts d m (E.get? e) tail) (hkey : m.keyOf E e = .ok key)
    {k : PropertyMapping} (hk : k ∈ m.keys) (hkind : k.key ≠ .identity) :
    ∃ v, m.InsertsKey d E e key st k v := by
  obtain ⟨v, part, hget, hof, hanswers⟩ := answers_of_keyOf hkey hk
  have hcolumn : k ∈ m.columns := (List.mem_filter.mp hk).1
  refine ⟨v, hget, ⟨part, hof, hanswers⟩, fun hwritable => ?_, fun hreadOnly => ⟨?_, ?_⟩⟩
  · have hlisted : k ∈ m.insertable := mem_insertable_iff.mpr ⟨hcolumn, hwritable, hkind⟩
    have hentry : (k.name, d.bindValue v) ∈ st.parameters.entries := by
      rw [hinserts.bound]
      refine List.mem_map.mpr ⟨k, hlisted, ?_⟩
      rw [hget, Option.getD_some]
    exact ⟨hlisted, Parameters.get?_of_mem hinserts.fits.nodup hentry⟩
  · rw [mem_insertable_iff, hreadOnly]
    exact fun hlisted => Bool.noConfusion hlisted.2.1
  · rw [← hinserts.fits.closed]
    intro hname
    obtain ⟨p, hp, hname⟩ := List.mem_map.mp hname
    obtain ⟨hp, hwritable, -⟩ := mem_insertable_iff.mp hp
    rw [hbuilt.eq_of_name hp hcolumn hname, hreadOnly] at hwritable
    cases hwritable

/-- For every dialect, every catalog that can be reached, every mapping that is built, every entity
    that stores its keys and every supply of identifiers that are not nil: when an insertion
    succeeds, a key to be drawn that had no value has the identifier that was drawn for it, in its
    own type, and one that had a value has kept it, with nothing drawn. It is answered, as the key
    or as its part. Where its column may be written, the insertion that was handed over lists the
    column and binds this value. Where it may only be read, the value is answered all the same, and
    the insertion does not list it. -/
theorem drawn_keys_are_answered {σ ε : Type} (db : Database σ) (E : Entity ε)
    (hids : ∀ n, (db.identifiers n).isNil = false) (a : Session (σ × List Request))
    (hreached : a.workspace.catalog.IsReached db.setting.dialect) {m : Mapping}
    (hm : db.setting.mappings a.workspace.catalog E.type = .ok m) (hbuilt : m.IsBuilt)
    {types : String → Option ValueType} (hE : E.StoresKeys m types) (e : ε) {key : Key}
    {x : Insertion (σ × List Request) ε} (hrun : db.watched.insert E ⟨a, e⟩ = .ok key x) :
    x.session.drawn = a.drawn + (db.drawnKeys E m a.drawn e).length ∧
      ∃ r rest, x.session.executor.2 = a.executor.2 ++ r :: rest ∧
        r.statement.Inserts db.setting.dialect m (E.get? x.entity)
          (m.identityTail db.setting.dialect) ∧
        (∀ r' ∈ rest, r'.statement.AsksIdentity db.setting.dialect) ∧
        ∀ k ∈ m.keys, k.key = .guid → ∃ v, db.KeyValue E m types a.drawn e k v ∧
          m.InsertsKey db.setting.dialect E x.entity key r.statement k v := by
  obtain ⟨e₁, r, rest, answer, hfilled, hlist, hinserts, hasks, hends⟩ :=
    Database.insert_ok hreached.isCoherent hm hbuilt hrun
  obtain ⟨hcount, hvalues⟩ := db.keyValue_of_filled hE hbuilt hids hfilled
  have hinserted : r.statement.Inserts db.setting.dialect m (E.get? x.entity)
      (m.identityTail db.setting.dialect) := by
    refine hinserts.congr fun p hp => ?_
    obtain ⟨hcolumn, -, hkind⟩ := Mapping.mem_insertable_iff.mp hp
    exact hends.get?_of_ok hE hbuilt hcolumn hkind
  refine ⟨hcount, r, rest, hlist, hinserted, hasks, fun k hk hguid => ?_⟩
  have hkind : k.key ≠ .identity := by
    rw [hguid]
    decide
  obtain ⟨v, hv⟩ := Mapping.insertsKey hbuilt hinserted (hends.of_ok rfl).1 hk hkind
  have hheld := hv.held
  rw [hends.get?_of_ok hE hbuilt (List.mem_filter.mp hk).1 hkind] at hheld
  exact ⟨v, hvalues k hk hguid v hheld, hv⟩

/-! ## Samples -/

namespace Samples

/-- Badges, with three keys to be drawn. The database writes the seal. -/
def badge : RecordType where
  table := "badge"
  fields :=
    [⟨"token", some .uuid, none⟩, ⟨"seal", some .uuid, none⟩,
     ⟨"batch", some (.option .uuid), none⟩, ⟨"name", some .text, none⟩]
  steps :=
    [.insert { name := "token", key := .guid },
     .insert { name := "seal", key := .guid, readOnly := true },
     .insert { name := "batch", key := .guid }, .insert { name := "name" }]

/-- Badges of a database that takes identifiers as texts. -/
def badges : Database Recorder where
  setting := { dialect := .sqlite, model := fun _ => badge.mapping }
  identifiers n := ⟨if n = 0 then 0xA else 0xB⟩
  executor := Recorder.executor

/-- The type of badges. -/
def badgeType : Entity Record := badge.entityOf ⟨"Badge"⟩

/-- A badge whose batch is known. -/
def newBadge : Record :=
  [("token", .uuid .nil), ("seal", .uuid .nil), ("batch", .uuid ⟨7⟩), ("name", .text "b")]

/-- The key of the badge when it is inserted. -/
def badgeKey : Key :=
  .composite [("token", .uuid ⟨0xA⟩), ("seal", .uuid ⟨0xB⟩), ("batch", .uuid ⟨7⟩)]

/-- Its insertion. -/
def badgeInsertion : Statement where
  sql := "INSERT INTO \"badge\" (\"token\", \"batch\", \"name\") VALUES (@token, @batch, @name)"
  parameters :=
    ⟨[("token", .text (Uuid.text ⟨0xA⟩)), ("batch", .text (Uuid.text ⟨7⟩)), ("name", .text "b")]⟩

theorem isNil_badges (n : Nat) : (badges.identifiers n).isNil = false := by
  unfold badges
  dsimp only
  split <;> rfl

end Samples

/-- A token and a seal are drawn for the badge, and its batch stays as it is. All three are
    answered, and the seal is not sent. -/
theorem drawn_keys_are_answered_badge :
    (∀ n, (Samples.badges.identifiers n).isNil = false) ∧
      Samples.badgeType.StoresKeys Samples.badge.mapping Samples.badge.typeOf ∧
      Samples.badges.drawnKeys Samples.badgeType Samples.badge.mapping 0 Samples.newBadge =
        [("token", .uuid ⟨0xA⟩), ("seal", .uuid ⟨0xB⟩)] ∧
      ∃ x, Samples.badges.watched.insert Samples.badgeType ⟨Samples.fresh, Samples.newBadge⟩ =
          .ok Samples.badgeKey x ∧
        x.session.executor.2 = [.count Samples.badgeInsertion] ∧ x.session.drawn = 2 ∧
        ∀ k ∈ Samples.badge.mapping.keys, ∃ v,
          Samples.badges.KeyValue Samples.badgeType Samples.badge.mapping Samples.badge.typeOf 0
            Samples.newBadge k v ∧
          Samples.badge.mapping.InsertsKey .sqlite Samples.badgeType x.entity Samples.badgeKey
            Samples.badgeInsertion k v := by
  have hstores := Samples.badge.storesKeys ⟨"Badge"⟩ (m := Samples.badge.mapping) (.inl rfl)
  have hguids : ∀ k ∈ Samples.badge.mapping.keys, k.key = .guid := by decide
  obtain ⟨x, hx, hlist⟩ : ∃ x, Samples.badges.watched.insert Samples.badgeType
      ⟨Samples.fresh, Samples.newBadge⟩ = .ok Samples.badgeKey x ∧
      x.session.executor.2 = [.count Samples.badgeInsertion] := ⟨_, rfl, rfl⟩
  obtain ⟨hcount, r, rest, hrequests, -, -, hkeys⟩ := drawn_keys_are_answered Samples.badges
    Samples.badgeType Samples.isNil_badges Samples.fresh .empty (m := Samples.badge.mapping) rfl
    Samples.badge.isBuilt_mapping hstores Samples.newBadge hx
  rw [hlist] at hrequests
  cases hrequests
  exact ⟨Samples.isNil_badges, hstores, rfl, x, hx, hlist, hcount,
    fun k hk => hkeys k hk (hguids k hk)⟩

namespace Samples

/-- Passes, whose key is to be drawn and may only be read. -/
def pass : RecordType where
  table := "pass"
  fields := [⟨"id", some .uuid, none⟩, ⟨"name", some .text, none⟩]
  steps := [.insert { name := "id", key := .guid, readOnly := true }, .insert { name := "name" }]

/-- Passes. -/
def passes : Database Recorder where
  setting := { dialect := .generic, model := fun _ => pass.mapping }
  identifiers _ := ⟨0xA⟩
  executor := Recorder.executor

/-- The type of passes. -/
def passType : Entity Record := pass.entityOf ⟨"Pass"⟩

end Samples

/-- An identifier that was drawn and answered is not always sent. -/
theorem insert_keeps_read_only_key_back :
    ¬ ∀ k ∈ Samples.pass.mapping.keys, k.key = .guid → ∀ key x,
      Samples.passes.watched.insert Samples.passType ⟨Samples.fresh, Samples.pass.fresh⟩ =
        .ok key x →
      ∃ r ∈ x.session.executor.2, k.name ∈ r.statement.parameters.names := by
  intro h
  obtain ⟨r, hr, hname⟩ := h _ (List.mem_cons_self ..) rfl (.uuid ⟨0xA⟩) _ rfl
  cases List.mem_singleton.mp hr
  revert hname
  decide

end EntitySql
