/-
  What a property holds and the value that stands for it.

  A value that stands for something is read as something that it stands for
  (`ValueType.convert_toValue`), by induction on the type. So a value that was converted once is
  converted to itself (`ValueType.convert_convert`). What is read is what was written wherever no two
  things have one value (`ValueType.toValue_injective`); two do only when an option is the content of
  an option, where a missing content and a content that is missing are both no value.

  A property with a type takes back its own value, whether it is a field of its own
  (`Entity.TypedProperty`) or one of a record (`RecordType.IsTyped`). Changes of a record keep it
  such (`RecordType.isTyped_set`, `RecordType.isTyped_setAll`).
-/
import EntitySql.Proofs.DrawnKeys
import Mathlib.Data.List.Forall2

namespace EntitySql

/-! ## Lists -/

/-- A list is read as another one when each member is read as the one in its place. -/
theorem mapM_eq_ok_iff {α β ε : Type} {f : α → Except ε β} {xs : List α} {ys : List β} :
    xs.mapM f = .ok ys ↔ List.Forall₂ (fun x y => f x = .ok y) xs ys := by
  induction xs generalizing ys with
  | nil =>
    rw [List.forall₂_nil_left_iff]
    exact ⟨fun h => (Except.ok.inj h).symm, fun h => h ▸ rfl⟩
  | cons x xs ih =>
    rw [List.mapM_cons, List.forall₂_cons_left_iff]
    constructor
    · intro h
      obtain ⟨y, hy, h⟩ := bind_eq_ok_iff.mp h
      obtain ⟨ys', hys, h⟩ := bind_eq_ok_iff.mp h
      exact ⟨y, ys', hy, ih.mp hys, (Except.ok.inj h).symm⟩
    · rintro ⟨y, ys', hy, hys, rfl⟩
      exact bind_eq_ok_iff.mpr ⟨y, hy, bind_eq_ok_iff.mpr ⟨ys', ih.mpr hys, rfl⟩⟩

/-! ## Integers -/

namespace IntegerType

theorem ofInt_val {t : IntegerType} (i : t.Range) : t.ofInt i.val = .ok i := by
  unfold ofInt
  rw [dif_pos i.property]

/-- The value of an integer is read as this integer. -/
theorem read_toValue {t : IntegerType} (i : t.Range) :
    t.read (ValueType.toValue (.integer t) i) = .ok i.val := by
  obtain ⟨i, hleast, hgreatest⟩ := i
  change t.read (if t.isWide then .int64 (Int64.ofInt i) else .int32 (Int32.ofInt i)) = .ok i
  cases hwide : t.isWide with
  | true =>
    obtain ⟨hlower, hupper⟩ := t.int64_bounds
    have hint : (Int64.ofInt i).toInt = i := Int64.toInt_ofInt_of_le (by omega) (by omega)
    exact congrArg Except.ok hint
  | false =>
    obtain ⟨hlower, hupper⟩ := int32_bounds hwide
    have hint : (Int32.ofInt i).toInt = i := Int32.toInt_ofInt_of_le (by omega) (by omega)
    exact congrArg Except.ok hint

end IntegerType

/-! ## Types -/

namespace ValueType

/-- Whether a value of the type may be missing. -/
def isOption : ValueType → Bool
  | .option _ => true
  | _ => false

/-- Whether an option is the content of an option, at any depth. -/
def nestsOptions : ValueType → Bool
  | .option t => t.isOption || t.nestsOptions
  | .list t => t.nestsOptions
  | _ => false

/-- What is not missing is read as such. -/
theorem ofValue_option {t : ValueType} {v : Value} (h : v ≠ .null) :
    (option t).ofValue v = (t.ofValue v).map some := by
  cases v with
  | null => exact absurd rfl h
  | _ => rfl

theorem ofValue_toValue_integer (t : IntegerType) (x : (integer t).Carrier) :
    (integer t).ofValue ((integer t).toValue x) = .ok x := by
  have hread := congrArg (fun r => r.bind t.ofInt) (IntegerType.read_toValue x)
  exact hread.trans (IntegerType.ofInt_val x)

theorem mapM_ofValue_map_toValue {t : ValueType}
    (h : ∀ x, ∃ y, t.ofValue (t.toValue x) = .ok y ∧ t.toValue y = t.toValue x)
    (xs : List t.Carrier) :
    ∃ ys, (xs.map t.toValue).mapM t.ofValue = .ok ys ∧ ys.map t.toValue = xs.map t.toValue := by
  choose read hread hvalue using h
  refine ⟨xs.map read, mapM_eq_ok_iff.mpr ?_, ?_⟩
  · rw [List.forall₂_map_left_iff, List.forall₂_map_right_iff, List.forall₂_same]
    exact fun x _ => hread x
  · rw [List.map_map]
    exact List.map_congr_left fun x _ => hvalue x

/-- The value of something is read as something with this value. -/
theorem ofValue_toValue (t : ValueType) (x : t.Carrier) :
    ∃ y, t.ofValue (t.toValue x) = .ok y ∧ t.toValue y = t.toValue x := by
  induction t with
  | integer t => exact ⟨x, ofValue_toValue_integer t x, rfl⟩
  | option t ih =>
    cases x with
    | none => exact ⟨none, rfl, rfl⟩
    | some x =>
      change ∃ y, (option t).ofValue (t.toValue x) = .ok y ∧ (option t).toValue y = t.toValue x
      by_cases hnull : t.toValue x = .null
      · -- the content is missing, and so is the option that is read
        rw [hnull]
        exact ⟨none, rfl, rfl⟩
      · obtain ⟨y, hy, hvalue⟩ := ih x
        rw [ofValue_option hnull, hy]
        exact ⟨some y, rfl, hvalue⟩
  | list t ih =>
    obtain ⟨ys, hys, hvalues⟩ := mapM_ofValue_map_toValue ih x
    exact ⟨ys, hys, congrArg Value.list hvalues⟩
  | _ => exact ⟨x, rfl, rfl⟩

/-- What stands for something is converted to itself. -/
theorem convert_toValue (t : ValueType) (x : t.Carrier) :
    t.convert (t.toValue x) = .ok (t.toValue x) := by
  obtain ⟨y, hy, hvalue⟩ := t.ofValue_toValue x
  unfold convert
  rw [hy, ← hvalue]
  rfl

/-- What was converted once is converted to itself. -/
theorem convert_convert {t : ValueType} {v w : Value} (h : t.convert v = .ok w) :
    t.convert w = .ok w := by
  obtain ⟨x, -, rfl⟩ := map_eq_ok_iff.mp h
  exact t.convert_toValue x

theorem toValue_ne_null {t : ValueType} (h : t.isOption = false) (x : t.Carrier) :
    t.toValue x ≠ .null := by
  cases t with
  | option t => cases h
  | integer t =>
    change (if t.isWide then Value.int64 _ else .int32 _) ≠ .null
    cases t.isWide <;> exact nofun
  | _ => exact nofun

/-- Without options in options, no two things have one value. -/
theorem toValue_injective {t : ValueType} (h : t.nestsOptions = false) :
    Function.Injective t.toValue := by
  induction t with
  | integer t =>
    intro i j hvalue
    have hread := congrArg (integer t).ofValue hvalue
    rw [ofValue_toValue_integer, ofValue_toValue_integer] at hread
    exact Except.ok.inj hread
  | option t ih =>
    obtain ⟨hoption, hnests⟩ := Bool.or_eq_false_iff.mp h
    intro x y hvalue
    cases x with
    | none =>
      cases y with
      | none => rfl
      | some y => exact absurd hvalue.symm (toValue_ne_null hoption y)
    | some x =>
      cases y with
      | none => exact absurd hvalue (toValue_ne_null hoption x)
      | some y => exact congrArg some (ih hnests hvalue)
  | list t ih =>
    intro xs ys hvalue
    exact List.map_injective_iff.mpr (ih h) (Value.list.inj hvalue)
  | _ =>
    intro x y hvalue
    injection hvalue

/-- Without options in options, what was written is read. -/
theorem ofValue_toValue_of_not_nests {t : ValueType} (h : t.nestsOptions = false) (x : t.Carrier) :
    t.ofValue (t.toValue x) = .ok x := by
  obtain ⟨y, hy, hvalue⟩ := t.ofValue_toValue x
  rw [hy, toValue_injective h hvalue]

end ValueType

/-! ## Properties that are fields -/

/-- The property is a field of a type: the entity has the value of the field, and a value that the
    type accepts is stored in the field and nowhere else. -/
structure Entity.TypedProperty {ε : Type} (E : Entity ε) (name : String) (t : ValueType) where
  /-- What the field holds. -/
  read : ε → t.Carrier
  /-- The entity with another content of the field. -/
  write : ε → t.Carrier → ε
  /-- The entity has the value of the field. -/
  get?_eq : ∀ e, E.get? e name = some (t.toValue (read e))
  /-- A value is stored as what the type reads it as. -/
  set_eq : ∀ e v, E.set e name v = (t.ofValue v).map (write e)
  /-- The field holds what was written. -/
  read_write : ∀ e x, read (write e x) = x
  /-- The content that is there changes nothing. -/
  write_read : ∀ e, write e (read e) = e
  /-- Other properties stay as they are. -/
  others : ∀ e x other, other ≠ name → E.get? (write e x) other = E.get? e other

namespace Entity.TypedProperty

variable {ε : Type} {E : Entity ε} {name : String} {t : ValueType}

/-- A value that is converted to the value of something is stored with this value. -/
theorem set_of_convert (p : E.TypedProperty name t) (e : ε) {x : t.Carrier} {v : Value}
    (h : t.convert v = .ok (t.toValue x)) :
    ∃ e', E.set e name v = .ok e' ∧ E.get? e' name = some (t.toValue x) ∧
      ∀ other, other ≠ name → E.get? e' other = E.get? e other := by
  obtain ⟨y, hy, hvalue⟩ := map_eq_ok_iff.mp h
  refine ⟨p.write e y, ?_, ?_, p.others e y⟩
  · rw [p.set_eq, hy]
    rfl
  · rw [p.get?_eq, p.read_write, hvalue]

/-- A value that is read as what the field holds changes nothing. -/
theorem set_of_ofValue (p : E.TypedProperty name t) {e : ε} {v : Value}
    (h : t.ofValue v = .ok (p.read e)) : E.set e name v = .ok e := by
  have hwrite : (t.ofValue v).map (p.write e) = .ok (p.write e (p.read e)) := by
    rw [h]
    rfl
  rw [p.set_eq, hwrite, p.write_read]

end Entity.TypedProperty

/-! ## Records -/

/-- The value is that of something that the field holds; a field without a type holds any. -/
def Field.IsHeld (f : Field) (v : Value) : Prop :=
  ∀ t, f.type = some t → ∃ x, v = t.toValue x

theorem Field.isHeld_of_stored {f : Field} {v v' : Value} (h : stored f.type v = .ok v') :
    f.IsHeld v' := by
  intro t ht
  rw [ht] at h
  obtain ⟨x, -, rfl⟩ := map_eq_ok_iff.mp h
  exact ⟨x, rfl⟩

theorem Field.stored_of_isHeld {f : Field} {v : Value} (h : f.IsHeld v) :
    stored f.type v = .ok v := by
  cases htype : f.type with
  | none => rfl
  | some t =>
    obtain ⟨x, rfl⟩ := h t htype
    exact t.convert_toValue x

/-- The entry of a record is one of the field: it has its name and a value that it holds. -/
def Field.IsOf (f : Field) (entry : String × Value) : Prop := entry.1 = f.name ∧ f.IsHeld entry.2

namespace RecordType

/-- The record has an entry of each field of its type, in their order. -/
def IsTyped (t : RecordType) (r : Record) : Prop := List.Forall₂ Field.IsOf t.fields r

variable {t : RecordType} {r r' : Record} {name : String} {v v' : Value}

theorem forall₂_put {fields : List Field} {f : Field} (h : List.Forall₂ Field.IsOf fields r)
    (hf : fields.find? (·.name == name) = some f) (hv : f.IsHeld v) :
    List.Forall₂ Field.IsOf fields (put name v r) := by
  induction h with
  | nil => cases hf
  | @cons first entry fields r hfirst hrest ih =>
    obtain ⟨n, w⟩ := entry
    obtain ⟨rfl, hw⟩ := hfirst
    rw [List.find?_cons] at hf
    unfold put
    by_cases hn : first.name = name
    · rw [beq_iff_eq.mpr hn] at hf
      cases hf
      rw [if_pos hn]
      exact .cons ⟨rfl, hv⟩ hrest
    · rw [beq_eq_false_iff_ne.mpr hn] at hf
      rw [if_neg hn]
      exact .cons ⟨rfl, hw⟩ (ih hf)

/-- The value under a name is held by the field of this name. -/
theorem field_of_lookup {fields : List Field} (h : List.Forall₂ Field.IsOf fields r)
    (hget : r.lookup name = some v) :
    ∃ f, fields.find? (·.name == name) = some f ∧ f.IsHeld v := by
  induction h with
  | nil => cases hget
  | @cons first entry fields r hfirst hrest ih =>
    obtain ⟨n, w⟩ := entry
    obtain ⟨rfl, hw⟩ := hfirst
    rw [List.lookup_cons] at hget
    rw [List.find?_cons]
    by_cases hn : first.name = name
    · rw [beq_iff_eq.mpr hn.symm] at hget
      cases hget
      rw [beq_iff_eq.mpr hn]
      exact ⟨first, rfl, hw⟩
    · rw [beq_eq_false_iff_ne.mpr (Ne.symm hn)] at hget
      rw [beq_eq_false_iff_ne.mpr hn]
      exact ih hget

/-- A change keeps a record typed. -/
theorem isTyped_set (h : t.IsTyped r) {owner : String} (hset : t.set owner r name v = .ok r') :
    t.IsTyped r' := by
  rcases set_cases hset with ⟨f, v', hf, hv', rfl⟩ | ⟨-, -, rfl⟩
  · exact forall₂_put h hf (Field.isHeld_of_stored hv')
  · exact h

/-- So do several changes. -/
theorem isTyped_setAll (h : t.IsTyped r) (type : EntityType) {changes : List (String × Value)}
    (hset : (t.entityOf type).setAll r changes = .ok r') : t.IsTyped r' := by
  induction changes generalizing r with
  | nil =>
    cases hset
    exact h
  | cons change changes ih =>
    rw [Entity.setAll_cons] at hset
    obtain ⟨r₁, hr₁, hset⟩ := bind_eq_ok_iff.mp hset
    exact ih (isTyped_set h hr₁) hset

/-- The value that is there changes nothing. -/
theorem put_of_lookup (h : r.lookup name = some v) : put name v r = r := by
  induction r with
  | nil => rfl
  | cons field r ih =>
    obtain ⟨n, w⟩ := field
    rw [List.lookup_cons] at h
    unfold put
    by_cases hn : n = name
    · rw [beq_iff_eq.mpr hn.symm] at h
      cases h
      rw [if_pos hn]
    · rw [beq_eq_false_iff_ne.mpr (Ne.symm hn)] at h
      rw [if_neg hn, ih h]

/-- A value that is stored as the one that is there changes nothing. -/
theorem set_of_stored (hget : r.lookup name = some v) {f : Field}
    (hf : t.fields.find? (·.name == name) = some f) (hstored : Field.stored f.type v' = .ok v)
    (owner : String) : t.set owner r name v' = .ok r := by
  unfold set
  rw [hf]
  dsimp only
  rw [hstored]
  exact congrArg Except.ok (put_of_lookup hget)

end RecordType

/-- For every type, what was converted once is converted to itself; and without options in options,
    what stands for something is read as it. So the value of a property that is a field of a type is
    taken back, with no effect on any property, and with none on the entity when no options are
    nested; and however a typed record was changed, it takes back the value of each of its fields
    and stays the same. -/
theorem conversions_are_stable :
    (∀ (t : ValueType) (v w : Value), t.convert v = .ok w → t.convert w = .ok w) ∧
    (∀ t : ValueType, t.nestsOptions = false →
      ∀ x : t.Carrier, t.ofValue (t.toValue x) = .ok x) ∧
    (∀ {ε : Type} {E : Entity ε} {name : String} {t : ValueType} (_ : E.TypedProperty name t)
      (e : ε), ∃ v, E.get? e name = some v ∧
        (∃ e', E.set e name v = .ok e' ∧ ∀ other, E.get? e' other = E.get? e other) ∧
        (t.nestsOptions = false → E.set e name v = .ok e)) ∧
    ∀ (t : RecordType) (type : EntityType) (r r' : Record) (changes : List (String × Value)),
      t.IsTyped r → (t.entityOf type).setAll r changes = .ok r' →
      ∀ name v, (t.entityOf type).get? r' name = some v →
        (t.entityOf type).set r' name v = .ok r' := by
  refine ⟨fun t v w h => ValueType.convert_convert h,
    fun t h x => ValueType.ofValue_toValue_of_not_nests h x, ?_, ?_⟩
  · intro ε E name t p e
    refine ⟨_, p.get?_eq e, ?_, fun h => ?_⟩
    · obtain ⟨e', he', hown, hothers⟩ := p.set_of_convert e (t.convert_toValue (p.read e))
      refine ⟨e', he', fun other => ?_⟩
      by_cases hother : other = name
      · rw [hother, hown, p.get?_eq]
      · exact hothers other hother
    · exact p.set_of_ofValue (ValueType.ofValue_toValue_of_not_nests h (p.read e))
  · intro t type r r' changes hr hset name v hget
    obtain ⟨f, hf, hheld⟩ := RecordType.field_of_lookup (RecordType.isTyped_setAll hr type hset) hget
    exact RecordType.set_of_stored hget hf (Field.stored_of_isHeld hheld) type.name

namespace Samples

/-- Entities with one property, which is a field of the type. -/
def cell (t : ValueType) (x : t.Carrier) : Entity t.Carrier where
  type := ⟨"Cell"⟩
  fresh := x
  get? x name := if name = "content" then some (t.toValue x) else none
  set _ name v := if name = "content" then t.ofValue v else .error (.noProperty "Cell" name)

/-- The field of these entities. -/
def content (t : ValueType) (x : t.Carrier) : (cell t x).TypedProperty "content" t where
  read y := y
  write _ y := y
  get?_eq _ := rfl
  set_eq _ v := by
    change t.ofValue v = (t.ofValue v).map id
    cases t.ofValue v <;> rfl
  read_write _ _ := rfl
  write_read _ := rfl
  others y z other h := by
    change (if other = "content" then _ else none) = if other = "content" then _ else none
    rw [if_neg h, if_neg h]

/-- Parcels with an address that may be missing in two ways, and a remark of any kind. -/
def addressed : RecordType where
  table := "parcel"
  fields :=
    [⟨"id", some .uuid, none⟩, ⟨"address", some (.option (.option .text)), none⟩,
     ⟨"remark", none, none⟩]
  steps := []

theorem isTyped_addressed : addressed.IsTyped addressed.fresh := by
  refine .cons ⟨rfl, ?_⟩ (.cons ⟨rfl, ?_⟩ (.cons ⟨rfl, ?_⟩ .nil))
  · rintro t ⟨⟩
    exact ⟨Uuid.nil, rfl⟩
  · rintro t ⟨⟩
    exact ⟨none, rfl⟩
  · rintro t ⟨⟩

end Samples

/-- An identifier is stored as a text, and the text stays as it is, in a list, in an option and in
    a record. -/
theorem conversions_are_stable_texts :
    (∃ w, (ValueType.list .text).convert (.list [.uuid .nil]) = .ok w ∧
      (ValueType.list .text).convert w = .ok w) ∧
    (ValueType.option .text).ofValue (ValueType.toValue (.option .text) (some "x")) =
      .ok (some "x") ∧
    (∃ v, (Samples.cell (.option .text) none).get? (some "x") "content" = some v ∧
      (Samples.cell (.option .text) none).set (some "x") "content" v = .ok (some "x")) ∧
    ∃ r, (Samples.addressed.entityOf ⟨"Parcel"⟩).setAll Samples.addressed.fresh
        [("address", .uuid .nil), ("remark", .boolean true)] = .ok r ∧
      (Samples.addressed.entityOf ⟨"Parcel"⟩).set r "address" (.text Uuid.nil.text) = .ok r := by
  obtain ⟨hconvert, hread, hfield, hrecord⟩ := conversions_are_stable
  refine ⟨⟨.list [.text Uuid.nil.text], rfl, hconvert _ (.list [.uuid .nil]) _ rfl⟩,
    hread (.option .text) rfl (some "x"), ?_, ?_⟩
  · obtain ⟨v, hget, -, hset⟩ := hfield (Samples.content (.option .text) none) (some "x")
    exact ⟨v, hget, hset rfl⟩
  · obtain ⟨r, hr⟩ : ∃ r, (Samples.addressed.entityOf ⟨"Parcel"⟩).setAll Samples.addressed.fresh
        [("address", .uuid .nil), ("remark", .boolean true)] = .ok r := ⟨_, rfl⟩
    refine ⟨r, hr, hrecord _ _ _ _ _ Samples.isTyped_addressed hr _ _ ?_⟩
    cases hr
    rfl

end EntitySql
