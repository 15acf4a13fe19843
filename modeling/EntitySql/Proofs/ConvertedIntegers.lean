/-
  Values as integers of a fixed width, and back.

  A value stands for an integer when it is one (`Value.IsInteger`) or a truth value
  (`Value.StandsFor`). It is read as that integer, or refused (`IntegerType.read_cases`). What is
  refused for its size alone is beyond 64 bits, and no type includes as much, so that reading loses
  nothing: a value is taken for an integer of a type just when it stands for this integer
  (`ValueType.ofValue_integer_eq_ok_iff`).
-/
import EntitySql.Proofs.Conversions
import EntitySql.Proofs.ExactIntegers

namespace EntitySql

/-! ## What a value stands for -/

namespace Value

/-- The value is the integer, or a truth value, which stands for zero or one. -/
inductive StandsFor : Value → Int → Prop where
  /-- It is the integer. -/
  | integer {v : Value} {i : Int} (h : v.IsInteger i) : StandsFor v i
  /-- It is false. -/
  | no : StandsFor (.boolean false) 0
  /-- It is true. -/
  | yes : StandsFor (.boolean true) 1

theorem standsFor_boolean_iff {b : Bool} {i : Int} :
    (boolean b).StandsFor i ↔ (if b then 1 else 0) = i := by
  constructor
  · intro h
    cases h with
    | integer h => cases h
    | no | yes => rfl
  · rintro rfl
    cases b with
    | false => exact .no
    | true => exact .yes

theorem standsFor_iff_isInteger {v : Value} (h : ∀ b, v ≠ .boolean b) {i : Int} :
    v.StandsFor i ↔ v.IsInteger i := by
  constructor
  · intro hi
    cases hi with
    | integer hi => exact hi
    | no | yes => exact absurd rfl (h _)
  · exact .integer

/-- A value stands for one integer at most. -/
theorem StandsFor.unique {v : Value} {i j : Int} (hi : v.StandsFor i) (hj : v.StandsFor j) :
    i = j := by
  cases hi with
  | no | yes => exact standsFor_boolean_iff.mp hj
  | integer hi =>
    have hother : ∀ b, v ≠ .boolean b := by
      rintro b rfl
      cases hi
    exact hi.unique ((standsFor_iff_isInteger hother).mp hj)

end Value

/-! ## Reading -/

namespace IntegerType

/-- The type includes the integer. -/
def Includes (t : IntegerType) (i : Int) : Prop := t.least ≤ i ∧ i ≤ t.greatest

theorem Includes.isInt64 {t : IntegerType} {i : Int} (h : t.Includes i) : IsInt64 i := by
  obtain ⟨hleast, hgreatest⟩ := h
  obtain ⟨hlower, hupper⟩ := t.int64_bounds
  unfold IsInt64
  omega

/-- Why a value is not taken for an integer of the type. -/
inductive Refuses (t : IntegerType) : Value → Error → Prop where
  /-- It stands for another integer. -/
  | outOfRange {v : Value} {i : Int} (h : v.StandsFor i) (hi : ¬ t.Includes i) :
      Refuses t v (.outOfRange i t)
  /-- It is a decimal beyond 64 bits. -/
  | tooWide {d : Decimal} {i : Int} (h : d.value = i) (hi : ¬ IsInt64 i) :
      Refuses t (.decimal d) (.decimalTooWide d)
  /-- It is a text that spells no integer of 64 bits. -/
  | unreadable {s : String} {fault : IntegerFault}
      (h : ∀ i, IntegerText.Spells s i → ¬ IsInt64 i) :
      Refuses t (.text s) (.unreadable s (.integer t) (.integer fault))
  /-- It stands for no integer. -/
  | mismatch {v : Value} (h : ∀ i, ¬ v.StandsFor i) : Refuses t v (.mismatch v (.integer t))

variable {t : IntegerType} {v : Value}

/-- What is refused is no integer of the type. -/
theorem Refuses.not_includes {cause : Error} (h : t.Refuses v cause) {i : Int}
    (hi : v.StandsFor i) : ¬ t.Includes i := by
  intro hincludes
  cases h with
  | outOfRange h hout =>
    rw [h.unique hi] at hout
    exact hout hincludes
  | tooWide h hwide =>
    have hstands := Value.StandsFor.integer (.decimal h)
    rw [hstands.unique hi] at hwide
    exact hwide hincludes.isInt64
  | unreadable h =>
    cases hi with
    | integer hi =>
      cases hi with
      | text hi => exact h i hi hincludes.isInt64
  | mismatch h => exact h i hi

/-- A value is read as the integer that it stands for, or refused. -/
theorem read_cases (t : IntegerType) (v : Value) :
    (∃ i, t.read v = .ok i ∧ v.StandsFor i) ∨
      ∃ cause, t.read v = .error cause ∧ t.Refuses v cause := by
  cases v with
  | boolean b => exact .inl ⟨_, rfl, Value.standsFor_boolean_iff.mpr rfl⟩
  | int32 n => exact .inl ⟨_, rfl, .integer (.int32 n)⟩
  | int64 n => exact .inl ⟨_, rfl, .integer (.int64 n)⟩
  | decimal d =>
    unfold read
    dsimp only
    by_cases hwhole : d.isWhole = true
    · have hvalue : d.value = d.truncate := Decimal.value_eq_int_iff.mpr ⟨hwhole, rfl⟩
      rw [if_pos hwhole]
      cases hint : int64? d.truncate with
      | some n =>
        rw [← int64?_eq_some_iff.mp hint] at hvalue
        exact .inl ⟨_, rfl, .integer (.decimal hvalue)⟩
      | none => exact .inr ⟨_, rfl, .tooWide hvalue (int64?_eq_none_iff.mp hint)⟩
    · rw [if_neg hwhole]
      refine .inr ⟨_, rfl, .mismatch fun i hi => hwhole ?_⟩
      rw [Value.standsFor_iff_isInteger (by simp), Value.isInteger_decimal_iff] at hi
      exact hi.1
  | text s =>
    unfold read
    dsimp only
    cases hparse : IntegerText.parseTrimmed s with
    | ok i =>
      have hspells := (IntegerText.parseTrimmed_eq_ok_iff.mp hparse).1
      exact .inl ⟨i, rfl, .integer (.text hspells)⟩
    | error fault =>
      refine .inr ⟨_, rfl, .unreadable fun i hspells hi => ?_⟩
      rw [IntegerText.parseTrimmed_eq_ok_iff.mpr ⟨hspells, hi⟩] at hparse
      cases hparse
  | _ =>
    refine .inr ⟨_, rfl, .mismatch fun i hi => ?_⟩
    cases hi with
    | integer hi => cases hi

end IntegerType

/-! ## Conversion -/

namespace ValueType

variable {t : IntegerType} {v : Value}

/-- A value is taken for the integer that it stands for, or refused. -/
theorem ofValue_integer_cases (t : IntegerType) (v : Value) :
    (∃ x : t.Range, (integer t).ofValue v = .ok x ∧ v.StandsFor x.val) ∨
      ∃ cause, (integer t).ofValue v = .error cause ∧ t.Refuses v cause := by
  show (∃ x : t.Range, (t.read v).bind t.ofInt = .ok x ∧ _) ∨
    ∃ cause, (t.read v).bind t.ofInt = .error cause ∧ _
  rcases t.read_cases v with ⟨i, hread, hi⟩ | ⟨cause, hread, hrefuses⟩
  · rw [hread]
    show (∃ x : t.Range, t.ofInt i = .ok x ∧ _) ∨ ∃ cause, t.ofInt i = .error cause ∧ _
    unfold IntegerType.ofInt
    by_cases hincludes : t.Includes i
    · exact .inl ⟨⟨i, hincludes⟩, dif_pos hincludes, hi⟩
    · exact .inr ⟨_, dif_neg hincludes, .outOfRange hi hincludes⟩
  · rw [hread]
    exact .inr ⟨cause, rfl, hrefuses⟩

/-- A value is taken for an integer of the type just when it stands for it. -/
theorem ofValue_integer_eq_ok_iff {x : t.Range} :
    (integer t).ofValue v = .ok x ↔ v.StandsFor x.val := by
  rcases ofValue_integer_cases t v with ⟨y, hof, hy⟩ | ⟨cause, hof, hrefuses⟩
  · rw [hof]
    constructor
    · intro h
      cases h
      exact hy
    · intro hx
      exact congrArg Except.ok (Subtype.ext (hy.unique hx))
  · rw [hof]
    constructor
    · intro h
      cases h
    · intro hx
      exact absurd x.property (hrefuses.not_includes hx)

/-- A value is refused just when it stands for no integer of the type. -/
theorem ofValue_integer_eq_error_iff :
    (∃ cause, (integer t).ofValue v = .error cause) ↔ ∀ i, v.StandsFor i → ¬ t.Includes i := by
  rcases ofValue_integer_cases t v with ⟨x, hof, hx⟩ | ⟨cause, hof, hrefuses⟩
  · rw [hof]
    constructor
    · rintro ⟨cause, h⟩
      cases h
    · intro h
      exact absurd x.property (h _ hx)
  · exact ⟨fun _ i => hrefuses.not_includes, fun _ => ⟨cause, hof⟩⟩

example : (ValueType.integer .int8).ofValue (.int32 128) = .error (.outOfRange 128 .int8) := rfl

/-- The value of an integer stands for it. -/
theorem standsFor_toValue (x : t.Range) : ((integer t).toValue x).StandsFor x.val :=
  ofValue_integer_eq_ok_iff.mp (ofValue_toValue_integer t x)

end ValueType

/-- For every type of integers of a fixed width: a value is taken for an integer of the type just
    when it stands for this integer, and it stands for one at most; any other value is refused, with
    the reason; and the value of an integer stands for it. So a property of such a type takes a
    value just when that stands for an integer of the type, which is then what the property holds,
    and the value that it has stands for the integer that it holds. -/
theorem integers_are_converted_exactly :
    (∀ (t : IntegerType) (v : Value) (x : t.Range),
      (ValueType.integer t).ofValue v = .ok x ↔ v.StandsFor x.val) ∧
    (∀ (v : Value) (i j : Int), v.StandsFor i → v.StandsFor j → i = j) ∧
    (∀ (t : IntegerType) (v : Value),
      ((∃ cause, (ValueType.integer t).ofValue v = .error cause) ↔
        ∀ i, v.StandsFor i → ¬ t.Includes i) ∧
      ∀ cause, (ValueType.integer t).ofValue v = .error cause → t.Refuses v cause) ∧
    (∀ (t : IntegerType) (x : t.Range), ((ValueType.integer t).toValue x).StandsFor x.val) ∧
    ∀ {ε : Type} {E : Entity ε} {name : String} {t : IntegerType}
      (p : E.TypedProperty name (.integer t)) (e : ε),
      (∀ v e', E.set e name v = .ok e' ↔
        ∃ x : t.Range, v.StandsFor x.val ∧ e' = p.write e x) ∧
      ∃ v, E.get? e name = some v ∧ v.StandsFor (p.read e : t.Range).val := by
  refine ⟨fun t v x => ValueType.ofValue_integer_eq_ok_iff, fun v i j hi hj => hi.unique hj, ?_,
    fun t x => ValueType.standsFor_toValue x, ?_⟩
  · intro t v
    refine ⟨ValueType.ofValue_integer_eq_error_iff, fun cause h => ?_⟩
    rcases ValueType.ofValue_integer_cases t v with ⟨x, hof, -⟩ | ⟨cause', hof, hrefuses⟩
    · rw [h] at hof
      cases hof
    · rw [h] at hof
      cases hof
      exact hrefuses
  · intro ε E name t p e
    refine ⟨fun v e' => ?_, _, p.get?_eq e, ValueType.standsFor_toValue (p.read e)⟩
    rw [p.set_eq, map_eq_ok_iff]
    constructor
    · rintro ⟨x, hx, rfl⟩
      exact ⟨x, ValueType.ofValue_integer_eq_ok_iff.mp hx, rfl⟩
    · rintro ⟨x, hx, rfl⟩
      exact ⟨x, ValueType.ofValue_integer_eq_ok_iff.mpr hx, rfl⟩

namespace Samples

/-- The decimal 255.00. -/
def twoFiftyFive : Decimal := ⟨false, 25500, 2, by decide, by decide⟩

theorem standsFor_twoFiftyFive : (Value.decimal twoFiftyFive).StandsFor 255 :=
  .integer (.decimal (Decimal.value_eq_int_iff.mpr ⟨by decide, by decide⟩))

/-- The integer 255 of 8 bits. -/
def greatestByte : IntegerType.uint8.Range := ⟨255, by decide⟩

/-- Entities with one property of 8 bits. -/
def byteCell : Entity (ValueType.integer .uint8).Carrier := cell (.integer .uint8) greatestByte

end Samples

/-- A property of 8 bits takes the decimal 255.00 as 255, and it does not take 256. -/
theorem integers_are_converted_exactly_cell :
    Samples.byteCell.set Samples.greatestByte "content" (.decimal Samples.twoFiftyFive) =
        .ok Samples.greatestByte ∧
      (∃ cause, (ValueType.integer .uint8).ofValue (.int32 256) = .error cause ∧
        IntegerType.uint8.Refuses (.int32 256) cause) ∧
      ∀ j, (Value.decimal Samples.twoFiftyFive).StandsFor j → 255 = j := by
  obtain ⟨-, hunique, hrefused, -, hproperty⟩ := integers_are_converted_exactly
  refine ⟨?_, ?_, fun j => hunique _ _ _ Samples.standsFor_twoFiftyFive⟩
  · exact ((hproperty (Samples.content (.integer .uint8) Samples.greatestByte)
      Samples.greatestByte).1 _ _).mpr
      ⟨Samples.greatestByte, Samples.standsFor_twoFiftyFive, rfl⟩
  · have hcause : (ValueType.integer .uint8).ofValue (.int32 256) =
        .error (.outOfRange 256 .uint8) := rfl
    exact ⟨_, hcause, (hrefused .uint8 _).2 _ hcause⟩

end EntitySql
