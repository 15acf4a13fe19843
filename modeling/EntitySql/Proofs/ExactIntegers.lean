/-
  The integers that texts, decimals and binary numbers are, exactly.

  A text is an integer when an optional sign and decimal digits stand between blanks
  (`IntegerText.Spells`); a decimal and a binary number are integers when their values as rational
  numbers are (`Decimal.value`, `Binary64.value?`).

  Digits are read up to a limit. The number read so far never shrinks, so reading stops early
  exactly when the whole number is beyond the limit (`IntegerText.scan_eq_ok_iff`). So a text is read
  exactly when it is an integer of 64 bits (`IntegerText.parseTrimmed_eq_ok_iff`), and a decimal and
  a binary number when they are any integer (`Decimal.value_eq_int_iff`,
  `Binary64.toInt?_eq_some_iff`).
-/
import EntitySql.Proofs.KeysOfEntities
import Mathlib.Data.Rat.Cast.Order

namespace EntitySql

/-! ## The range of 64 bits -/

/-- The integer has 64 bits. -/
def IsInt64 (i : Int) : Prop := -0x8000000000000000 ≤ i ∧ i < 0x8000000000000000

theorem isInt64_of_int64 (n : Int64) : IsInt64 n.toInt := by
  have hleast := n.le_toInt
  have hgreatest := n.toInt_lt
  unfold IsInt64
  omega

theorem int64?_eq_none_iff {i : Int} : int64? i = none ↔ ¬ IsInt64 i := by
  unfold int64?
  rw [ite_eq_right_iff]
  exact ⟨fun h hi => Option.some_ne_none _ (h hi), fun h hi => absurd hi h⟩

/-! ## Blanks -/

namespace Text

/-- What trimming takes away from the start is blank. -/
theorem exists_blanks_append_dropBlanks (cs : List Char) :
    ∃ blanks : List Char, (∀ c ∈ blanks, isBlank c = true) ∧ cs = blanks ++ dropBlanks cs := by
  refine ⟨cs.takeWhile isBlank, ?_, List.takeWhile_append_dropWhile.symm⟩
  intro c hc
  exact List.all_eq_true.mp List.all_takeWhile c hc

theorem dropBlanks_append {front cs : List Char} (hfront : ∀ c ∈ front, isBlank c = true) :
    dropBlanks (front ++ cs) = dropBlanks cs :=
  List.dropWhile_append_of_pos hfront

theorem dropTrailingBlanks_of_blanks {back : List Char} (hback : ∀ c ∈ back, isBlank c = true) :
    dropTrailingBlanks back = [] := by
  induction back with
  | nil => rfl
  | cons c back ih =>
    have hrest := ih fun x hx => hback x (List.mem_cons_of_mem c hx)
    have hc := hback c List.mem_cons_self
    simp only [dropTrailingBlanks, hrest, hc, if_true]

theorem dropTrailingBlanks_append {cs back : List Char} (hcs : ∀ c ∈ cs, isBlank c = false)
    (hback : ∀ c ∈ back, isBlank c = true) : dropTrailingBlanks (cs ++ back) = cs := by
  induction cs with
  | nil => exact dropTrailingBlanks_of_blanks hback
  | cons c cs ih =>
    have hrest := ih fun x hx => hcs x (List.mem_cons_of_mem c hx)
    have hc := hcs c List.mem_cons_self
    rw [List.cons_append]
    unfold dropTrailingBlanks
    rw [hrest]
    cases cs with
    | nil => simp [hc]
    | cons x cs => rfl

/-- Characters without a blank among them are what is left of them between blanks. -/
theorem trimBlanks_append {front cs back : List Char} (hfront : ∀ c ∈ front, isBlank c = true)
    (hcs : ∀ c ∈ cs, isBlank c = false) (hne : cs ≠ []) (hback : ∀ c ∈ back, isBlank c = true) :
    trimBlanks (front ++ cs ++ back) = cs := by
  have hdrop : dropBlanks (front ++ cs ++ back) = cs ++ back := by
    rw [List.append_assoc, dropBlanks_append hfront]
    cases cs with
    | nil => exact absurd rfl hne
    | cons c cs =>
      have hc := hcs c List.mem_cons_self
      exact List.dropWhile_cons_of_neg (by simp [hc])
  unfold trimBlanks
  rw [hdrop, dropTrailingBlanks_append hcs hback]

theorem exists_blanks_around_trimBlanks (cs : List Char) :
    ∃ front back : List Char, (∀ c ∈ front, isBlank c = true) ∧
      (∀ c ∈ back, isBlank c = true) ∧ cs = front ++ trimBlanks cs ++ back := by
  obtain ⟨front, hfront, hcs⟩ := exists_blanks_append_dropBlanks cs
  obtain ⟨back, hback, hrest⟩ := exists_blanks_append_dropTrailingBlanks (dropBlanks cs)
  refine ⟨front, back, hfront, hback, ?_⟩
  unfold trimBlanks
  rw [List.append_assoc, ← hrest, ← hcs]

end Text

/-! ## Text -/

namespace IntegerText

/-- The characters are decimal digits, at least one, which make the number. -/
structure AreDigits (ds : List Char) (n : Nat) : Prop where
  /-- There is a digit. -/
  ne_nil : ds ≠ []
  /-- There is nothing else. -/
  digits : ∀ c ∈ ds, c.isDigit = true
  /-- They make the number. -/
  number : Nat.ofDigitChars 10 ds 0 = n

/-- The characters are decimal digits, behind a sign or alone, which make the integer. -/
inductive IsNumeral : List Char → Int → Prop where
  /-- Digits alone. -/
  | unsigned {ds : List Char} {n : Nat} (h : AreDigits ds n) : IsNumeral ds n
  /-- Digits behind a plus sign. -/
  | plus {ds : List Char} {n : Nat} (h : AreDigits ds n) : IsNumeral ('+' :: ds) n
  /-- Digits behind a minus sign. -/
  | minus {ds : List Char} {n : Nat} (h : AreDigits ds n) : IsNumeral ('-' :: ds) (-n)

/-- The text is a numeral of the integer between blanks. -/
def Spells (s : String) (i : Int) : Prop :=
  ∃ front cs back : List Char, (∀ c ∈ front, Text.isBlank c = true) ∧
    (∀ c ∈ back, Text.isBlank c = true) ∧ s.toList = front ++ cs ++ back ∧ IsNumeral cs i

theorem isDigit_iff {c : Char} : c.isDigit = true ↔ '0' ≤ c ∧ c ≤ '9' := by
  simp only [Char.isDigit, Bool.and_eq_true, decide_eq_true_eq]
  exact Iff.rfl

theorem digit?_of_isDigit {c : Char} (h : c.isDigit = true) :
    digit? c = some (c.toNat - '0'.toNat) := by
  unfold digit?
  rw [if_pos (isDigit_iff.mp h)]

theorem digit?_of_not_isDigit {c : Char} (h : ¬ c.isDigit = true) : digit? c = none := by
  unfold digit?
  rw [if_neg (fun hc => h (isDigit_iff.mpr hc))]

/-- Digits only add to the number in front of them. -/
theorem le_ofDigitChars (n : Nat) (cs : List Char) : n ≤ Nat.ofDigitChars 10 cs n := by
  induction cs generalizing n with
  | nil => exact Nat.le_refl n
  | cons c cs ih =>
    rw [Nat.ofDigitChars_cons]
    have hrest := ih (10 * n + (c.toNat - '0'.toNat))
    omega

/-- Reading succeeds on digits whose number is within the limit. -/
theorem scan_eq_ok_iff {limit : Nat} {beyond : IntegerFault} {n m : Nat} {cs : List Char}
    (hn : n ≤ limit) :
    scan limit beyond n cs = .ok m ↔
      (∀ c ∈ cs, c.isDigit = true) ∧ Nat.ofDigitChars 10 cs n = m ∧ m ≤ limit := by
  induction cs generalizing n with
  | nil =>
    rw [scan, Nat.ofDigitChars_nil, Except.ok.injEq]
    constructor
    · rintro rfl
      exact ⟨by simp, rfl, hn⟩
    · exact fun h => h.2.1
  | cons c cs ih =>
    rw [List.forall_mem_cons, Nat.ofDigitChars_cons, scan]
    by_cases hc : c.isDigit = true
    · rw [digit?_of_isDigit hc]
      dsimp only
      by_cases hle : 10 * n + (c.toNat - '0'.toNat) ≤ limit
      · rw [if_pos hle, ih hle]
        simp only [hc, true_and]
      · -- the number is beyond the limit, and so is every number that begins with it
        rw [if_neg hle]
        have hgrows := le_ofDigitChars (10 * n + (c.toNat - '0'.toNat)) cs
        constructor
        · intro h
          cases h
        · rintro ⟨-, rfl, hm⟩
          omega
    · rw [digit?_of_not_isDigit hc]
      constructor
      · intro h
        cases h
      · intro h
        exact absurd h.1.1 hc

theorem not_areDigits_nil (n : Nat) : ¬ AreDigits [] n := fun h => h.ne_nil rfl

theorem not_areDigits_cons {c : Char} (hc : c.isDigit = false) (ds : List Char) (n : Nat) :
    ¬ AreDigits (c :: ds) n := by
  intro h
  have hdigit := h.digits c List.mem_cons_self
  rw [hc] at hdigit
  cases hdigit

theorem isNumeral_plus_iff {ds : List Char} {i : Int} :
    IsNumeral ('+' :: ds) i ↔ ∃ n : Nat, AreDigits ds n ∧ n = i := by
  constructor
  · intro h
    cases h with
    | unsigned h => exact absurd h (not_areDigits_cons (by decide) _ _)
    | plus h => exact ⟨_, h, rfl⟩
  · rintro ⟨n, h, rfl⟩
    exact .plus h

theorem isNumeral_minus_iff {ds : List Char} {i : Int} :
    IsNumeral ('-' :: ds) i ↔ ∃ n : Nat, AreDigits ds n ∧ -(n : Int) = i := by
  constructor
  · intro h
    cases h with
    | unsigned h => exact absurd h (not_areDigits_cons (by decide) _ _)
    | minus h => exact ⟨_, h, rfl⟩
  · rintro ⟨n, h, rfl⟩
    exact .minus h

theorem isNumeral_unsigned_iff {cs : List Char} (hplus : ∀ ds, cs ≠ '+' :: ds)
    (hminus : ∀ ds, cs ≠ '-' :: ds) {i : Int} :
    IsNumeral cs i ↔ ∃ n : Nat, AreDigits cs n ∧ n = i := by
  constructor
  · intro h
    cases h with
    | unsigned h => exact ⟨_, h, rfl⟩
    | plus => exact absurd rfl (hplus _)
    | minus => exact absurd rfl (hminus _)
  · rintro ⟨n, h, rfl⟩
    exact .unsigned h

/-- Digits are read with a sign as an integer of 64 bits, if the limit is that of such integers. -/
theorem scan_map_eq_ok_iff {limit : Nat} {beyond : IntegerFault} {sign : Nat → Int}
    (hlimit : ∀ n, n ≤ limit ↔ IsInt64 (sign n)) {ds : List Char} (hne : ds ≠ []) {i : Int} :
    (scan limit beyond 0 ds).map sign = .ok i ↔
      (∃ n, AreDigits ds n ∧ sign n = i) ∧ IsInt64 i := by
  rw [map_eq_ok_iff]
  constructor
  · rintro ⟨n, hn, rfl⟩
    obtain ⟨hds, hnumber, hle⟩ := (scan_eq_ok_iff (Nat.zero_le limit)).mp hn
    exact ⟨⟨n, ⟨hne, hds, hnumber⟩, rfl⟩, (hlimit n).mp hle⟩
  · rintro ⟨⟨n, hn, rfl⟩, hrange⟩
    have hle := (hlimit n).mpr hrange
    exact ⟨n, (scan_eq_ok_iff (Nat.zero_le limit)).mpr ⟨hn.digits, hn.number, hle⟩, rfl⟩

theorem le_iff_isInt64 (n : Nat) : n ≤ 0x7FFFFFFFFFFFFFFF ↔ IsInt64 (Int.ofNat n) := by
  unfold IsInt64
  rw [Int.ofNat_eq_natCast]
  omega

theorem le_iff_isInt64_neg (n : Nat) : n ≤ 0x8000000000000000 ↔ IsInt64 (-Int.ofNat n) := by
  unfold IsInt64
  rw [Int.ofNat_eq_natCast]
  omega

/-- A numeral is read as its integer if that has 64 bits, and nothing else is read. -/
theorem parse_eq_ok_iff {cs : List Char} {i : Int} :
    parse cs = .ok i ↔ IsNumeral cs i ∧ IsInt64 i := by
  unfold parse
  split
  · rw [isNumeral_unsigned_iff (by simp) (by simp)]
    simp [not_areDigits_nil]
  · rw [isNumeral_plus_iff]
    simp [not_areDigits_nil]
  · rw [isNumeral_minus_iff]
    simp [not_areDigits_nil]
  · rename_i ds hne
    rw [isNumeral_plus_iff]
    exact scan_map_eq_ok_iff le_iff_isInt64 fun hnil => hne (by rw [hnil])
  · rename_i ds hne
    rw [isNumeral_minus_iff]
    exact scan_map_eq_ok_iff le_iff_isInt64_neg fun hnil => hne (by rw [hnil])
  · rename_i hnil _ _ hplus hminus
    rw [isNumeral_unsigned_iff hplus hminus]
    exact scan_map_eq_ok_iff le_iff_isInt64 hnil

theorem IsNumeral.ne_nil {cs : List Char} {i : Int} (h : IsNumeral cs i) : cs ≠ [] := by
  cases h with
  | unsigned h => exact h.ne_nil
  | plus | minus => exact List.cons_ne_nil _ _

/-- A numeral makes one integer. -/
theorem IsNumeral.unique {cs : List Char} {i j : Int} (hi : IsNumeral cs i)
    (hj : IsNumeral cs j) : i = j := by
  cases hi with
  | unsigned hn =>
    cases hj with
    | unsigned hm => rw [← hn.number, ← hm.number]
    | plus | minus => exact absurd hn (not_areDigits_cons (by decide) _ _)
  | plus hn =>
    obtain ⟨m, hm, rfl⟩ := isNumeral_plus_iff.mp hj
    rw [← hn.number, ← hm.number]
  | minus hn =>
    obtain ⟨m, hm, rfl⟩ := isNumeral_minus_iff.mp hj
    rw [← hn.number, ← hm.number]

theorem isBlank_of_isDigit {c : Char} (h : c.isDigit = true) : Text.isBlank c = false := by
  obtain ⟨hleast, hgreatest⟩ := isDigit_iff.mp h
  have hlower : 0x30 ≤ c.toNat := hleast
  have hupper : c.toNat ≤ 0x39 := hgreatest
  unfold Text.isBlank
  simp
  omega

/-- No blank stands in a numeral. -/
theorem IsNumeral.isBlank {cs : List Char} {i : Int} (h : IsNumeral cs i) :
    ∀ c ∈ cs, Text.isBlank c = false := by
  cases h with
  | unsigned h => exact fun c hc => isBlank_of_isDigit (h.digits c hc)
  | plus h | minus h =>
    intro c hc
    rcases List.mem_cons.mp hc with rfl | hc
    · rfl
    · exact isBlank_of_isDigit (h.digits c hc)

/-- Between the blanks of a text stands what it spells. -/
theorem spells_iff {s : String} {i : Int} :
    Spells s i ↔ IsNumeral (Text.trimBlanks s.toList) i := by
  constructor
  · rintro ⟨front, cs, back, hfront, hback, hs, hcs⟩
    rw [hs, Text.trimBlanks_append hfront hcs.isBlank hcs.ne_nil hback]
    exact hcs
  · intro h
    obtain ⟨front, back, hfront, hback, hs⟩ := Text.exists_blanks_around_trimBlanks s.toList
    exact ⟨front, _, back, hfront, hback, hs, h⟩

/-- A text is read as the integer that it spells if that has 64 bits, and nothing else is read. -/
theorem parseTrimmed_eq_ok_iff {s : String} {i : Int} :
    parseTrimmed s = .ok i ↔ Spells s i ∧ IsInt64 i := by
  rw [spells_iff]
  exact parse_eq_ok_iff

end IntegerText

/-! ## Decimals -/

namespace Decimal

/-- The value of a decimal. -/
def value (d : Decimal) : Rat := d.signed / 10 ^ d.scale

theorem value_eq_iff {d : Decimal} {i : Int} : d.value = i ↔ d.signed = i * 10 ^ d.scale := by
  have hpow : (10 : Rat) ^ d.scale ≠ 0 := pow_ne_zero _ (by norm_num)
  unfold value
  rw [div_eq_iff hpow]
  exact_mod_cast Iff.rfl

theorem natAbs_signed (d : Decimal) : d.signed.natAbs = d.coefficient := by
  unfold signed
  cases d.negative with
  | false => rfl
  | true =>
    rw [if_pos rfl, Int.natAbs_neg]
    rfl

theorem isWhole_of_value {d : Decimal} {i : Int} (h : d.value = i) : d.isWhole = true := by
  have hcoefficient : d.coefficient = i.natAbs * 10 ^ d.scale := by
    rw [← natAbs_signed, value_eq_iff.mp h, Int.natAbs_mul, Int.natAbs_pow]
    rfl
  have hmod : d.coefficient % 10 ^ d.scale = 0 := by
    rw [hcoefficient, Nat.mul_mod_left]
  exact beq_iff_eq.mpr hmod

/-- A decimal is an integer when it has no fraction digits but zeros, and it is what is left
    without them. -/
theorem value_eq_int_iff {d : Decimal} {i : Int} :
    d.value = i ↔ d.isWhole = true ∧ d.truncate = i := by
  have hvalue (h : d.isWhole = true) : d.value = d.truncate :=
    value_eq_iff.mpr (signed_of_isWhole h)
  constructor
  · intro h
    have hwhole := isWhole_of_value h
    have htruncate := hvalue hwhole
    rw [h] at htruncate
    exact ⟨hwhole, by exact_mod_cast htruncate.symm⟩
  · rintro ⟨hwhole, rfl⟩
    exact hvalue hwhole

end Decimal

/-! ## Binary numbers -/

namespace Binary64

/-- The value of a binary number, if it is finite. -/
def value? (x : Binary64) : Option Rat :=
  match x.content with
  | .finite negative m e => some ((if negative then -1 else 1) * (m * 2 ^ e))
  | .nan => none
  | .infinite _ => none

theorem ratio_pos (m : Nat) (e : Int) : 0 < (ratio m e).2 := by
  unfold ratio
  by_cases he : 0 ≤ e
  · rw [if_pos he]
    exact Nat.one_pos
  · rw [if_neg he]
    exact Nat.two_pow_pos _

theorem ratio_eq (m : Nat) (e : Int) :
    ((ratio m e).1 : Rat) / (ratio m e).2 = m * 2 ^ e := by
  unfold ratio
  by_cases he : 0 ≤ e
  · have hpow : (2 : Rat) ^ e = 2 ^ e.toNat := by
      rw [← zpow_natCast, Int.toNat_of_nonneg he]
    rw [if_pos he, hpow]
    show ((m * 2 ^ e.toNat : Nat) : Rat) / (1 : Nat) = m * 2 ^ e.toNat
    push_cast
    rw [div_one]
  · have hpow : (2 : Rat) ^ e = (2 ^ (-e).toNat)⁻¹ := by
      rw [← zpow_natCast, Int.toNat_of_nonneg (by omega), ← zpow_neg, neg_neg]
    rw [if_neg he, hpow]
    show (m : Rat) / (2 ^ (-e).toNat : Nat) = m * (2 ^ (-e).toNat)⁻¹
    push_cast
    rw [div_eq_mul_inv]

/-- A ratio is an integer when nothing remains, and it is the quotient. -/
theorem ratio_eq_int_iff {p q : Nat} (hq : 0 < q) {i : Int} :
    (p : Rat) / q = i ↔ p % q = 0 ∧ ((p / q : Nat) : Int) = i := by
  have hrat : (q : Rat) ≠ 0 := by exact_mod_cast hq.ne'
  have hint : (q : Int) ≠ 0 := by exact_mod_cast hq.ne'
  rw [div_eq_iff hrat]
  constructor
  · intro h
    have hp : (p : Int) = i * q := by exact_mod_cast h
    have hmod : ((p % q : Nat) : Int) = 0 := by
      rw [Int.natCast_mod, hp, Int.mul_emod_left]
    refine ⟨by exact_mod_cast hmod, ?_⟩
    rw [Int.natCast_div, hp, Int.mul_ediv_cancel _ hint]
  · rintro ⟨hmod, rfl⟩
    have hp : p = p / q * q := (Nat.div_mul_cancel (Nat.dvd_of_mod_eq_zero hmod)).symm
    exact_mod_cast hp

/-- The integer of a binary number is its value. -/
theorem toInt?_eq_some_iff {x : Binary64} {i : Int} :
    x.toInt? = some i ↔ x.value? = some (i : Rat) := by
  unfold toInt? value?
  cases x.content with
  | nan => simp
  | infinite negative => simp
  | finite negative m e =>
    have hratio (j : Int) := ratio_eq_int_iff (ratio_pos m e) (p := (ratio m e).1) (i := j)
    dsimp only
    rw [Option.ite_none_right_eq_some, Option.some.injEq, Option.some.injEq, ← ratio_eq]
    cases negative with
    | false =>
      rw [if_neg Bool.false_ne_true, if_neg Bool.false_ne_true, one_mul, hratio]
      exact Iff.rfl
    | true =>
      rw [if_pos rfl, if_pos rfl, neg_one_mul, neg_eq_iff_eq_neg, neg_eq_iff_eq_neg]
      rw [show -(i : Rat) = ((-i : Int) : Rat) by push_cast; rfl, hratio]
      exact Iff.rfl

end Binary64

/-! ## Values -/

/-- The value is the integer, whatever its size: an integer itself, a decimal with this value, or a
    text that spells it. -/
inductive Value.IsInteger : Value → Int → Prop where
  /-- An integer of 32 bits. -/
  | int32 (n : Int32) : IsInteger (.int32 n) n.toInt
  /-- An integer of 64 bits. -/
  | int64 (n : Int64) : IsInteger (.int64 n) n.toInt
  /-- A decimal. -/
  | decimal {d : Decimal} {i : Int} (h : d.value = i) : IsInteger (.decimal d) i
  /-- A text. -/
  | text {s : String} {i : Int} (h : IntegerText.Spells s i) : IsInteger (.text s) i

namespace Value

theorem isInteger_int32_iff {n : Int32} {i : Int} : (int32 n).IsInteger i ↔ n.toInt = i := by
  constructor
  · intro h
    cases h
    rfl
  · rintro rfl
    exact .int32 n

theorem isInteger_int64_iff {n : Int64} {i : Int} : (int64 n).IsInteger i ↔ n.toInt = i := by
  constructor
  · intro h
    cases h
    rfl
  · rintro rfl
    exact .int64 n

theorem isInteger_decimal_iff {d : Decimal} {i : Int} :
    (decimal d).IsInteger i ↔ d.isWhole = true ∧ d.truncate = i := by
  rw [← Decimal.value_eq_int_iff]
  constructor
  · intro h
    cases h with
    | decimal h => exact h
  · exact .decimal

theorem isInteger_text_iff {s : String} {i : Int} :
    (text s).IsInteger i ↔ IntegerText.Spells s i := by
  constructor
  · intro h
    cases h with
    | text h => exact h
  · exact .text

/-- A value is one integer at most. -/
theorem IsInteger.unique {v : Value} {i j : Int} (hi : v.IsInteger i) (hj : v.IsInteger j) :
    i = j := by
  cases hi with
  | int32 n => exact isInteger_int32_iff.mp hj
  | int64 n => exact isInteger_int64_iff.mp hj
  | decimal hi =>
    have hwhole := Decimal.value_eq_int_iff.mp hi
    exact hwhole.2.symm.trans (isInteger_decimal_iff.mp hj).2
  | text hi =>
    have hnumeral := IntegerText.spells_iff.mp hi
    exact hnumeral.unique (IntegerText.spells_iff.mp (isInteger_text_iff.mp hj))

end Value

end EntitySql
