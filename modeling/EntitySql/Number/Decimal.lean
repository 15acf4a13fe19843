/-
  Decimal numbers with a coefficient of 96 bits and up to 28 fraction digits: their text, their
  value, and the exchange with binary numbers.
-/
import EntitySql.Number.Binary64

namespace EntitySql

/-- One more than the greatest coefficient, `2^96`. -/
abbrev Decimal.bound : Nat := 0x1000000000000000000000000

/-- The number `± coefficient / 10^scale`. The scale is kept, so `1.50` and `1.5` differ. -/
structure Decimal where
  /-- Whether a minus sign stands in front. -/
  negative : Bool
  /-- The digits, as a natural number. -/
  coefficient : Nat
  /-- The number of fraction digits. -/
  scale : Nat
  coefficient_lt : coefficient < Decimal.bound
  scale_le : scale ≤ 28 := by omega
deriving DecidableEq

namespace Decimal

/-- The greatest number of fraction digits. -/
def maxScale : Nat := 28

/-- The decimal with the given parts, if they are in range. -/
def ofParts? (negative : Bool) (coefficient scale : Nat) : Option Decimal :=
  if h : coefficient < bound ∧ scale ≤ 28 then
    some ⟨negative, coefficient, scale, h.1, h.2⟩
  else none

/-- The decimal of a 64-bit integer. -/
def ofInt64 (i : Int64) : Decimal :=
  { negative := i.toInt < 0
    coefficient := i.toInt.natAbs
    scale := 0
    coefficient_lt := by
      have h1 := i.le_toInt
      have h2 := i.toInt_lt
      unfold Decimal.bound
      omega }

/-- The coefficient with its sign. -/
def signed (d : Decimal) : Int := if d.negative then - Int.ofNat d.coefficient else d.coefficient

/-- Decimals compare by value, whatever their scales. -/
def same (a b : Decimal) : Bool :=
  a.signed * Int.ofNat (Nat.pow 10 b.scale) == b.signed * Int.ofNat (Nat.pow 10 a.scale)

/-- Whether the fraction digits are all zero. -/
def isWhole (d : Decimal) : Bool := d.coefficient % Nat.pow 10 d.scale == 0

/-- The integer left when the fraction digits are dropped. -/
def truncate (d : Decimal) : Int :=
  let n := Int.ofNat (d.coefficient / Nat.pow 10 d.scale)
  if d.negative then -n else n

/-- The binary number of a decimal; a zero is positive. The whole part and the fraction are
    rounded apart, and their sum is rounded once more to as many fraction digits as the decimal
    has, so that the result may be a step away from the nearest number. -/
def toBinary64 (d : Decimal) : Binary64 :=
  let tens := Nat.pow 10 d.scale
  let whole := Binary64.nearest (d.coefficient / tens) 1
  if d.isWhole then Binary64.ofRatio (d.negative && d.coefficient != 0) whole.1 whole.2
  else
    let unit := Binary64.nearest tens 1
    let fraction := Binary64.roundedQuotient (Binary64.nearest (d.coefficient % tens) 1) unit
    let scaled := Binary64.roundedProduct (Binary64.roundedSum whole fraction) unit
    Binary64.ofRatio d.negative (Ratio.nearestUp scaled.1 scaled.2 * unit.2) unit.1

/-! ## Text -/

/-- The digits with the point in front of the last `scale` of them, at least one digit before
    the point. -/
def digits (d : Decimal) : List Char :=
  let ds := Nat.toDigits 10 d.coefficient
  let padded := List.replicate (d.scale + 1 - ds.length) '0' ++ ds
  if d.scale = 0 then padded
  else padded.take (padded.length - d.scale) ++ '.' :: padded.drop (padded.length - d.scale)

/-- The text of a decimal, with all its fraction digits. -/
def text (d : Decimal) : String :=
  (if d.negative then "-" else "") ++ String.ofList d.digits

/-! ## From binary numbers -/

/-- One division by two in `m · 2^-(k+1)`, kept exact as a factor five while 96 bits allow it:
    `m / 2 = 5·m / 10`. The second number counts the tens still to divide by. -/
def halve (m tens : Nat) : Nat × Nat :=
  if m % 2 = 1 ∧ 5 * m < bound then (5 * m, tens) else (m / 2, tens - 1)

/-- `count` divisions by two. -/
def halveTimes : Nat → Nat × Nat → Nat × Nat
  | 0, x => x
  | count + 1, x => halveTimes count (halve x.1 x.2)

/-- Drops one fraction digit, rounding a half up. -/
def dropDigit (m : Nat) : Nat := m / 10 + (if m % 10 ≥ 5 then 1 else 0)

/-- Drops fraction digits beyond the greatest scale; what vanishes altogether is zero. -/
def limitScale : Nat → Nat → Nat × Nat
  | m, 0 => (m, 0)
  | m, scale + 1 =>
    if scale + 1 ≤ maxScale then (m, scale + 1)
    else if m / 10 = 0 then (0, 0) else limitScale (dropDigit m) scale

/-- Drops fraction digits while the coefficient has more bits than a binary number keeps. -/
def limitPrecision : Nat → Nat → Nat × Nat
  | m, 0 => (m, 0)
  | m, scale + 1 =>
    if m < Binary64.leadingBit then (m, scale + 1) else limitPrecision (dropDigit m) scale

/-- Drops the zeros at the end of the fraction. -/
def stripZeros : Nat → Nat → Nat × Nat
  | m, 0 => (m, 0)
  | m, scale + 1 => if m % 10 = 0 then stripZeros (m / 10) scale else (m, scale + 1)

/-- The decimal of `± m · 2^e`: exact for an integer, else to the precision of a binary
    number. Integers beyond the greatest coefficient have none. -/
def ofBinary? (negative : Bool) (m : Nat) (e : Int) : Option Decimal :=
  if e < 0 then
    let k := (-e).toNat
    let exact := halveTimes k (m, k)
    let scaled := limitScale exact.1 exact.2
    let precise := limitPrecision scaled.1 scaled.2
    let bare := stripZeros precise.1 precise.2
    ofParts? negative bare.1 bare.2
  else ofParts? negative (m * Nat.pow 2 e.toNat) 0

/-- The decimal of a binary number, if it has one. -/
def ofBinary64? (x : Binary64) : Option Decimal :=
  match x.content with
  | .nan => none
  | .infinite _ => none
  | .finite negative 0 _ => some ⟨negative, 0, 0, by decide, by decide⟩
  | .finite negative m e => ofBinary? negative m e

end Decimal

end EntitySql
