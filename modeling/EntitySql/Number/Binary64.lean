/-
  Binary floating point numbers of 64 bits, kept as their bits. All arithmetic is exact:
  a finite number is read as a ratio of naturals, and a ratio is rounded to the nearest
  number.
-/
import EntitySql.Number.Ratio

namespace EntitySql

/-- A number of the IEEE 754 format with 64 bits. -/
structure Binary64 where
  /-- Sign, eleven bits of exponent, 52 bits of fraction. -/
  bits : UInt64
deriving DecidableEq

namespace Binary64

/-- The number the bits stand for: not a number, an infinity, or `± m · 2^e`. -/
inductive Content where
  /-- Not a number. -/
  | nan
  /-- An infinity. -/
  | infinite (negative : Bool)
  /-- The number `± m · 2^e`. -/
  | finite (negative : Bool) (m : Nat) (e : Int)
deriving DecidableEq

/-- The place of the sign, `2^63`. -/
abbrev signBit : Nat := 0x8000000000000000

/-- The place in front of the fraction, `2^52`: the exponent begins there, and so does the
    significand of a number that is not tiny. -/
abbrev leadingBit : Nat := 0x10000000000000

/-- What the bits stand for. -/
def content (x : Binary64) : Content :=
  let n := x.bits.toNat
  let negative := n / signBit == 1
  let exponent : Nat := n / leadingBit % 0x800
  let fraction := n % leadingBit
  if exponent = 0x7FF then if fraction = 0 then .infinite negative else .nan
  else if exponent = 0 then .finite negative fraction (-1074)
  else .finite negative (leadingBit + fraction) (Int.ofNat exponent - 1075)

/-- The one representative of all that is not a number. -/
def nan : Binary64 := ⟨0x7FF8000000000000⟩

/-- The number with the given bits; everything that is not a number becomes `nan`. -/
def ofBits (bits : UInt64) : Binary64 :=
  match content ⟨bits⟩ with
  | .nan => nan
  | _ => ⟨bits⟩

/-- Positive zero. -/
def zero : Binary64 := ⟨0⟩

/-- The ratio `m · 2^e`. -/
def ratio (m : Nat) (e : Int) : Nat × Nat :=
  if 0 ≤ e then (m * Nat.pow 2 e.toNat, 1) else (m, Nat.pow 2 (-e).toNat)

/-- The number nearest to `± num / den`, the one with an even significand of two equally near,
    infinity beyond the range. -/
def ofRatio (negative : Bool) (num den : Nat) : Binary64 :=
  let sign : Nat := if negative then signBit else 0
  if num = 0 then ⟨UInt64.ofNat sign⟩
  else
    let guess : Int := Int.ofNat num.log2 - Int.ofNat den.log2 - 52
    let scaled (e : Int) : Nat × Nat :=
      if 0 ≤ e then (num, den * Nat.pow 2 e.toNat) else (num * Nat.pow 2 (-e).toNat, den)
    let exact := scaled guess
    let e := if exact.1 / exact.2 < leadingBit then guess - 1 else guess
    let e := if e < -1074 then -1074 else e
    let whole := scaled e
    let m := Ratio.nearestEven whole.1 whole.2
    let magnitude := (e + 1074).toNat * leadingBit + m
    let magnitude := if magnitude < 0x7FF * leadingBit then magnitude else 0x7FF * leadingBit
    ⟨UInt64.ofNat (sign + magnitude)⟩

/-! ## Rounded arithmetic

Positive numbers are written as ratios here; an operation gives the ratio of the binary number
nearest to the exact result. -/

/-- The binary number nearest to a ratio. Beyond the range of binary numbers it is zero. -/
def nearest (num den : Nat) : Nat × Nat :=
  match (ofRatio false num den).content with
  | .finite _ m e => ratio m e
  | _ => (0, 1)

/-- The sum, rounded. -/
def roundedSum (a b : Nat × Nat) : Nat × Nat := nearest (a.1 * b.2 + b.1 * a.2) (a.2 * b.2)

/-- The product, rounded. -/
def roundedProduct (a b : Nat × Nat) : Nat × Nat := nearest (a.1 * b.1) (a.2 * b.2)

/-- The quotient, rounded. A quotient by zero is zero. -/
def roundedQuotient (a b : Nat × Nat) : Nat × Nat :=
  if b.1 = 0 then (0, 1) else nearest (a.1 * b.2) (a.2 * b.1)

/-! ## Integers -/

/-- The number nearest to an integer. -/
def ofInt (i : Int) : Binary64 := ofRatio (i < 0) i.natAbs 1

/-- Numbers compare by value: both zeros are one, and what is not a number equals nothing. -/
def same (x y : Binary64) : Bool :=
  match x.content, y.content with
  | .nan, _ => false
  | _, .nan => false
  | .finite _ 0 _, .finite _ 0 _ => true
  | _, _ => x.bits == y.bits

/-- The integer a number is, when it is whole. -/
def toInt? (x : Binary64) : Option Int :=
  match x.content with
  | .finite negative m e =>
    let r := ratio m e
    if r.1 % r.2 = 0 then some (if negative then - Int.ofNat (r.1 / r.2) else Int.ofNat (r.1 / r.2))
    else none
  | _ => none

end Binary64

end EntitySql
