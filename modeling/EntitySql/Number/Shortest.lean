/-
  The shortest decimal text of a binary number: the fewest digits that read back as the
  number, the nearest such digits, and the greater of two equally near.
-/
import EntitySql.Number.Binary64

namespace EntitySql

namespace Shortest

/-- A positive decimal `digits · 10^exponent`. -/
structure Digits where
  /-- The digits, as a natural number. -/
  digits : Nat
  /-- The power of ten of the last digit. -/
  exponent : Int
deriving DecidableEq

/-- The positive reals that round to `m · 2^e`, as numerators over one denominator. -/
structure Neighbourhood where
  /-- Numerator of the least one. -/
  low : Nat
  /-- Numerator of the number itself. -/
  value : Nat
  /-- Numerator of the greatest one. -/
  high : Nat
  /-- The common denominator. -/
  den : Nat
  /-- Whether the ends round to the number as well. -/
  closed : Bool

/-- The reals nearest to `m · 2^e` among the numbers of the format. A power of two has its
    lower neighbour at half the distance. -/
def neighbourhood (m : Nat) (e : Int) : Neighbourhood :=
  let half := Binary64.ratio 1 (e - 2)
  let below := if m = Binary64.leadingBit ∧ -1074 < e then 1 else 2
  { low := (4 * m - below) * half.1
    value := 4 * m * half.1
    high := (4 * m + 2) * half.1
    den := half.2
    closed := m % 2 == 0 }

/-- Whether `d · 10^k` rounds to the number. -/
def Neighbourhood.contains (n : Neighbourhood) (d : Nat) (k : Int) : Bool :=
  let p := if 0 ≤ k then d * Nat.pow 10 k.toNat * n.den else d * n.den
  let q := if 0 ≤ k then 1 else Nat.pow 10 (-k).toNat
  if n.closed then n.low * q ≤ p && p ≤ n.high * q else n.low * q < p && p < n.high * q

/-- The best of the two neighbours of the number on the grid of `10^k`, if one of them
    reads back. -/
def Neighbourhood.onGrid (n : Neighbourhood) (k : Int) : Option Nat :=
  let num := if 0 ≤ k then n.value else n.value * Nat.pow 10 (-k).toNat
  let den := if 0 ≤ k then n.den * Nat.pow 10 k.toNat else n.den
  let down := num / den
  let nearest := Ratio.nearestUp num den
  let other := if nearest = down then down + 1 else down
  if n.contains nearest k then some nearest
  else if n.contains other k then some other
  else none

/-- Drops the zeros at the end of the digits. -/
def Digits.strip : Nat → Digits → Digits
  | 0, d => d
  | fuel + 1, d =>
    if d.digits ≠ 0 ∧ d.digits % 10 = 0 then Digits.strip fuel ⟨d.digits / 10, d.exponent + 1⟩
    else d

/-- The first grid, from one digit on, that holds a number that reads back. -/
def search (n : Neighbourhood) (top : Int) : Nat → Nat → Digits
  | 0, count => ⟨(n.onGrid (top - count)).getD 0, top - count⟩
  | fuel + 1, count =>
    match n.onGrid (top - count) with
    | some d => ⟨d, top - count⟩
    | none => search n top fuel (count + 1)

/-- The shortest digits of `m · 2^e`, for a positive `m`. Seventeen digits always suffice. -/
def digits (m : Nat) (e : Int) : Digits :=
  let n := neighbourhood m e
  (search n (Ratio.decade n.value n.den) 16 1).strip 20

/-- The digits with a point at their place and no exponent. -/
def Digits.positional (d : Digits) : List Char :=
  let ds := Nat.toDigits 10 d.digits
  if 0 ≤ d.exponent then ds ++ List.replicate d.exponent.toNat '0'
  else
    let places := (-d.exponent).toNat
    let padded := List.replicate (places + 1 - ds.length) '0' ++ ds
    padded.take (padded.length - places) ++ '.' :: padded.drop (padded.length - places)

/-- The digits with the point behind the first one and the power of ten after an `e`. -/
def Digits.scientific (d : Digits) : List Char :=
  let ds := Nat.toDigits 10 d.digits
  let power := d.exponent + (ds.length - 1 : Nat)
  let fraction := ds.drop 1
  ds.take 1 ++ (if fraction.isEmpty then [] else '.' :: fraction) ++ 'e' :: (toString power).toList

end Shortest

namespace Binary64

/-- The text of a number: shortest digits, never an exponent. -/
def text (x : Binary64) : String :=
  let sign (negative : Bool) : String := if negative then "-" else ""
  match x.content with
  | .nan => "NaN"
  | .infinite negative => sign negative ++ "inf"
  | .finite negative 0 _ => sign negative ++ "0"
  | .finite negative m e => sign negative ++ String.ofList (Shortest.digits m e).positional

/-- The text of a number that cannot be taken for an integer's: whole numbers carry `.0`, and
    numbers from `10^16` on or below `10^-4` an exponent. -/
def fullText (x : Binary64) : String :=
  let sign (negative : Bool) : String := if negative then "-" else ""
  match x.content with
  | .nan => "NaN"
  | .infinite negative => sign negative ++ "inf"
  | .finite negative 0 _ => sign negative ++ "0.0"
  | .finite negative m e =>
    let d := Shortest.digits m e
    let point := d.exponent + Ratio.digitCount d.digits
    sign negative ++ String.ofList
      (if point > 16 ∨ point < -3 then d.scientific
       else if 0 ≤ d.exponent then d.positional ++ ['.', '0'] else d.positional)

end Binary64

end EntitySql
