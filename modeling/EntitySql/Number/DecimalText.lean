/-
  Decimals read from text: plain digits with a point, and the notation with a power of ten.
-/
import EntitySql.Number.Decimal
import EntitySql.Number.IntegerText

namespace EntitySql

namespace DecimalText

open IntegerText (digit?)

/-- A decimal read from text. The sign of a zero is dropped. -/
def make (negative : Bool) (coefficient scale : Nat) : Option Decimal :=
  Decimal.ofParts? (negative && coefficient != 0) coefficient scale

/-- Ends the reading at the greatest precision: a digit rounds the digits read so far, a half
    up. Behind it only digits and underscores may follow, which do not count. -/
def round (negative : Bool) (m scale digit : Nat) (rest : List Char) : Option Decimal :=
  if rest.all fun c => c == '_' || (digit? c).isSome then
    if digit < 5 then make negative m scale
    else if m + 1 < Decimal.bound then make negative (m + 1) scale
    else if scale = 0 then none
    else make negative ((m + 5) / 10) (scale - 1)
  else none

/-- Whether a coefficient was beyond the short range, about a tenth of 64 bits, before its last
    digit. -/
def isLong (m : Nat) : Bool := 1844674407370954906 ≤ m / 10

/-- Reads on behind an underscore at the greatest scale: the first digit behind the underscores
    rounds. -/
def roundNext (negative : Bool) (m scale : Nat) : List Char → Option Decimal
  | [] => make negative m scale
  | c :: cs =>
    match digit? c with
    | some d => round negative m scale d cs
    | none => if c = '_' then roundNext negative m scale cs else none

/-- Reads the fraction digits behind a point. Behind a short coefficient, an underscore at the
    greatest scale counts as the digit zero. -/
def fraction (negative : Bool) : Bool → Nat → Nat → List Char → Option Decimal
  | seen, m, scale, [] => if seen then make negative m scale else none
  | seen, m, scale, c :: cs =>
    if scale ≥ Decimal.maxScale then
      match digit? c with
      | some d => round negative m scale d cs
      | none =>
        if c = '_' then
          if isLong m then roundNext negative m scale cs else round negative m scale 0 cs
        else none
    else
      match digit? c with
      | some d =>
        if 10 * m + d < Decimal.bound then fraction negative true (10 * m + d) (scale + 1) cs
        else round negative m scale d cs
      | none => if c = '_' ∧ seen then fraction negative seen m scale cs else none

/-- Reads the digits up to a point, and what follows the point. Underscores may stand behind
    the first digit. -/
def whole (negative : Bool) : Bool → Nat → List Char → Option Decimal
  | seen, m, [] => if seen then make negative m 0 else none
  | seen, m, c :: cs =>
    match digit? c with
    | some d => if 10 * m + d < Decimal.bound then whole negative true (10 * m + d) cs else none
    | none =>
      if c = '.' then fraction negative seen m 0 cs
      else if c = '_' ∧ seen then whole negative seen m cs
      else none

/-- The decimal written with digits and a point. -/
def plain : List Char → Option Decimal
  | '-' :: cs => whole true false 0 cs
  | '+' :: cs => whole false false 0 cs
  | cs => whole false false 0 cs

/-- A natural number below `2^32`, with an optional plus sign. -/
def power (cs : List Char) : Option Nat :=
  let digits := match cs with
    | '+' :: rest => rest
    | rest => rest
  if digits.isEmpty then none
  else
    match IntegerText.scan 0xFFFFFFFF .tooLarge 0 digits with
    | .ok n => some n
    | .error _ => none

/-- Divides a decimal by a power of ten up to the greatest scale. Digits beyond that scale are
    dropped, and a half is rounded up. -/
def shiftDown (d : Decimal) (n : Nat) : Option Decimal :=
  if n ≤ Decimal.maxScale then
    if d.scale + n ≤ Decimal.maxScale then Decimal.ofParts? d.negative d.coefficient (d.scale + n)
    else
      let dropped := Nat.pow 10 (d.scale + n - Decimal.maxScale)
      Decimal.ofParts? d.negative (Ratio.nearestUp d.coefficient dropped) Decimal.maxScale
  else none

/-- Multiplies a decimal with a power of ten, within the greatest coefficient. -/
def shiftUp (d : Decimal) (n : Nat) : Option Decimal :=
  if n ≤ d.scale then Decimal.ofParts? d.negative d.coefficient (d.scale - n)
  else if n ≤ Decimal.maxScale then make d.negative (d.coefficient * Nat.pow 10 (n - d.scale)) 0
  else none

/-- The decimal written with a power of ten behind an `e`. -/
def scientific (cs : List Char) : Option Decimal :=
  let isMark (c : Char) : Bool := c == 'e' || c == 'E'
  match plain (cs.takeWhile (!isMark ·)), cs.dropWhile (!isMark ·) with
  | some d, _ :: '-' :: digits => (power digits).bind (shiftDown d)
  | some d, _ :: digits => (power digits).bind (shiftUp d)
  | _, _ => none

/-- The decimal a text denotes. -/
def parse (s : String) : Option Decimal :=
  match plain s.toList with
  | some d => some d
  | none => scientific s.toList

end DecimalText

end EntitySql
