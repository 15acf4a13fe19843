/-
  Signed 64-bit integers written in decimal digits.
-/
import EntitySql.Text.Blank

namespace EntitySql

/-- Why a text is not a signed 64-bit integer. -/
inductive IntegerFault where
  /-- There is no character. -/
  | empty
  /-- A character is not a digit, or a sign stands alone. -/
  | invalidDigit
  /-- The number is above the greatest one. -/
  | tooLarge
  /-- The number is below the least one. -/
  | tooSmall
deriving DecidableEq

/-- Wording of the fault. -/
def IntegerFault.message : IntegerFault → String
  | .empty => "cannot parse integer from empty string"
  | .invalidDigit => "invalid digit found in string"
  | .tooLarge => "number too large to fit in target type"
  | .tooSmall => "number too small to fit in target type"

namespace IntegerText

/-- The value of an ASCII digit. -/
def digit? (c : Char) : Option Nat :=
  if '0' ≤ c ∧ c ≤ '9' then some (c.toNat - '0'.toNat) else none

/-- Reads digits behind the number read so far. The first fault in reading order wins:
    a character that is no digit, or a digit that takes the number beyond `limit`. -/
def scan (limit : Nat) (beyond : IntegerFault) : Nat → List Char → Except IntegerFault Nat
  | n, [] => .ok n
  | n, c :: cs =>
    match digit? c with
    | none => .error .invalidDigit
    | some d => if 10 * n + d ≤ limit then scan limit beyond (10 * n + d) cs else .error beyond

/-- The integer a text denotes: an optional sign and at least one digit. -/
def parse (cs : List Char) : Except IntegerFault Int :=
  match cs with
  | [] => .error .empty
  | ['+'] => .error .invalidDigit
  | ['-'] => .error .invalidDigit
  | '+' :: cs => (scan 0x7FFFFFFFFFFFFFFF .tooLarge 0 cs).map Int.ofNat
  | '-' :: cs => (scan 0x8000000000000000 .tooSmall 0 cs).map fun n => - Int.ofNat n
  | cs => (scan 0x7FFFFFFFFFFFFFFF .tooLarge 0 cs).map Int.ofNat

/-- The integer a text denotes once the blanks at both ends are dropped. -/
def parseTrimmed (s : String) : Except IntegerFault Int := parse (Text.trimBlanks s.toList)

end IntegerText

end EntitySql
