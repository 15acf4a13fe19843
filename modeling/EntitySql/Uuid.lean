/-
  Universally unique identifiers: 128 bits, written as 32 hexadecimal digits in five groups.
-/
import EntitySql.Number.IntegerText

namespace EntitySql

/-- An identifier of 128 bits. -/
structure Uuid where
  /-- The bits, the first written digit in the highest four. -/
  value : BitVec 128
deriving DecidableEq

namespace Uuid

/-- The identifier whose bits are all zero. -/
def nil : Uuid := ⟨0⟩

/-- Whether all bits are zero. -/
def isNil (u : Uuid) : Bool := u.value == 0

/-- The hexadecimal digit of a number below 16. -/
def hexDigit (n : Nat) : Char :=
  if n < 10 then Char.ofNat ('0'.toNat + n) else Char.ofNat ('a'.toNat + n - 10)

/-- The value of a hexadecimal digit in either case. -/
def hexValue? (c : Char) : Option Nat :=
  if '0' ≤ c ∧ c ≤ '9' then some (c.toNat - '0'.toNat)
  else if 'a' ≤ c ∧ c ≤ 'f' then some (c.toNat - 'a'.toNat + 10)
  else if 'A' ≤ c ∧ c ≤ 'F' then some (c.toNat - 'A'.toNat + 10)
  else none

/-- The last `count` hexadecimal digits of a number, in front of the given characters. -/
def hexDigits : Nat → Nat → List Char → List Char
  | 0, _, cs => cs
  | count + 1, n, cs => hexDigits count (n / 16) (hexDigit (n % 16) :: cs)

/-- The number written with hexadecimal digits behind the one read so far. -/
def readHex : Nat → List Char → Option Nat
  | n, [] => some n
  | n, c :: cs => (hexValue? c).bind fun d => readHex (16 * n + d) cs

/-- The 32 hexadecimal digits. -/
def hex (u : Uuid) : List Char := hexDigits 32 u.value.toNat []

/-- Digits in groups of eight, four, four, four and twelve, with hyphens between them. -/
def hyphenate (ds : List Char) : List Char :=
  ds.take 8 ++ '-' :: ((ds.drop 8).take 4 ++ '-' :: ((ds.drop 12).take 4 ++
    '-' :: ((ds.drop 16).take 4 ++ '-' :: ds.drop 20)))

/-- The written form: lower case digits in five groups. -/
def text (u : Uuid) : String := String.ofList (hyphenate u.hex)

/-- Reads 32 hexadecimal digits. -/
def parseDigits (ds : List Char) : Option Uuid :=
  if ds.length = 32 then (readHex 0 ds).map fun n => ⟨BitVec.ofNat 128 n⟩ else none

/-- Reads digits in five groups. -/
def parseGroups (cs : List Char) : Option Uuid :=
  let ds := cs.take 8 ++ ((cs.drop 9).take 4 ++ ((cs.drop 14).take 4 ++
    ((cs.drop 19).take 4 ++ cs.drop 24)))
  if cs.length = 36 ∧ cs = hyphenate ds then parseDigits ds else none

/-- Reads an identifier: bare digits, or five groups that may stand in braces or behind
    `urn:uuid:`. -/
def parse (s : String) : Option Uuid :=
  let cs := s.toList
  match cs.length with
  | 32 => parseDigits cs
  | 36 => parseGroups cs
  | 38 =>
    if cs.head? = some '{' ∧ cs.getLast? = some '}' then parseGroups (cs.drop 1).dropLast
    else none
  | 45 =>
    if (cs.take 9).map Char.toLower = "urn:uuid:".toList then parseGroups (cs.drop 9) else none
  | _ => none

/-- The identifier with the given 16 bytes. -/
def ofBytes? (bytes : List UInt8) : Option Uuid :=
  if bytes.length = 16 then
    some ⟨BitVec.ofNat 128 (bytes.foldl (fun n b => 256 * n + b.toNat) 0)⟩
  else none

/-! ## Versions -/

/-- The digit that tells how an identifier was made. -/
def version (u : Uuid) : Nat := (u.value >>> 76).toNat % 16

/-- Whether the bits behind the version are those of the common layout. -/
def hasCommonVariant (u : Uuid) : Bool := (u.value >>> 62).toNat % 4 == 2

/-- The identifier of the common layout with a version and three payloads: 48 bits in front of
    the version, 12 behind it, and 62 at the end. -/
def ofPayload (version : BitVec 4) (front : BitVec 48) (middle : BitVec 12) (back : BitVec 62) :
    Uuid :=
  ⟨front ++ version ++ middle ++ BitVec.ofNat 2 2 ++ back⟩

/-- The identifier of the common layout with a version and 122 bits of payload. -/
def ofPayloadBits (version : BitVec 4) (bits : BitVec 122) : Uuid :=
  ofPayload version ((bits >>> 74).setWidth 48) ((bits >>> 62).setWidth 12) (bits.setWidth 62)

end Uuid

/-- A supply of identifiers: the one handed out at every request, counted from zero. -/
abbrev IdentifierSource := Nat → Uuid

namespace IdentifierSource

/-- Scatters a number over 122 bits. Numbers of 122 bits stay distinct, since the factor is
    odd. -/
def scatter (n : Nat) : BitVec 122 :=
  BitVec.ofNat 122 n * BitVec.ofNat 122 0x2545F4914F6CDD1D9E3779B97F4A7C5 +
    BitVec.ofNat 122 0x9E3779B97F4A7C15F39CC0605CED

/-- Scattered identifiers of version 4. -/
def scattered : IdentifierSource := fun n => Uuid.ofPayloadBits 4 (scatter n)

/-- Ascending identifiers of version 7. -/
def ascending : IdentifierSource := fun n => Uuid.ofPayloadBits 7 (BitVec.ofNat 122 n)

/-- The given identifiers, and then those of another supply. -/
def listed (first : List Uuid) (next : IdentifierSource) : IdentifierSource := fun n =>
  first.getD n (next n)

/-- Identifiers counted up from a first one. -/
def counted (first : Uuid) : IdentifierSource := fun n => ⟨first.value + BitVec.ofNat 128 n⟩

end IdentifierSource

end EntitySql
