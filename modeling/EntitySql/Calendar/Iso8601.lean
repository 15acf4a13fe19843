/-
  Dates and times in the notations of ISO 8601: calendar, ordinal and week dates, times with a
  fraction of their last part, and an offset that is read and dropped.
-/
import EntitySql.Calendar.Basic
import EntitySql.Number.Binary64
import EntitySql.Number.IntegerText

namespace EntitySql

namespace Iso8601

open IntegerText (digit?)

/-- Whether the parts are separated. It is settled by the first place where a separator could
    stand. -/
inductive Style where
  /-- Not settled yet. -/
  | unknown
  /-- No separators. -/
  | basic
  /-- Hyphens between the parts of a date, colons between the parts of a time. -/
  | extended
deriving DecidableEq

/-- The parts of a date as they are written, each in the range that some year allows. -/
inductive DateParts where
  /-- Month and day of the month. -/
  | calendar (year : Int) (month day : Nat)
  /-- Day of the year. -/
  | ordinal (year : Int) (day : Nat)
  /-- Week of the year and weekday. -/
  | week (year : Int) (week weekday : Nat)

/-- The parts of a time as they are written. -/
structure TimeParts where
  /-- The hour. -/
  hour : Nat
  /-- The minute. -/
  minute : Nat := 0
  /-- The second, 60 for a leap second. -/
  second : Nat := 0
  /-- The nanosecond. -/
  nanosecond : Nat := 0

/-- Reads exactly `count` digits behind the number read so far. -/
def digits : Nat → Nat → List Char → Option (Nat × List Char)
  | 0, n, cs => some (n, cs)
  | _ + 1, _, [] => none
  | count + 1, n, c :: cs => (digit? c).bind fun d => digits count (10 * n + d) cs

/-- Reads exactly `count` digits that denote a number within bounds. -/
def number (count least greatest : Nat) (cs : List Char) : Option (Nat × List Char) :=
  (digits count 0 cs).filter fun r => least ≤ r.1 && r.1 ≤ greatest

/-- Reads one given character. -/
def literal (c : Char) : List Char → Option (List Char)
  | [] => none
  | d :: cs => if d = c then some cs else none

/-! ## Dates -/

/-- Reads a year: four digits, or a sign and six. -/
def year : List Char → Option (Int × List Char)
  | '+' :: cs => (digits 6 0 cs).map fun r => (Int.ofNat r.1, r.2)
  | '-' :: cs => (digits 6 0 cs).map fun r => (- Int.ofNat r.1, r.2)
  | cs => (digits 4 0 cs).map fun r => (Int.ofNat r.1, r.2)

/-- Reads the hyphen that the extended style asks for. -/
def hyphen (style : Style) (cs : List Char) : Option (List Char) :=
  if style = .extended then literal '-' cs else some cs

/-- Whether some year within four digits has such a month, day or week. -/
def DateParts.inRange : DateParts → Bool
  | .calendar year month day =>
    -9999 ≤ year && year ≤ 9999 && 1 ≤ month && month ≤ 12 && 1 ≤ day && day ≤ 31
  | .ordinal year day => -9999 ≤ year && year ≤ 9999 && 1 ≤ day && day ≤ 366
  | .week year n weekday =>
    -9999 ≤ year && year ≤ 9999 && 1 ≤ n && n ≤ 53 && 1 ≤ weekday && weekday ≤ 7

/-- Reads what follows the year: month and day, a day of the year, or a week and a weekday. The
    first of them whose digits fit has to be in range. -/
def afterYear (style : Style) (y : Int) (cs : List Char) : Option (DateParts × List Char) :=
  let calendar := do
    let (month, cs) ← number 2 1 12 cs
    let cs ← hyphen style cs
    let (day, cs) ← number 2 1 99 cs
    some (DateParts.calendar y month day, cs)
  let ordinal := do
    let (day, cs) ← number 3 1 999 cs
    some (DateParts.ordinal y day, cs)
  let week := do
    let cs ← literal 'W' cs
    let (n, cs) ← number 2 0 99 cs
    let cs ← hyphen style cs
    let (weekday, cs) ← number 1 1 7 cs
    some (DateParts.week y n weekday, cs)
  (calendar <|> ordinal <|> week).filter fun r => r.1.inRange

/-- Reads a date. The style is settled behind the year, also when the date then fails. -/
def date (cs : List Char) : Style × Option (DateParts × List Char) :=
  match year cs with
  | none => (.unknown, none)
  | some (y, '-' :: rest) => (.extended, afterYear .extended y rest)
  | some (y, rest) => (.basic, afterYear .basic y rest)

/-- The day that the parts denote, if there is one. -/
def DateParts.toDate? : DateParts → Option Date
  | .calendar y month day => Date.ofParts? y month day
  | .ordinal y day => Date.ofOrdinal? y day
  | .week y n weekday => Date.ofWeek? y n weekday

/-! ## Fractions -/

/-- The sum of a fraction and further digits, rounded to a binary number at every digit. Once
    the divisor has left the range of binary numbers, digits add nothing. -/
def fractionDigits : Nat × Nat → Nat × Nat → List Char → (Nat × Nat) × List Char
  | sum, _, [] => (sum, [])
  | sum, divisor, c :: cs =>
    match digit? c with
    | none => (sum, c :: cs)
    | some d =>
      let divisor := Binary64.roundedProduct divisor (10, 1)
      let part := Binary64.roundedQuotient (d, 1) divisor
      fractionDigits (Binary64.roundedSum sum part) divisor cs

/-- Two digits, with a fraction behind a point or a comma. -/
def part (cs : List Char) : Option ((Nat × Option (Nat × Nat)) × List Char) := do
  let (n, rest) ← digits 2 0 cs
  match rest with
  | [] => some ((n, none), rest)
  | c :: after =>
    if c = '.' ∨ c = ',' then
      match after with
      | [] => none
      | d :: after => do
        let d ← digit? d
        let (sum, rest) := fractionDigits (Binary64.nearest d 10) (10, 1) after
        some ((n, some sum), rest)
    else some ((n, none), rest)

/-- How many of the smaller units a fraction of the greater one fills, rounded as binary
    numbers are. -/
def spread (fraction : Nat × Nat) (units : Nat) : Nat × Nat :=
  Binary64.roundedProduct fraction (units, 1)

/-- The whole number of smaller units in a fraction. -/
def wholeUnits (fraction : Nat × Nat) (units : Nat) : Nat :=
  let r := spread fraction units
  r.1 / r.2

/-! ## Times -/

/-- Reads the second and what follows a minute. -/
def afterMinute (style : Style) (hour minute : Nat) (cs : List Char) :
    Option (TimeParts × List Char) :=
  let second (cs : List Char) : Option (TimeParts × List Char) :=
    match part cs with
    | some ((second, fraction), rest) =>
      let nanosecond := match fraction with
        | none => 0
        | some f => let r := spread f nanosecondsPerSecond; Ratio.nearestUp r.1 r.2
      if second ≤ 60 ∧ nanosecond < nanosecondsPerSecond then
        some ({ hour, minute, second, nanosecond }, rest)
      else none
    | none => if style = .extended then none else some ({ hour, minute }, cs)
  if style = .extended then
    match literal ':' cs with
    | some cs => second cs
    | none => some ({ hour, minute }, cs)
  else second cs

/-- Reads the minute and what follows an hour. A minute without a colon in front of it settles
    the basic style. -/
def afterHour (style : Style) (hour : Nat) (cs : List Char) :
    Style × Option (TimeParts × List Char) :=
  match part cs with
  | none => (style, if style = .extended then none else some ({ hour := hour }, cs))
  | some ((minute, fraction), rest) =>
    let style := if style = .unknown then .basic else style
    if minute < 60 then
      match fraction with
      | none => (style, afterMinute style hour minute rest)
      | some f =>
        let nanoseconds := wholeUnits f (60 * nanosecondsPerSecond)
        (style, some ({ hour, minute, second := wholeUnits f 60
                        nanosecond := nanoseconds % nanosecondsPerSecond }, rest))
    else (style, none)

/-- Spreads a fraction of an hour over the smaller units. A fraction that was rounded up to the
    whole hour is refused. -/
def spreadHour (hour : Nat) (fraction : Nat × Nat) : Option TimeParts :=
  let minute := wholeUnits fraction 60
  let nanoseconds := wholeUnits fraction (3600 * nanosecondsPerSecond)
  if minute < 60 then
    some { hour, minute, second := wholeUnits fraction 3600 % 60
           nanosecond := nanoseconds % nanosecondsPerSecond }
  else none

/-- Reads a time. The letter in front is needed behind a date only. -/
def time (style : Style) (behindDate : Bool) (cs : List Char) :
    Style × Option (TimeParts × List Char) :=
  let start := if behindDate then literal 'T' cs else some ((literal 'T' cs).getD cs)
  match start.bind part with
  | none => (style, none)
  | some ((hour, fraction), rest) =>
    if hour < 24 then
      match fraction with
      | some f => (style, (spreadHour hour f).map fun t => (t, rest))
      | none =>
        match literal ':' rest with
        | some rest => if style = .basic then (style, none) else afterHour .extended hour rest
        | none => afterHour style hour rest
    else (style, none)

/-- The time that the parts denote, if there is one. -/
def TimeParts.toTime? (t : TimeParts) : Option Time :=
  Time.ofParts? t.hour t.minute t.second t.nanosecond

/-! ## Offsets -/

/-- Reads an offset from universal time, and drops it. -/
def offset (style : Style) (cs : List Char) : Option (List Char) :=
  let signed (cs : List Char) : Option (List Char) := do
    let (_, cs) ← number 2 0 25 cs
    let cs := if style = .basic then cs else (literal ':' cs).getD cs
    match digits 2 0 cs with
    | some (minute, rest) => if minute < 60 then some rest else none
    | none => some cs
  match cs with
  | 'Z' :: cs => some cs
  | '+' :: cs => signed cs
  | '-' :: cs => signed cs
  | _ => none

/-! ## Whole texts -/

/-- The date and the time that a text holds. What cannot be read as a date is read as a time
    from the beginning; nothing may be left over. -/
def read (s : String) : Option (Option DateParts × Option TimeParts) :=
  let (style, d) := date s.toList
  let rest := (d.map (·.2)).getD s.toList
  let (style, t) := time style d.isSome rest
  let rest := (t.map (·.2)).getD rest
  let rest := if d.isNone || t.isSome then (offset style rest).getD rest else rest
  if rest.isEmpty then some (d.map (·.1), t.map (·.1)) else none

/-- The day a text denotes. A time behind it is dropped. -/
def parseDate (s : String) : Option Date := do
  let (d, _) ← read s
  (← d).toDate?

/-- The time a text denotes, without a day. -/
def parseTime (s : String) : Option Time := do
  let (_, t) ← read s
  (← t).toTime?

/-- The day and the time a text denotes. -/
def parseTimestamp (s : String) : Option Timestamp := do
  let (d, t) ← read s
  some ⟨← (← d).toDate?, ← (← t).toTime?⟩

end Iso8601

end EntitySql
