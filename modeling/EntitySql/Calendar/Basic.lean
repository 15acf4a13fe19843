/-
  Dates of the proleptic Gregorian calendar, times of the day and both together, with their
  text.
-/

namespace EntitySql

/-- Whether a year has a 29th of February. -/
def isLeapYear (year : Int) : Bool := year % 4 == 0 && (year % 100 != 0 || year % 400 == 0)

/-- Number of days of a month. -/
def daysInMonth (year : Int) (month : Nat) : Nat :=
  match month with
  | 2 => if isLeapYear year then 29 else 28
  | 4 | 6 | 9 | 11 => 30
  | _ => 31

/-- A day of the calendar, from the year -9999 to the year 9999. -/
structure Date where
  /-- The year; the year 0 comes before the year 1. -/
  year : Int
  /-- The month, from 1 on. -/
  month : Nat
  /-- The day of the month, from 1 on. -/
  day : Nat
  valid : -9999 ≤ year ∧ year ≤ 9999 ∧ 1 ≤ month ∧ month ≤ 12 ∧ 1 ≤ day ∧
    day ≤ daysInMonth year month
deriving DecidableEq

/-- Number of nanoseconds of a second. -/
abbrev nanosecondsPerSecond : Nat := 1000000000

/-- A time of the day to the nanosecond. -/
structure Time where
  /-- The hour, below 24. -/
  hour : Nat
  /-- The minute, below 60. -/
  minute : Nat
  /-- The second, below 60. -/
  second : Nat
  /-- The nanosecond, below a milliard. -/
  nanosecond : Nat
  valid : hour < 24 ∧ minute < 60 ∧ second < 60 ∧ nanosecond < nanosecondsPerSecond
deriving DecidableEq

/-- A day and a time of that day. -/
structure Timestamp where
  /-- The day. -/
  date : Date
  /-- The time. -/
  time : Time
deriving DecidableEq

/-- A number with zeros in front up to a width. -/
def paddedNumber (width n : Nat) : String :=
  let ds := Nat.toDigits 10 n
  String.ofList (List.replicate (width - ds.length) '0' ++ ds)

namespace Date

/-- The day with the given year, month and day of the month, if there is one. -/
def ofParts? (year : Int) (month day : Nat) : Option Date :=
  if h : -9999 ≤ year ∧ year ≤ 9999 ∧ 1 ≤ month ∧ month ≤ 12 ∧ 1 ≤ day ∧
      day ≤ daysInMonth year month then
    some ⟨year, month, day, h⟩
  else none

/-- The month and the day of the month that an ordinal day falls on, counting from `month`. -/
def splitOrdinal (year : Int) : Nat → Nat → Nat → Nat × Nat
  | 0, month, ordinal => (month, ordinal)
  | fuel + 1, month, ordinal =>
    if ordinal ≤ daysInMonth year month then (month, ordinal)
    else splitOrdinal year fuel (month + 1) (ordinal - daysInMonth year month)

/-- Number of days of a year. -/
def daysInYear (year : Int) : Nat := if isLeapYear year then 366 else 365

/-- The day with the given number within its year, from 1 on. -/
def ofOrdinal? (year : Int) (ordinal : Nat) : Option Date :=
  if 1 ≤ ordinal ∧ ordinal ≤ daysInYear year then
    let split := splitOrdinal year 12 1 ordinal
    ofParts? year split.1 split.2
  else none

/-- The weekday of the first of January, 0 for a Monday. -/
def firstWeekday (year : Int) : Nat :=
  let y := year - 1
  ((y * 365 + Int.fdiv y 4 - Int.fdiv y 100 + Int.fdiv y 400) % 7).toNat

/-- Number of weeks of a year: 53 when it begins on a Thursday, or on a Wednesday and is a
    leap year. -/
def weeksInYear (year : Int) : Nat :=
  if firstWeekday year = 3 ∨ (firstWeekday year = 2 ∧ isLeapYear year) then 53 else 52

/-- The day with the given week of its year and weekday, 1 for a Monday. Week 1 holds the
    fourth of January, so that the day may fall into the year before or after. -/
def ofWeek? (year : Int) (week weekday : Nat) : Option Date :=
  if 1 ≤ week ∧ week ≤ weeksInYear year ∧ 1 ≤ weekday ∧ weekday ≤ 7 then
    let fourth := (firstWeekday year + 3) % 7
    let ordinal : Int := Int.ofNat (7 * week + weekday) - Int.ofNat fourth - 4
    if ordinal < 1 then ofOrdinal? (year - 1) (ordinal + daysInYear (year - 1)).toNat
    else if ordinal.toNat > daysInYear year then
      ofOrdinal? (year + 1) (ordinal.toNat - daysInYear year)
    else ofOrdinal? year ordinal.toNat
  else none

/-- The text of a day: year with at least four digits, month and day. -/
def text (d : Date) : String :=
  (if d.year < 0 then "-" else "") ++ paddedNumber 4 d.year.natAbs ++ "-" ++
    paddedNumber 2 d.month ++ "-" ++ paddedNumber 2 d.day

end Date

namespace Time

/-- The time with the given parts, if there is one. -/
def ofParts? (hour minute second nanosecond : Nat) : Option Time :=
  if h : hour < 24 ∧ minute < 60 ∧ second < 60 ∧ nanosecond < nanosecondsPerSecond then
    some ⟨hour, minute, second, nanosecond, h⟩
  else none

/-- Digits without the zeros at their end, but at least one. -/
def stripTrailingZeros (ds : List Char) : List Char :=
  match ds.reverse.dropWhile (· == '0') with
  | [] => ['0']
  | kept => kept.reverse

/-- The text of a time: the hour as it is, minutes and seconds with two digits, and at least
    one fraction digit. -/
def text (t : Time) : String :=
  toString t.hour ++ ":" ++ paddedNumber 2 t.minute ++ ":" ++ paddedNumber 2 t.second ++ "." ++
    String.ofList (stripTrailingZeros (paddedNumber 9 t.nanosecond).toList)

end Time

/-- The text of a day and a time. -/
def Timestamp.text (t : Timestamp) : String := t.date.text ++ " " ++ t.time.text

end EntitySql
