import TwinStore.Number.Rounding

/-!
# Calendar dates

Dates of the proleptic Gregorian calendar in the years 1 to 9999, and their count of days.

Main definitions:

- `Date`, `Date.isValid`: year, month and day, and when they name a day.
- `Date.toOrdinal`, `Date.ofOrdinal?`: the number of a day, the first of January of year 1 being 1.
- `Date.ofWeek?`, `Date.ofDayOfYear?`: dates given by week and weekday, or by day of the year.
-/

namespace TwinStore.Calendar

/-- A year, a month and a day of the month. -/
structure Date where
  year : Nat
  month : Nat
  day : Nat
deriving DecidableEq, Repr

/-- Whether a year has a leap day. -/
def isLeapYear (year : Nat) : Bool := year % 4 == 0 && (year % 100 != 0 || year % 400 == 0)

/-- The number of days of a month. -/
def daysInMonth (year month : Nat) : Nat :=
  if month = 2 then (if isLeapYear year then 29 else 28)
  else if month = 4 ∨ month = 6 ∨ month = 9 ∨ month = 11 then 30
  else 31

/-- The number of days of a year. -/
def daysInYear (year : Nat) : Nat := if isLeapYear year then 366 else 365

/-- The number of days before the first day of a year. -/
def daysBeforeYear (year : Nat) : Nat :=
  let y := year - 1
  y * 365 + y / 4 - y / 100 + y / 400

/-- The number of days of a year before the first day of a month. -/
def daysBeforeMonth (year : Nat) : Nat → Nat
  | 0 => 0
  | 1 => 0
  | month + 1 => daysBeforeMonth year month + daysInMonth year month

/-- The last year of the calendar. -/
def lastYear : Nat := 9999

/-- The number of the last day of the calendar. -/
def lastOrdinal : Nat := daysBeforeYear (lastYear + 1)

namespace Date

/-- Whether the three numbers name a day of the calendar. -/
def isValid (d : Date) : Bool :=
  1 ≤ d.year && d.year ≤ lastYear && 1 ≤ d.month && d.month ≤ 12 &&
    1 ≤ d.day && d.day ≤ daysInMonth d.year d.month

/-- The date of three numbers that name a day. -/
def ofParts? (year month day : Int) : Option Date :=
  if year < 1 ∨ month < 1 ∨ day < 1 then none
  else
    let d : Date := ⟨year.toNat, month.toNat, day.toNat⟩
    if d.isValid then some d else none

/-- The number of a day; the first of January of year 1 is day 1. -/
def toOrdinal (d : Date) : Nat := daysBeforeYear d.year + daysBeforeMonth d.year d.month + d.day

/-- The month and day of the `n`-th day of a year, counting from zero, sought from a given month
on. -/
def monthDay (year : Nat) : Nat → Nat → Nat → Nat × Nat
  | 0, month, n => (month, n + 1)
  | fuel + 1, month, n =>
    let length := daysInMonth year month
    if n < length then (month, n + 1) else monthDay year fuel (month + 1) (n - length)

/-- The day with a number; `none` outside the calendar. -/
def ofOrdinal? (ordinal : Int) : Option Date :=
  if ordinal < 1 ∨ ordinal > lastOrdinal then none
  else
    let n := (ordinal - 1).toNat
    let guess := n / 366 + 1
    let year := (((List.range 30).map (guess + ·)).find? fun y => n < daysBeforeYear (y + 1)).getD 1
    let (month, day) := monthDay year 11 1 (n - daysBeforeYear year)
    some ⟨year, month, day⟩

/-- The day of the week, Monday being 0. -/
def weekday (d : Date) : Nat := (d.toOrdinal + 6) % 7

/-- The number of days from another day to this one. -/
def daysSince (d origin : Date) : Int := (d.toOrdinal : Int) - origin.toOrdinal

/-- The Monday of the first week of a year: the week that holds the fourth of January. -/
def firstMonday (year : Nat) : Int :=
  let fourth : Date := ⟨year, 1, 4⟩
  (fourth.toOrdinal : Int) - fourth.weekday

/-- The day of a week and weekday of a year, weeks from 1 to 53 and weekdays from 1 to 7. -/
def ofWeek? (year week weekday : Int) : Option Date :=
  if year < 1 ∨ year > lastYear ∨ week < 1 ∨ week > 53 ∨ weekday < 1 ∨ weekday > 7 then none
  else ofOrdinal? (firstMonday year.toNat + (week - 1) * 7 + (weekday - 1))

/-- Whether a year has a fifty-third week. -/
def hasLongWeekYear (year : Nat) : Bool :=
  let first := (⟨year, 1, 1⟩ : Date).weekday
  first == 3 || (first == 2 && isLeapYear year)

/-- The day with a number within a year, from 1 to 365 or 366. -/
def ofDayOfYear? (year day : Int) : Option Date :=
  if year < 1 ∨ year > lastYear ∨ day < 1 ∨ day > daysInYear year.toNat then none
  else ofOrdinal? (daysBeforeYear year.toNat + day)

/-- The date as `YYYY-MM-DD`. -/
def text (d : Date) : String :=
  Number.padded 4 d.year ++ "-" ++ Number.padded 2 d.month ++ "-" ++ Number.padded 2 d.day

end Date

/-- Order of dates, by year, month and day. -/
def compareDate (a b : Date) : Ordering := compare a.toOrdinal b.toOrdinal

end TwinStore.Calendar
