import TwinStore.Calendar.DateTime
import TwinStore.Primary.Cell

/-!
# Points of time in the database

The database has no type for dates.  It reads a point of time from a text, or from a number of days,
and counts it in milliseconds over a calendar that goes back beyond the year 1.

Main definitions:

- `Moment`: a point of time as it was written.
- `Moment.ofCell?`: the point of time that a cell stands for.
- `Moment.toMillis?`, `Moment.ofMillis?`: its count of milliseconds.
- `Moment.text`: the form in which the database writes it.
-/

namespace TwinStore.Primary

open Number Calendar

-- Powers are those of the integers and natural numbers, whatever algebra is in scope.
attribute [local instance (1100)] instPowNat

/-- A day of the calendar without a beginning, and the milliseconds since it began.  The day of the
month and the milliseconds may run over. -/
structure Moment where
  year : Int
  month : Int
  day : Int
  clock : Int
deriving DecidableEq, Repr

/-- A count of milliseconds from the beginning of the year 1. -/
abbrev Millis := Int

/-- Milliseconds in a day. -/
def millisPerDay : Int := 86400000

/-- The least count of milliseconds: noon of the first day of the day count of astronomers. -/
def leastMillis : Millis := -148731163200000

/-- The greatest count of milliseconds: the end of the year 9999. -/
def greatestMillis : Millis := 315537897599999

namespace Moment

/-! ## Counting -/

/-- The number of years after which the calendar repeats itself. -/
def cycleYears : Int := 400

/-- The number of days after which the calendar repeats itself. -/
def cycleDays : Int := 146097

/-- The number of days from the first day of the year 1 to a day. -/
def dayCount (year month day : Int) : Int :=
  let cycle := Int.fdiv (year - 1) cycleYears
  let y := (year - cycle * cycleYears).toNat
  cycle * cycleDays + daysBeforeYear y + daysBeforeMonth y month.toNat + day - 1

/-- The count of milliseconds, for the years that the database knows. -/
def toMillis? (m : Moment) : Option Millis :=
  if m.year < -4713 ∨ m.year > 9999 then none
  else some (dayCount m.year m.month m.day * millisPerDay + m.clock)

/-- The point of time of a count of milliseconds, within the limits of the database. -/
def ofMillis? (n : Millis) : Option Moment :=
  if n < leastMillis ∨ n > greatestMillis then none
  else
    let days := Int.fdiv n millisPerDay
    let cycle := Int.fdiv days cycleDays
    (Date.ofOrdinal? (Int.fmod days cycleDays + 1)).map fun d =>
      ⟨d.year + cycle * cycleYears, d.month, d.day, Int.fmod n millisPerDay⟩

/-! ## Writing -/

/-- A year with four digits, behind a sign if it is before the year 0. -/
def yearText (year : Int) : String := (if year < 0 then "-" else "") ++ padded 4 year.natAbs

/-- The day. -/
def dateText (m : Moment) : String :=
  yearText m.year ++ "-" ++ padded 2 m.month.toNat ++ "-" ++ padded 2 m.day.toNat

/-- The day and the time to the second, or the day alone. -/
def text (asDate : Bool) (m : Moment) : String :=
  if asDate then m.dateText
  else
    let seconds := (m.clock / 1000).toNat
    let parts := [seconds / 3600, seconds / 60 % 60, seconds % 60]
    m.dateText ++ " " ++ ":".intercalate (parts.map (padded 2))

/-! ## Reading -/

/-- A number of so many digits, up to a limit, and what follows it. -/
def field? (count limit : Nat) (cs : List Char) : Option (Nat × List Char) :=
  let ds := cs.take count
  let n := ds.foldl (fun n c => 10 * n + (c.toNat - 48)) 0
  if ds.length = count ∧ ds.all Char.isDigit ∧ n ≤ limit then some (n, cs.drop count) else none

/-- A mark, and what follows it. -/
def mark? (mark : Char) : List Char → Option (List Char)
  | c :: rest => if c = mark then some rest else none
  | [] => none

/-- A fraction of a second in milliseconds, a half rounded up, and what follows it. -/
def fraction (cs : List Char) : Int × List Char :=
  let ds := (cs.drop 1).takeWhile Char.isDigit
  match cs.head?, ds with
  | some '.', _ :: _ =>
    let n := ds.foldl (fun n c => 10 * n + (c.toNat - 48)) 0
    let unit := 10 ^ ds.length
    ((((2000 * n + unit) / (2 * unit) : Nat) : Int), cs.drop (ds.length + 1))
  | _, _ => (0, cs)

/-- An offset from universal time in minutes at the end of a text. -/
def zone? (cs : List Char) : Option Int :=
  let ends (n : Int) (rest : List Char) : Option Int :=
    if rest.all isNumberBlank then some n else none
  let offset (sign : Int) (rest : List Char) : Option Int := do
    let (hours, rest) ← field? 2 14 rest
    let (minutes, rest) ← field? 2 59 (← mark? ':' rest)
    ends (sign * (60 * hours + minutes)) rest
  match cs.dropWhile isNumberBlank with
  | [] => some 0
  | '+' :: rest => offset 1 rest
  | '-' :: rest => offset (-1) rest
  | 'Z' :: rest | 'z' :: rest => ends 0 rest
  | _ => none

/-- A time of day in milliseconds, and its offset in minutes. -/
def time? (cs : List Char) : Option (Int × Int) := do
  let (hours, rest) ← field? 2 24 cs
  let (minutes, rest) ← field? 2 59 (← mark? ':' rest)
  match rest with
  | ':' :: rest =>
    let (seconds, rest) ← field? 2 59 rest
    let (millis, rest) := fraction rest
    return (((60 * hours + minutes) * 60 + seconds) * 1000 + millis, ← zone? rest)
  | rest => return ((60 * hours + minutes) * 60000, ← zone? rest)

/-- A point of time moved by an offset in minutes; without one it stays as it was written. -/
def atOffset? (m : Moment) (minutes : Int) : Option Moment :=
  if minutes = 0 then some m else m.toMillis?.bind fun n => ofMillis? (n - minutes * 60000)

/-- A day, and what follows it. -/
def day? (cs : List Char) : Option (Moment × List Char) := do
  let (sign, cs) := match cs with
    | '-' :: rest => ((-1 : Int), rest)
    | cs => (1, cs)
  let (year, rest) ← field? 4 9999 cs
  let (month, rest) ← field? 2 12 (← mark? '-' rest)
  let (day, rest) ← field? 2 31 (← mark? '-' rest)
  if month = 0 ∨ day = 0 then none
  else some (⟨sign * year, month, day, 0⟩, rest)

/-- The point of time that a number of days stands for. -/
def ofDays? (x : Float) : Option Moment :=
  if 0.0 ≤ x && x < 5373484.5 then
    (Binary64.scaled? (x * 86400000.0 + 0.5)).bind fun s => ofMillis? (leastMillis + s.truncate)
  else none

/-- The point of time that a text stands for: a day with or without a time, a time of the first day
of the year 2000, or a number of days. -/
def ofText? (s : String) : Option Moment :=
  let cs := s.toList
  match day? cs with
  | some (m, rest) =>
    match rest.dropWhile fun c => isNumberBlank c || c = 'T' with
    | [] => some m
    | rest => do
      let (clock, minutes) ← time? rest
      atOffset? { m with clock } minutes
  | none =>
    match time? cs with
    | some (clock, minutes) => atOffset? ⟨2000, 1, 1, clock⟩ minutes
    | none =>
      match numberOfText? s with
      | some (.int n) => ofDays? (Binary64.ofSignedRatio n 1)
      | some (.real x) => ofDays? x
      | _ => none

/-- The point of time that a cell stands for. -/
def ofCell? : Cell → Option Moment
  | .text s => ofText? s
  | .int n => ofDays? (Binary64.ofSignedRatio n 1)
  | .real x => ofDays? x
  | _ => none

end Moment

end TwinStore.Primary
