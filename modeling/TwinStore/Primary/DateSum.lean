import TwinStore.Primary.Moment
import TwinStore.Update.DateUnit

/-!
# Sums of dates in the database

The database adds a number of units to a point of time.  Months and years move the month and the
year, and a day that the month lacks runs over into the next one; all else counts in milliseconds.

Main definitions:

- `amount?`: the number of units that a cell stands for.
- `moved`: a point of time moved by a number of units.
- `sumCell`: the sum of a date and a number of units, as a cell.
-/

namespace TwinStore.Primary

open Number

/-! ## Amounts -/

/-- The number of seconds by which the fraction of a unit counts. -/
def unitSeconds : DateUnit → Nat
  | .second => 1
  | .minute => 60
  | .hour => 3600
  | .day => 86400
  | .week => 604800
  | .month => 2592000
  | .year => 31536000

/-- The number from which on, either way, the database knows no answer. -/
def unitLimit : DateUnit → Float
  | .second => 4.6427e14
  | .minute => 7.7379e12
  | .hour => 1.2897e11
  | .day | .week => 5373485.0
  | .month => 176546.0
  | .year => 14713.0

/-- The number of a cell that is one. -/
def doubleOf? : Cell → Option Float
  | .int n => some (Binary64.ofSignedRatio n 1)
  | .real x => some x
  | _ => none

/-- Whether a text begins like a number of units. -/
def beginsAmount (cs : List Char) : Bool :=
  match cs.head? with
  | some c => c = '+' || c = '-' || c.isDigit
  | none => false

/-- The number with which a text begins, up to a blank; nothing else may follow. -/
def amountOfText? (s : String) : Option Float :=
  let cs := s.toList
  let word := cs.takeWhile (!isNumberBlank ·)
  if beginsAmount word && (cs.drop word.length).all isNumberBlank then
    (numberOfText? (String.ofList word)).bind doubleOf?
  else none

/-- The longest beginning of a text that is a number, as that number; zero without one. -/
def leadingNumber (s : String) : Float :=
  let cs := s.toList
  let starts := (List.range (cs.length + 1)).reverse.map fun n => String.ofList (cs.take n)
  ((starts.findSome? numberOfText?).bind doubleOf?).getD 0.0

/-- Seven times the number that a cell stands for. -/
def sevenfold : Cell → Cell
  | .int n => if fitsWord (7 * n) then .int (7 * n) else .real (Binary64.ofSignedRatio n 1 * 7.0)
  | .real x => .real (x * 7.0)
  | .text s => .real (leadingNumber s * 7.0)
  | cell => cell

/-- The text of a cell in front of the name of a unit. -/
def amountText? : Cell → Option String
  | .int n => some (integerText n)
  | .real x => some (realText x)
  | .text s => some s
  | _ => none

/-- The number of units that a cell stands for; weeks are counted in days. -/
def amount? (unit : DateUnit) (cell : Cell) : Option Float := do
  let x ← amountOfText? (← amountText? (if unit = .week then sevenfold cell else cell))
  if x.abs < unitLimit unit then some x else none

/-! ## Sums -/

/-- Milliseconds of a fraction of units, a half away from zero. -/
def fractionMillis (x : Float) (seconds : Nat) : Int :=
  let half : Float := if x < 0.0 then -0.5 else 0.5
  ((Binary64.scaled? (x * 1000.0 * Float.ofNat seconds + half)).map (·.truncate)).getD 0

/-- The whole part of a number, and the rest. -/
def splitWhole (x : Float) : Int × Float :=
  match Binary64.scaled? x with
  | some s => (s.truncate, x - Binary64.ofSignedRatio s.truncate 1)
  | none => (0, 0.0)

/-- The same day and time some months later. -/
def Moment.addMonths (m : Moment) (months : Int) : Moment :=
  let total := 12 * m.year + m.month - 1 + months
  { m with year := Int.fdiv total 12, month := Int.fmod total 12 + 1 }

/-- A point of time moved by a number of units, in milliseconds. -/
def moved (unit : DateUnit) (x : Float) (m : Moment) : Option Millis := do
  let (start, rest, seconds) ← match unit with
    | .month =>
      let (whole, rest) := splitWhole x
      pure (m.addMonths whole, rest, unitSeconds .month)
    | .year =>
      let (whole, rest) := splitWhole x
      pure (m.addMonths (12 * whole), rest, unitSeconds .year)
    | .week => pure (m, x, unitSeconds .day)
    | unit => pure (m, x, unitSeconds unit)
  return (← start.toMillis?) + fractionMillis rest seconds

/-- The sum of a date and a number of units; null if a part is missing or has no meaning. -/
def sumCell (unit : DateUnit) (asDate : Bool) (date number : Cell) : Cell :=
  let result := do
    let m ← Moment.ofCell? date
    let x ← amount? unit number
    Moment.ofMillis? (← moved unit x m)
  match result with
  | some m => .text (m.text asDate)
  | none => .null

end TwinStore.Primary
