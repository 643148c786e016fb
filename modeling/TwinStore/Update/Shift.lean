import TwinStore.Update.DateUnit

/-!
# Moving points of time

A number of units is added to a point of time.  Months and years must be whole and keep the day of
the month as far as the month has it; the other units may be fractions, are carried into larger
units from sixty seconds, sixty minutes and twenty-four hours on, and move the point by a duration
that is rounded to the microsecond.

Main definitions:

- `Shift`: whole years and months, and the other units as quantities.
- `Shift.ofUnits`: the shift of a number of units.
- `Shift.apply`: the point of time after a shift.
-/

namespace TwinStore

open Number Calendar

-- Powers are those of the integers and natural numbers, whatever algebra is in scope.
attribute [local instance (1100)] instPowNat

/-- Why a point of time cannot be moved: the sum has no meaning, or the computation fails. -/
inductive ShiftFailure where
  | impossible
  | fault (f : Fault)

/-- An amount of a unit that may be a fraction. -/
inductive Quantity where
  | whole (n : Int)
  | fraction (x : Float)

namespace Quantity

/-- No amount. -/
def zero : Quantity := .whole 0

/-- An amount as a double; `none` beyond the range of doubles. -/
def toFloat? : Quantity → Option Float
  | whole n => Binary64.ofInt? n
  | fraction x => some x

/-- Whether the amount exceeds a limit on either side. -/
def exceeds (limit : Nat) : Quantity → Bool
  | whole n => n.natAbs > limit
  | fraction x => x.abs > Float.ofNat limit

/-- The quotient and the remainder of a positive double, the quotient rounded down. -/
def divideFloat (x : Float) (size : Nat) : Float × Float :=
  match Binary64.scaled? x with
  | none => (Binary64.nan, Binary64.nan)
  | some s =>
    let (n, d) := s.toRatio
    let rest := Binary64.ofRatio false (n.natAbs % (size * d)) d
    let quotient := (x - rest) / Float.ofNat size
    match Binary64.scaled? quotient with
    | none => (quotient, rest)
    | some q =>
      let down := Binary64.ofSignedRatio q.floor 1
      (if quotient - down > 0.5 then down + 1.0 else down, rest)

/-- Adds an amount that was carried over. -/
def plus : Quantity → Quantity → Option Quantity
  | whole m, whole n => some (whole (m + n))
  | a, b => do
    let x ← a.toFloat?
    let y ← b.toFloat?
    some (fraction (x + y))

/-- Splits an amount above a limit into what is carried into the next unit, of the given size, and
the rest; both keep the sign. -/
def carry (size : Nat) (q : Quantity) : Quantity × Quantity :=
  if q.exceeds (size - 1) then
    match q with
    | whole n => (whole (Int.tdiv n size), whole (Int.tmod n size))
    | fraction x =>
      let sign : Float := if Binary64.isNegative x then -1.0 else 1.0
      let (quotient, rest) := divideFloat (x * sign) size
      (fraction (quotient * sign), fraction (rest * sign))
  else (zero, q)

end Quantity

/-- What is added to a point of time. -/
structure Shift where
  years : Int := 0
  months : Int := 0
  days : Quantity := .zero
  hours : Quantity := .zero
  minutes : Quantity := .zero
  seconds : Quantity := .zero

namespace Shift

/-! ## Numbers of units -/

/-- The greatest power of ten that a whole number of months or years may have. -/
def wholeLimit : Nat := 400

/-- A number that must be whole. -/
def wholeNumber : Value → Except ShiftFailure Int
  | .bool b => .ok (if b then 1 else 0)
  | .int n => .ok n
  | .float x =>
    match Binary64.scaled? x with
    | some s => if s.isIntegral then .ok s.truncate else .error .impossible
    | none => if x.isNaN then .error .impossible else .error (.fault .outOfRange)
  | .decimal d =>
    match d with
    | .finite _ coefficient exponent =>
      if coefficient ≠ 0 ∧ exponent > wholeLimit then .error (.fault .outOfRange)
      else (d.toInt? wholeLimit).elim (.error .impossible) .ok
    | .infinity _ => .error (.fault .outOfRange)
    | .nan _ _ _ => .error .impossible
  | _ => .error .impossible

/-- The greatest number of digits of a quotient of decimal numbers. -/
def quotientDigits : Nat := 28

/-- How far below a quotient of too many digits an amount is rounded up to it, for the units that
are carried: their limits have two digits more than a quotient may have. -/
def roundingMargin : Nat := 50

/-- A decimal amount never gives a sum; before that, an amount of hours, minutes or seconds is
carried, which fails for values without an order and for quotients of too many digits. -/
def decimalFailure (carried : Option Nat) (d : Decimal) : ShiftFailure :=
  match carried with
  | none => if d.isSignaling then .fault .signaling else .impossible
  | some size =>
    match d with
    | .finite _ coefficient exponent =>
      let limit := Decimal.finite false (size * 10 ^ quotientDigits - roundingMargin) 0
      if (Decimal.finite false coefficient exponent).compare? limit == some .lt then .impossible
      else .fault .signaling
    | _ => .fault .signaling

/-- A number that may be a fraction; `carried` is the size of the next unit for the units that are
carried. -/
def quantity (carried : Option Nat) : Value → Except ShiftFailure Quantity
  | .bool b => .ok (.whole (if b then 1 else 0))
  | .int n => .ok (.whole n)
  | .float x => .ok (.fraction x)
  | .decimal d => .error (decimalFailure carried d)
  | _ => .error .impossible

/-- A sum of quantities, or its failure. -/
def sum (a b : Quantity) : Except ShiftFailure Quantity :=
  match a.plus b with
  | some q => .ok q
  | none => .error (.fault .outOfRange)

/-- Seconds, minutes and hours carried into larger units. -/
def carried (s : Shift) : Except ShiftFailure Shift := do
  let (more, seconds) := s.seconds.carry 60
  let (more, minutes) := (← sum s.minutes more).carry 60
  let (more, hours) := (← sum s.hours more).carry 24
  return { s with days := ← sum s.days more, hours, minutes, seconds }

/-- The shift of a number of units. -/
def ofUnits (unit : DateUnit) (number : Value) : Except ShiftFailure Shift := do
  match unit with
  | .year => return { years := ← wholeNumber number }
  | .month =>
    let n ← wholeNumber number
    return { years := Int.tdiv n 12, months := Int.tmod n 12 }
  | .week =>
    let days ← match ← quantity none number with
      | .whole n => pure (Quantity.whole (n * 7))
      | .fraction x => pure (.fraction (x * 7.0))
    return { days }
  | .day => return { days := ← quantity none number }
  | .hour => ({ hours := ← quantity (some 24) number } : Shift).carried
  | .minute => ({ minutes := ← quantity (some 60) number } : Shift).carried
  | .second => ({ seconds := ← quantity (some 60) number } : Shift).carried

/-! ## Durations -/

/-- Whole microseconds, and the fractions that the parts of a duration leave over. -/
structure Sum where
  micros : Int := 0
  leftover : Float := 0.0

/-- Adds an amount of a unit of so many microseconds. -/
def Sum.add (sum : Sum) (unit : Nat) : Quantity → Except ShiftFailure Sum
  | .whole n => .ok { sum with micros := sum.micros + n * unit }
  | .fraction x =>
    match Binary64.scaled? x with
    | none => if x.isNaN then .error .impossible else .error (.fault .outOfRange)
    | some s =>
      let micros := sum.micros + s.truncate * unit
      if s.isIntegral then .ok { sum with micros }
      else
        let product := Float.ofNat unit * Binary64.fractionalPart s
        match Binary64.scaled? product with
        | none => .error .impossible
        | some p =>
          .ok ⟨micros + p.truncate, sum.leftover + Binary64.fractionalPart p⟩

/-- The total of whole microseconds and rounded leftovers; a half goes to the even total. -/
def Sum.total (sum : Sum) : Int :=
  match Binary64.scaled? sum.leftover with
  | none => sum.micros
  | some s =>
    let nearest := s.roundAway
    let isHalf := (Binary64.ofSignedRatio nearest 1 - sum.leftover).abs == 0.5
    if isHalf then
      let odd := sum.micros % 2
      let shifted := (sum.leftover + Binary64.ofSignedRatio odd 1) * 0.5
      let doubled := (Binary64.scaled? shifted).elim 0 (·.roundAway)
      sum.micros + (2 * doubled - odd)
    else sum.micros + nearest

/-- The greatest number of days of a duration, either way. -/
def longestDays : Int := 999999999

/-- The part of a shift that is a duration, in microseconds. -/
def duration (s : Shift) : Except ShiftFailure Int := do
  let sum ← ({} : Sum).add 1000000 s.seconds
  let sum ← sum.add 60000000 s.minutes
  let sum ← sum.add 3600000000 s.hours
  let sum ← sum.add 86400000000 s.days
  let total := sum.total
  if (Int.fdiv total microsPerDay).natAbs > longestDays then throw (.fault .outOfRange)
  return total

/-! ## Points of time -/

/-- The date some years and months later, on the same day or on the last one of the month. -/
def moveDate (d : Date) (years months : Int) : Except ShiftFailure Date :=
  let month := d.month + months
  let year := d.year + years + (if month > 12 then 1 else if month < 1 then -1 else 0)
  let month := if month > 12 then month - 12 else if month < 1 then month + 12 else month
  if year < -(2 ^ (31 : Nat)) ∨ year ≥ 2 ^ (31 : Nat) then .error (.fault .outOfRange)
  else if year < 1 ∨ year > lastYear then .error .impossible
  else .ok ⟨year.toNat, month.toNat, min d.day (daysInMonth year.toNat month.toNat)⟩

/-- The point of time after a shift. -/
def apply (s : Shift) (t : DateTime) : Except ShiftFailure DateTime := do
  let date ← moveDate t.date s.years s.months
  let micros ← s.duration
  match ({ t with date } : DateTime).addMicros? micros with
  | some later => return later
  | none => throw (.fault .outOfRange)

end Shift

/-- The value some units after a value, which must be a point of time. -/
def addUnits (start : Value) (unit : DateUnit) (number : Value) : Except ShiftFailure Value := do
  let shift ← Shift.ofUnits unit number
  match start with
  | .instant t => return .instant (← shift.apply t)
  | _ => throw .impossible

end TwinStore
