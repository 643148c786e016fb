import TwinStore.Calendar.IsoReader
import TwinStore.Fault
import TwinStore.Model.Attribute

/-!
# Coercion of operands

A filter operand or an update value may be written in several ways; before it is used it takes the
form of the attribute it stands for.

Main definitions:

- `coerce`: a value in the form of an attribute type.
- `epochMicros`: a temporal value as microseconds since 1970, the form in which records compare.
- `comparable`: a value in the form in which records compare.
-/

namespace TwinStore

open Number Calendar

-- Powers are those of the integers and natural numbers, whatever algebra is in scope.
attribute [local instance (1100)] instPowNat

/-! ## Points of time from numbers -/

/-- The microsecond of a second from the fraction behind its point: the rounded product, with a
carry into the seconds if it leaves the range. -/
def splitSeconds (seconds : Float) (s : Binary64.Scaled) : Outcome (Int × Int) :=
  let product := Binary64.fractionalPart s * 1000000.0
  match Binary64.scaled? product with
  | none => .error (.badValue "")
  | some p =>
    let micros := p.roundEven
    let whole := (Binary64.scaled? seconds).elim 0 (·.truncate)
    .ok <|
      if micros ≥ 1000000 then (whole + 1, micros - 1000000)
      else if micros < 0 then (whole - 1, micros + 1000000)
      else (whole, micros)

/-- The greatest count of seconds, either way, whose year fits the calendar service. -/
def reachableSeconds : Int := 67768036191676799

/-- The least count of seconds whose year fits the calendar service. -/
def leastReachableSeconds : Int := -67768040609740800

/-- The point of time some seconds after the beginning of 1970, in universal time. -/
def instantOfSeconds (seconds : Float) : Outcome DateTime :=
  match Binary64.scaled? seconds with
  | none => if seconds.isNaN then .error (.badValue "") else .error .outOfRange
  | some s => do
    let (whole, micros) ← splitSeconds seconds s
    if whole < -(2 ^ (63 : Nat)) ∨ whole ≥ 2 ^ (63 : Nat) then .error .outOfRange
    else if whole < leastReachableSeconds ∨ whole > reachableSeconds then .error .unreachableTime
    else
      match DateTime.ofMicros? (epochOrigin + whole * microsPerSecond + micros) none with
      | some t => .ok t
      | none => .error (.badValue "")

/-- An integral number of milliseconds in seconds, rounded once. -/
def secondsOfMillis (n : Int) : Outcome Float :=
  let x := Binary64.ofSignedRatio n 1000
  if (Binary64.scaled? x).isSome then .ok x else .error .outOfRange

/-! ## Points of time -/

/-- A point of time in universal time, without an offset. -/
def universal (t : DateTime) : Outcome DateTime :=
  match t.toUniversal? with
  | some u => .ok u
  | none => .error .outOfRange

/-- The point of time that a text names. -/
def instantOfText (s : String) : Outcome DateTime :=
  match IsoReader.parse? s with
  | some t => .ok t
  | none => Outcome.filterError (.invalidDate s)

/-- A value as a naive point of universal time: numbers are milliseconds since 1970, texts are read,
dates are midnight.  Values of other kinds stay as they are. -/
def coerceInstant : Value → Outcome Value
  | .int n => do return .instant (← instantOfSeconds (← secondsOfMillis n))
  | .float x => do return .instant (← instantOfSeconds (x / 1000.0))
  | .text s => do return .instant (← universal (← instantOfText s))
  | .instant t => do return .instant (← universal t)
  | .date d => .ok (.instant (DateTime.ofDate d))
  | v => .ok v

/-- A value as a date: the date of the point of time that it is. -/
def coerceDate (v : Value) : Outcome Value :=
  match v with
  | .int _ | .float _ | .text _ | .instant _ => do
    match ← coerceInstant v with
    | .instant t => return .date t.date
    | other => return other
  | v => .ok v

/-- A value as an identifier. -/
def coerceUuid : Value → Outcome Value
  | .text s =>
    match Uuid.parse? s with
    | some u => .ok (.uuid u)
    | none => Outcome.filterError (.invalidUuid s)
  | v => .ok v

/-- A value as a decimal number; a float goes through its shortest text, so that it keeps the digits
it is written with. -/
def coerceDecimal (v : Value) : Outcome Value :=
  let read (s : String) : Outcome Value :=
    match Decimal.parse? s with
    | some d => .ok (.decimal d)
    | none => Outcome.filterError (.invalidDecimal v)
  match v with
  | .int n => .ok (.decimal (.ofInt n))
  | .float x => read (Binary64.text x)
  | .text s => read s
  | v => .ok v

/-- A value in the form of an attribute type. -/
def coerce (type : Option AttributeType) (v : Value) : Outcome Value :=
  match type with
  | some .datetime => coerceInstant v
  | some .date => coerceDate v
  | some .decimal => coerceDecimal v
  | some .uuid => coerceUuid v
  | _ => .ok v

/-! ## The form in which records compare -/

/-- A temporal value as microseconds since 1970; numbers are milliseconds. -/
def epochMicros : Value → Outcome Value
  | .null => .ok .null
  | .bool b => Outcome.filterError (.booleanAsDate b)
  | .int n => .ok (.int (n * 1000))
  | .float x =>
    let product := x * 1000.0
    match Binary64.scaled? product with
    | some s => .ok (.int s.roundEven)
    | none => if product.isNaN then .error (.badValue "") else .error .outOfRange
  | .text s => do return .int (← universal (← instantOfText s)).epochMicros
  | .instant t => do return .int (← universal t).epochMicros
  | .date d => .ok (.int (DateTime.ofDate d).epochMicros)
  | v => Outcome.filterError (.notADate v.kindName)

/-- A value in the form in which records compare: temporal values count microseconds. -/
def comparable (type : Option AttributeType) (v : Value) : Outcome Value := do
  let coerced ← coerce type v
  if type.any AttributeType.isTemporal then epochMicros coerced else return coerced

end TwinStore
