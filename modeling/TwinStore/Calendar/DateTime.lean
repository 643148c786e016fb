import TwinStore.Calendar.Date

/-!
# Points of time

A date with a time of day, exact to the microsecond, and possibly an offset from universal time.
Without one the value is naive; naive values are read as universal time.

Main definitions:

- `DateTime`: the values.
- `DateTime.toMicros`, `DateTime.ofMicros?`: microseconds of the local clock since the first instant
  of the calendar.
- `DateTime.toUniversal?`: the same instant as a naive value.
- `DateTime.epochMicros`: microseconds since the beginning of 1970.
-/

namespace TwinStore.Calendar

/-- A date and a time of day, with an optional offset from universal time in microseconds. -/
structure DateTime where
  date : Date
  hour : Nat
  minute : Nat
  second : Nat
  micro : Nat
  offset : Option Int
deriving DecidableEq, Repr

/-- Microseconds in a second. -/
def microsPerSecond : Int := 1000000

/-- Microseconds in a day. -/
def microsPerDay : Int := 86400 * microsPerSecond

/-- Days from the first day of the calendar to the beginning of 1970. -/
def epochDays : Int := 719162

/-- Microseconds from the first instant of the calendar to the beginning of 1970. -/
def epochOrigin : Int := epochDays * microsPerDay

namespace DateTime

/-- Midnight at the beginning of a day. -/
def ofDate (d : Date) : DateTime := ⟨d, 0, 0, 0, 0, none⟩

/-- Whether date and time of day are in range. -/
def isValid (t : DateTime) : Bool :=
  t.date.isValid && t.hour ≤ 23 && t.minute ≤ 59 && t.second ≤ 59 && t.micro ≤ 999999

/-- A value from its parts, if they are in range. -/
def ofParts? (year month day hour minute second micro : Int) (offset : Option Int) :
    Option DateTime :=
  if hour < 0 ∨ hour > 23 ∨ minute < 0 ∨ minute > 59 ∨ second < 0 ∨ second > 59
      ∨ micro < 0 ∨ micro > 999999 then none
  else (Date.ofParts? year month day).map fun d =>
    ⟨d, hour.toNat, minute.toNat, second.toNat, micro.toNat, offset⟩

/-- Seconds since midnight. -/
def secondOfDay (t : DateTime) : Nat := (t.hour * 60 + t.minute) * 60 + t.second

/-- Microseconds on the local clock since the first instant of the calendar. -/
def toMicros (t : DateTime) : Int :=
  ((t.date.toOrdinal : Int) - 1) * microsPerDay + t.secondOfDay * microsPerSecond + t.micro

/-- The value at a count of microseconds; `none` outside the calendar. -/
def ofMicros? (n : Int) (offset : Option Int) : Option DateTime :=
  (Date.ofOrdinal? (Int.fdiv n microsPerDay + 1)).map fun d =>
    let rest := (Int.fmod n microsPerDay).toNat
    let seconds := rest / 1000000
    ⟨d, seconds / 3600, seconds / 60 % 60, seconds % 60, rest % 1000000, offset⟩

/-- Microseconds of universal time since the first instant of the calendar; a naive value is
universal time already. -/
def universalMicros (t : DateTime) : Int := t.toMicros - t.offset.getD 0

/-- The same instant as a naive value of universal time; `none` if it leaves the calendar. -/
def toUniversal? (t : DateTime) : Option DateTime :=
  match t.offset with
  | none => some t
  | some _ => ofMicros? t.universalMicros none

/-- Microseconds since the beginning of 1970. -/
def epochMicros (t : DateTime) : Int := t.universalMicros - epochOrigin

/-- The value a duration of microseconds later; `none` outside the calendar. -/
def addMicros? (t : DateTime) (duration : Int) : Option DateTime :=
  ofMicros? (t.toMicros + duration) t.offset

/-- The clock time `hh:mm:ss`. -/
def clockText (t : DateTime) : String :=
  Number.padded 2 t.hour ++ ":" ++ Number.padded 2 t.minute ++ ":" ++ Number.padded 2 t.second

/-- A point and six digits. -/
def microText (micro : Nat) : String := "." ++ Number.padded 6 micro

/-- An offset as sign, hours and minutes, with seconds and microseconds if it has any. -/
def offsetText (offset : Int) : String :=
  let n := offset.natAbs
  let seconds := n / 1000000
  (if offset < 0 then "-" else "+") ++ Number.padded 2 (seconds / 3600) ++ ":" ++
    Number.padded 2 (seconds / 60 % 60) ++
    (if seconds % 60 = 0 ∧ n % 1000000 = 0 then ""
     else ":" ++ Number.padded 2 (seconds % 60) ++
      (if n % 1000000 = 0 then "" else microText (n % 1000000)))

/-- Date and clock time with a separator, microseconds only if there are any, then the offset. -/
def textWith (separator : String) (t : DateTime) : String :=
  t.date.text ++ separator ++ t.clockText ++
    (if t.micro = 0 then "" else microText t.micro) ++
    (match t.offset with | some o => offsetText o | none => "")

/-- The value as `YYYY-MM-DDThh:mm:ss[.ffffff][+hh:mm]`. -/
def text (t : DateTime) : String := t.textWith "T"

/-- Order of two values that are both naive or both have an offset; `none` otherwise. -/
def compare? (a b : DateTime) : Option Ordering :=
  if a.offset.isSome = b.offset.isSome then some (compare a.universalMicros b.universalMicros)
  else none

end DateTime

end TwinStore.Calendar
