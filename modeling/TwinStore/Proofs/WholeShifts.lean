import TwinStore.Proofs.Moments
import TwinStore.Proofs.SameUpdates

/-!
# Whole numbers of units later

Years and months move the months of a point of time, and the other units move its count of
microseconds.  A whole number of units is added to a point of time as this says, unless the month that
it leads to lacks the day.

Main definitions:

- `IsLater`: the point of time a whole number of units after another one.

Main results:

- Theorem `addUnits_whole`: adding a whole number of units.
-/

namespace TwinStore

open Calendar Number

/-! ## Units -/

/-- The seconds of a unit that has always as many. -/
def DateUnit.seconds? : DateUnit → Option ℕ
  | second => some 1
  | minute => some 60
  | hour => some 3600
  | day => some 86400
  | week => some 604800
  | month | year => none

/-- The months of a unit that consists of months. -/
def DateUnit.months? : DateUnit → Option ℕ
  | month => some 1
  | year => some 12
  | _ => none

/-- Whether a point of time is a whole number of units after another one: by so many seconds, or on
the same day of the month and at the same time of day by so many months. -/
inductive IsLater (unit : DateUnit) (n : ℤ) (t u : DateTime) : Prop
  | time {seconds : ℕ} (counts : unit.seconds? = some seconds)
    (micros : u.toMicros = t.toMicros + n * seconds * 1000000) : IsLater unit n t u
  | months {months : ℕ} (counts : unit.months? = some months)
    (month : (12 * u.date.year + u.date.month : ℤ) = 12 * t.date.year + t.date.month + n * months)
    (rest : u = { t with date := ⟨u.date.year, u.date.month, t.date.day⟩ }) : IsLater unit n t u

/-- A point of time is found by its count of microseconds. -/
theorem Calendar.DateTime.ofMicros?_toMicros {t : DateTime} (ht : t.isValid = true) :
    ofMicros? t.toMicros t.offset = some t := by
  obtain ⟨hdate, hh, hm, hs, hn⟩ := isValid_iff.mp ht
  have hday : microsPerDay = 86400000000 := rfl
  have hdays : Int.fdiv t.toMicros microsPerDay + 1 = t.date.toOrdinal := by
    rw [hday, Int.fdiv_eq_ediv_of_nonneg _ (by decide)]
    simp only [toMicros, hday, microsPerSecond, secondOfDay]
    omega
  have hrest : (Int.fmod t.toMicros microsPerDay).toNat = t.secondOfDay * 1000000 + t.micro := by
    rw [hday, Int.fmod_eq_emod_of_nonneg _ (by decide)]
    simp only [toMicros, hday, microsPerSecond, secondOfDay]
    omega
  rw [ofMicros?, hdays, Date.ofOrdinal?_toOrdinal hdate, Option.map_some, hrest]
  obtain ⟨date, hour, minute, second, micro, offset⟩ := t
  simp only [secondOfDay, Option.some.injEq, DateTime.mk.injEq] at *
  refine ⟨trivial, ?_, ?_, ?_, ?_, trivial⟩ <;> omega

/-! ## Durations -/

namespace Shift

/-- The microseconds of whole amounts of days, hours, minutes and seconds. -/
def wholeMicros (days hours minutes seconds : ℤ) : ℤ :=
  seconds * 1000000 + minutes * 60000000 + hours * 3600000000 + days * 86400000000

/-- Whether a shift consists of whole amounts, which make up so many microseconds. -/
def IsWhole (s : Shift) (micros : ℤ) : Prop :=
  ∃ days hours minutes seconds, s.days = .whole days ∧ s.hours = .whole hours ∧
    s.minutes = .whole minutes ∧ s.seconds = .whole seconds ∧
    micros = wholeMicros days hours minutes seconds

/-- A sum without a leftover is its whole microseconds. -/
theorem Sum.total_of_whole (micros : ℤ) : (⟨micros, 0.0⟩ : Sum).total = micros := by
  have hscaled : Binary64.scaled? (0.0 : Float) = some ⟨0, -1074⟩ := by decide +kernel
  have hnearest : (⟨0, -1074⟩ : Binary64.Scaled).roundAway = 0 := by decide +kernel
  have hhalf : ((Binary64.ofSignedRatio 0 1 - 0.0).abs == 0.5) = false := by decide +kernel
  unfold total
  simp only [hscaled, hnearest, hhalf]
  simp

/-- The duration of whole amounts. -/
theorem IsWhole.duration_eq {s : Shift} {micros : ℤ} (h : s.IsWhole micros)
    (hmicros : (Int.fdiv micros microsPerDay).natAbs ≤ longestDays) : s.duration = .ok micros := by
  obtain ⟨days, hours, minutes, seconds, hdays, hhours, hminutes, hseconds, rfl⟩ := h
  have hsum : (⟨0 + seconds * 1000000 + minutes * 60000000 + hours * 3600000000 + days * 86400000000,
      0.0⟩ : Sum).total = wholeMicros days hours minutes seconds := by
    rw [Sum.total_of_whole, Int.zero_add, wholeMicros]
  have hadd (sum : Sum) (unit : ℕ) (n : ℤ) : sum.add unit (.whole n) =
      .ok { sum with micros := sum.micros + n * unit } := rfl
  have hbind {α β : Type} (a : α) (f : α → Except ShiftFailure β) : (Except.ok a >>= f) = f a := rfl
  rw [duration, hdays, hhours, hminutes, hseconds]
  simp only [hadd, hbind, Nat.cast_ofNat]
  rw [hsum, if_neg (not_lt.mpr hmicros)]
  rfl

/-- Whole amounts are carried into larger units. -/
theorem carry_whole (size : ℕ) (n : ℤ) : ∃ more rest, (Quantity.whole n).carry size =
    (.whole more, .whole rest) ∧ n = more * size + rest := by
  unfold Quantity.carry
  split_ifs
  · exact ⟨_, _, rfl, by rw [Int.mul_comm, Int.mul_tdiv_add_tmod]⟩
  · exact ⟨0, n, rfl, by rw [Int.zero_mul, Int.zero_add]⟩

/-- Carrying keeps the years, the months and the duration. -/
theorem IsWhole.carried {s : Shift} {micros : ℤ} (h : s.IsWhole micros) :
    ∃ s', s.carried = .ok s' ∧ s'.years = s.years ∧ s'.months = s.months ∧ s'.IsWhole micros := by
  obtain ⟨days, hours, minutes, seconds, hdays, hhours, hminutes, hseconds, rfl⟩ := h
  have hsum (m n : ℤ) : Shift.sum (.whole m) (.whole n) = .ok (.whole (m + n)) := rfl
  have hbind {α β : Type} (a : α) (f : α → Except ShiftFailure β) : (Except.ok a >>= f) = f a := rfl
  obtain ⟨more, rest, hseconds', _⟩ := carry_whole 60 seconds
  obtain ⟨more', rest', hminutes', _⟩ := carry_whole 60 (minutes + more)
  obtain ⟨more₂, rest₂, hhours', _⟩ := carry_whole 24 (hours + more')
  refine ⟨⟨s.years, s.months, .whole (days + more₂), .whole rest₂, .whole rest', .whole rest⟩, ?_,
    rfl, rfl, ⟨days + more₂, rest₂, rest', rest, rfl, rfl, rfl, rfl, ?_⟩⟩
  · rw [Shift.carried, hdays, hhours, hminutes, hseconds]
    simp only [hseconds', hsum, hbind, hminutes', hhours']
    rfl
  · simp only [wholeMicros]
    omega

/-- A number of units that count seconds is a shift by a duration. -/
theorem ofUnits_time {unit : DateUnit} {seconds : ℕ} (hunit : unit.seconds? = some seconds) (n : ℤ) :
    ∃ s, ofUnits unit (.int n) = .ok s ∧ s.years = 0 ∧ s.months = 0 ∧
      s.IsWhole (n * seconds * 1000000) := by
  cases unit with
  | week =>
    cases hunit
    exact ⟨_, rfl, rfl, rfl, _, _, _, _, rfl, rfl, rfl, rfl, by simp only [wholeMicros]; omega⟩
  | day =>
    cases hunit
    exact ⟨_, rfl, rfl, rfl, _, _, _, _, rfl, rfl, rfl, rfl, by simp only [wholeMicros]; omega⟩
  | hour =>
    cases hunit
    have hwhole : ({ hours := .whole n } : Shift).IsWhole (n * (3600 : ℕ) * 1000000) :=
      ⟨_, _, _, _, rfl, rfl, rfl, rfl, by simp only [wholeMicros]; omega⟩
    exact hwhole.carried
  | minute =>
    cases hunit
    have hwhole : ({ minutes := .whole n } : Shift).IsWhole (n * (60 : ℕ) * 1000000) :=
      ⟨_, _, _, _, rfl, rfl, rfl, rfl, by simp only [wholeMicros]; omega⟩
    exact hwhole.carried
  | second =>
    cases hunit
    have hwhole : ({ seconds := .whole n } : Shift).IsWhole (n * (1 : ℕ) * 1000000) :=
      ⟨_, _, _, _, rfl, rfl, rfl, rfl, by simp only [wholeMicros]; omega⟩
    exact hwhole.carried
  | month => cases hunit
  | year => cases hunit

/-- A number of units that consist of months is a shift of years and months. -/
theorem ofUnits_months {unit : DateUnit} {months : ℕ} (hunit : unit.months? = some months) (n : ℤ) :
    ∃ s, ofUnits unit (.int n) = .ok s ∧ 12 * s.years + s.months = n * months ∧
      s.months.natAbs < 12 ∧ s.IsWhole 0 := by
  cases unit with
  | month =>
    cases hunit
    refine ⟨_, rfl, ?_, ?_, ⟨0, 0, 0, 0, rfl, rfl, rfl, rfl, rfl⟩⟩
    · rw [Int.mul_tdiv_add_tmod, Nat.cast_one, Int.mul_one]
    · rw [Int.natAbs_tmod]
      exact Nat.mod_lt _ (by decide)
  | year =>
    cases hunit
    exact ⟨_, rfl, by simp only; omega, show (0 : ℤ).natAbs < 12 by decide,
      ⟨0, 0, 0, 0, rfl, rfl, rfl, rfl, rfl⟩⟩
  | _ => cases hunit

/-- A day is moved by months to the same day of another month that has it. -/
theorem moveDate_eq {d e : Date} (hd : d.isValid = true) (he : e.isValid = true) {years months : ℤ}
    (hmonths : months.natAbs < 12) (hday : e.day = d.day)
    (hmonth : (12 * e.year + e.month : ℤ) = 12 * d.year + d.month + (12 * years + months)) :
    moveDate d years months = .ok e := by
  obtain ⟨hyear, hlast, hm, hm', _, _⟩ := Date.isValid_iff.mp hd
  obtain ⟨hyear', hlast', hn, hn', _, hlength⟩ := Date.isValid_iff.mp he
  have hcalendar : lastYear = 9999 := rfl
  have hmoved : d.year + years + (if d.month + months > 12 then 1 else
        if d.month + months < 1 then -1 else 0) = (e.year : ℤ) ∧
      (if d.month + months > 12 then d.month + months - 12 else
        if d.month + months < 1 then d.month + months + 12 else d.month + months) = (e.month : ℤ) := by
    split_ifs <;> constructor <;> omega
  unfold moveDate
  simp only [hmoved.1, hmoved.2]
  rw [if_neg (by omega), if_neg (by omega)]
  simp only [Int.toNat_natCast]
  rw [← hday, Nat.min_eq_left hlength]

/-- A shift moves the date, and then the point of time by the duration. -/
theorem apply_eq {s : Shift} {t u : DateTime} {date : Date} {micros : ℤ}
    (hmoved : moveDate t.date s.years s.months = .ok date) (hduration : s.duration = .ok micros)
    (hlater : ({ t with date } : DateTime).addMicros? micros = some u) : s.apply t = .ok u := by
  have hbind {α β : Type} (a : α) (f : α → Except ShiftFailure β) : (Except.ok a >>= f) = f a := rfl
  rw [apply, hmoved]
  simp only [hbind, hduration, hlater]
  rfl

end Shift

/-- The microseconds of the calendar. -/
theorem Calendar.DateTime.toMicros_bounds {t : DateTime} (ht : t.isValid = true) :
    0 ≤ t.toMicros ∧ t.toMicros < 3652059 * 86400000000 := by
  obtain ⟨hdate, hh, hm, hs, hn⟩ := isValid_iff.mp ht
  obtain ⟨hfirst, hlast⟩ := Date.toOrdinal_bounds hdate
  have hday : microsPerDay = 86400000000 := rfl
  simp only [toMicros, hday, microsPerSecond, secondOfDay]
  omega

/-- A whole number of units is added as long as the sum is in the calendar and has the day. -/
theorem addUnits_whole {unit : DateUnit} {n : ℤ} {t u : DateTime} (ht : t.isValid = true)
    (hu : u.isValid = true) (hoffset : u.offset = t.offset) (h : IsLater unit n t u) :
    addUnits (.instant t) unit (.int n) = .ok (.instant u) := by
  obtain ⟨hdate, _⟩ := DateTime.isValid_iff.mp ht
  obtain ⟨hdate', _⟩ := DateTime.isValid_iff.mp hu
  rw [addUnits_eq_ok]
  cases h with
  | @time seconds counts micros =>
    obtain ⟨s, hs, hyears, hmonths, hwhole⟩ := Shift.ofUnits_time counts n
    refine ⟨s, u, hs, ?_, rfl⟩
    have hmoved : Shift.moveDate t.date s.years s.months = .ok t.date :=
      Shift.moveDate_eq hdate hdate (by rw [hmonths]; decide) rfl (by rw [hyears, hmonths]; omega)
    have hbounds := DateTime.toMicros_bounds ht
    have hbounds' := DateTime.toMicros_bounds hu
    have hduration := hwhole.duration_eq (by
      rw [show microsPerDay = 86400000000 from rfl, Int.fdiv_eq_ediv_of_nonneg _ (by decide),
        show Shift.longestDays = 999999999 from rfl]
      omega)
    refine Shift.apply_eq hmoved hduration ?_
    rw [DateTime.addMicros?, ← micros, ← hoffset, DateTime.ofMicros?_toMicros hu]
  | @months months counts month rest =>
    obtain ⟨s, hs, hmonths, hsmall, hwhole⟩ := Shift.ofUnits_months counts n
    refine ⟨s, u, hs, ?_, rfl⟩
    have hmoved : Shift.moveDate t.date s.years s.months = .ok u.date :=
      Shift.moveDate_eq hdate hdate' hsmall (by rw [rest]) (by rw [hmonths]; omega)
    have hsame : ({ t with date := u.date } : DateTime) = u := by
      rw [rest]
    refine Shift.apply_eq hmoved (hwhole.duration_eq (by decide)) ?_
    rw [hsame, DateTime.addMicros?, Int.add_zero, DateTime.ofMicros?_toMicros hu]

end TwinStore
