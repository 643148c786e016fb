import Mathlib.Data.List.Basic
import Mathlib.Tactic.IntervalCases
import TwinStore.Calendar.IsoReader

/-!
# The calendar counts its days

The number of a day grows with year, month and day, and every number within the calendar belongs to
exactly one day.

Main results:

- Theorem `Date.toOrdinal_lt`: the number of a day is ordered by year, month and day.
- Theorem `Date.ofOrdinal?_eq_some`: every number in range is found, and names a day.
- Theorem `DateTime.isValid_of_ofMicros?`, `IsoReader.isValid_of_parse?`: points of time that are
  computed or read are points of time of the calendar.
-/

namespace TwinStore.Calendar

/-! ## Years and months -/

/-- A quotient grows by one where the divisor divides the next number, and is kept elsewhere. -/
theorem succ_div_eq (y k : Nat) :
    (y + 1) / k = y / k + if (y + 1) % k = 0 then 1 else 0 := by
  simp only [Nat.succ_div, Nat.dvd_iff_mod_eq_zero]

/-- The next year begins when the days of this one are over. -/
theorem daysBeforeYear_succ {year : Nat} (hyear : 1 ≤ year) :
    daysBeforeYear (year + 1) = daysBeforeYear year + daysInYear year := by
  obtain ⟨y, rfl⟩ := Nat.exists_eq_add_of_le' hyear
  have h100 : (y + 1) % 100 = 0 → (y + 1) % 4 = 0 := by omega
  have h400 : (y + 1) % 400 = 0 → (y + 1) % 100 = 0 := by omega
  have hle : y / 100 ≤ y * 365 + y / 4 := by omega
  have hleap : isLeapYear (y + 1) = true ↔
      (y + 1) % 4 = 0 ∧ ((y + 1) % 100 ≠ 0 ∨ (y + 1) % 400 = 0) := by
    simp [isLeapYear]
  simp only [daysBeforeYear, daysInYear, Nat.add_sub_cancel, succ_div_eq, hleap]
  generalize y / 4 = a, y / 100 = b, y / 400 = c at *
  generalize (y + 1) % 4 = r, (y + 1) % 100 = s, (y + 1) % 400 = t at *
  split_ifs <;> omega

/-- Later years begin later. -/
theorem daysBeforeYear_le {a b : Nat} (hab : a ≤ b) : daysBeforeYear a ≤ daysBeforeYear b := by
  induction b with
  | zero =>
    rw [Nat.le_zero.mp hab]
  | succ b ih =>
    rcases Nat.le_succ_iff.mp hab with h | rfl
    · rcases Nat.eq_zero_or_pos b with rfl | hb
      · exact ih h
      · rw [daysBeforeYear_succ hb]
        exact Nat.le_add_right_of_le (ih h)
    · exact Nat.le_refl _

/-- A year in which a later year begins is over by then. -/
theorem daysBeforeYear_add_daysInYear_le {a b : Nat} (ha : 1 ≤ a) (hab : a < b) :
    daysBeforeYear a + daysInYear a ≤ daysBeforeYear b := by
  rw [← daysBeforeYear_succ ha]
  exact daysBeforeYear_le hab

/-- The next month begins when the days of this one are over. -/
theorem daysBeforeMonth_succ (year : Nat) {month : Nat} (hmonth : 1 ≤ month) :
    daysBeforeMonth year (month + 1) = daysBeforeMonth year month + daysInMonth year month := by
  obtain ⟨m, rfl⟩ := Nat.exists_eq_add_of_le' hmonth
  rfl

/-- Every month has at least 28 days and at most 31. -/
theorem daysInMonth_bounds (year month : Nat) :
    28 ≤ daysInMonth year month ∧ daysInMonth year month ≤ 31 := by
  unfold daysInMonth
  split_ifs <;> simp

/-- A month is over when a later one begins. -/
theorem daysBeforeMonth_add_daysInMonth_le (year : Nat) {a b : Nat} (ha : 1 ≤ a) (hab : a < b) :
    daysBeforeMonth year a + daysInMonth year a ≤ daysBeforeMonth year b := by
  induction b with
  | zero => omega
  | succ b ih =>
    rcases Nat.lt_succ_iff_lt_or_eq.mp hab with h | rfl
    · rw [daysBeforeMonth_succ year (by omega)]
      exact Nat.le_add_right_of_le (ih h)
    · rw [daysBeforeMonth_succ year ha]

/-- The twelve months make up the year. -/
theorem daysBeforeMonth_thirteen (year : Nat) : daysBeforeMonth year 13 = daysInYear year := by
  simp only [daysBeforeMonth, daysInMonth, daysInYear]
  cases isLeapYear year <;> simp

namespace Date

/-- The parts of a day of the calendar are in range. -/
theorem isValid_iff {d : Date} :
    d.isValid = true ↔ 1 ≤ d.year ∧ d.year ≤ 9999 ∧ 1 ≤ d.month ∧ d.month ≤ 12 ∧ 1 ≤ d.day ∧
      d.day ≤ daysInMonth d.year d.month := by
  simp only [isValid, Bool.and_eq_true, decide_eq_true_eq, and_assoc]
  exact Iff.rfl

/-- A day of a month has at most two digits. -/
theorem day_lt {d : Date} (hd : d.isValid = true) : d.day < 32 := by
  have hbounds := daysInMonth_bounds d.year d.month
  have hday := isValid_iff.mp hd
  omega

/-! ## The order of days -/

/-- Whether a day comes before another by year, month and day of the month. -/
def Before (d e : Date) : Prop :=
  d.year < e.year ∨
    (d.year = e.year ∧ (d.month < e.month ∨ (d.month = e.month ∧ d.day < e.day)))

/-- Of two days one comes before the other, or they are the same. -/
theorem before_or_eq_or_before (d e : Date) : d.Before e ∨ d = e ∨ e.Before d := by
  obtain ⟨y, m, n⟩ := d
  obtain ⟨y', m', n'⟩ := e
  simp only [Before, mk.injEq]
  omega

/-- The days of a year before a valid day, that day included, fit into the year. -/
theorem monthly_le_daysInYear {d : Date} (hd : d.isValid = true) :
    daysBeforeMonth d.year d.month + d.day ≤ daysInYear d.year := by
  obtain ⟨_, _, hm₁, hm₂, _, hday⟩ := isValid_iff.mp hd
  have h := daysBeforeMonth_add_daysInMonth_le d.year hm₁ (show d.month < 13 by omega)
  rw [daysBeforeMonth_thirteen] at h
  omega

/-- The number of a day grows with year, month and day. -/
theorem toOrdinal_lt {d e : Date} (hd : d.isValid = true) (he : e.isValid = true)
    (hde : d.Before e) : d.toOrdinal < e.toOrdinal := by
  obtain ⟨hy, _, hm, _, _, hday⟩ := isValid_iff.mp hd
  obtain ⟨_, _, _, _, hday', _⟩ := isValid_iff.mp he
  simp only [toOrdinal]
  rcases hde with hyear | ⟨hyear, hmonth | ⟨hmonth, hlt⟩⟩
  · have h₁ := monthly_le_daysInYear hd
    have h₂ := daysBeforeYear_add_daysInYear_le hy hyear
    omega
  · have h := daysBeforeMonth_add_daysInMonth_le d.year hm hmonth
    rw [hyear] at h hday ⊢
    omega
  · rw [hyear, hmonth]
    omega

/-- Different days have different numbers. -/
theorem toOrdinal_inj {d e : Date} (hd : d.isValid = true) (he : e.isValid = true) :
    d.toOrdinal = e.toOrdinal ↔ d = e := by
  constructor
  · intro heq
    rcases before_or_eq_or_before d e with h | h | h
    · exact absurd heq (toOrdinal_lt hd he h).ne
    · exact h
    · exact absurd heq (toOrdinal_lt he hd h).ne'
  · rintro rfl
    rfl

/-! ## Days from their numbers -/

/-- Seeking a day from a month on finds the month and the day in it. -/
theorem monthDay_spec (year : Nat) {fuel month n : Nat} (hmonth : 1 ≤ month)
    (hfuel : fuel + month = 12) (hn : daysBeforeMonth year month + n < daysInYear year) :
    1 ≤ (monthDay year fuel month n).1 ∧ (monthDay year fuel month n).1 ≤ 12 ∧
      1 ≤ (monthDay year fuel month n).2 ∧
      (monthDay year fuel month n).2 ≤ daysInMonth year (monthDay year fuel month n).1 ∧
      daysBeforeMonth year (monthDay year fuel month n).1 + (monthDay year fuel month n).2 =
        daysBeforeMonth year month + n + 1 := by
  induction fuel generalizing month n with
  | zero =>
    have h12 : month = 12 := by omega
    subst h12
    have hyear := daysBeforeMonth_thirteen year
    rw [daysBeforeMonth_succ year (by decide)] at hyear
    simp only [monthDay]
    omega
  | succ fuel ih =>
    rw [monthDay]
    by_cases hlt : n < daysInMonth year month
    · simp only [hlt, if_true]
      omega
    · simp only [hlt, if_false]
      have hnext := daysBeforeMonth_succ year hmonth
      have hstep := @ih (month + 1) (n - daysInMonth year month) (by omega) (by omega) (by omega)
      omega

/-- The first of thirty years, counted from a year that is not too late, that is not over on a day
is the year of that day. -/
theorem exists_year {n : Nat} (hn : n < lastOrdinal) :
    ∃ year, (((List.range 30).map (n / 366 + 1 + ·)).find? fun y => n < daysBeforeYear (y + 1)) =
        some year ∧ 1 ≤ year ∧ daysBeforeYear year ≤ n ∧ n < daysBeforeYear (year + 1) := by
  have hlast : n < 3652059 := by
    simpa [lastOrdinal, lastYear, daysBeforeYear] using hn
  have hexists : (((List.range 30).map (n / 366 + 1 + ·)).find?
      fun y => n < daysBeforeYear (y + 1)).isSome := by
    rw [List.find?_isSome]
    refine ⟨n / 366 + 1 + 29, by simp, ?_⟩
    rw [decide_eq_true_eq, daysBeforeYear]
    omega
  obtain ⟨year, hyear⟩ := Option.isSome_iff_exists.mp hexists
  have hover : n < daysBeforeYear (year + 1) := by
    simpa using List.find?_some hyear
  obtain ⟨i, hi, rfl⟩ : ∃ i < 30, n / 366 + 1 + i = year := by
    simpa using List.mem_of_find?_eq_some hyear
  refine ⟨_, hyear, by omega, ?_, hover⟩
  rcases Nat.eq_zero_or_pos i with rfl | hpos
  · simp only [daysBeforeYear]
    omega
  · -- the year before was tried first, so it was over
    rw [List.find?_map, Option.map_eq_some_iff] at hyear
    obtain ⟨j, hj, hji⟩ := hyear
    have hij : j = i := by omega
    subst hij
    have hbefore := (List.find?_range_eq_some.mp hj).2.2 (j - 1) (by omega)
    have hprev : n / 366 + 1 + (j - 1) + 1 = n / 366 + 1 + j := by omega
    simp only [Function.comp_apply, hprev, Bool.not_eq_true', decide_eq_false_iff_not,
      Nat.not_lt] at hbefore
    exact hbefore

/-- Every number within the calendar is the number of a day. -/
theorem ofOrdinal?_eq_some {ordinal : Int} (hfirst : 1 ≤ ordinal) (hlast : ordinal ≤ lastOrdinal) :
    ∃ d, ofOrdinal? ordinal = some d ∧ d.isValid = true ∧ (d.toOrdinal : Int) = ordinal := by
  have hrange : ¬ (ordinal < 1 ∨ ordinal > lastOrdinal) := by omega
  obtain ⟨year, hfind, hyear, hle, hlt⟩ := @exists_year (ordinal - 1).toNat (by omega)
  have hnine : year ≤ 9999 := by
    by_contra hgt
    have h := daysBeforeYear_le (show lastYear + 1 ≤ year by simp only [lastYear]; omega)
    simp only [lastOrdinal] at hlast
    omega
  rw [daysBeforeYear_succ hyear] at hlt
  have hspec := @monthDay_spec year 11 1 ((ordinal - 1).toNat - daysBeforeYear year) (by decide)
    (by decide) (by simp only [daysBeforeMonth]; omega)
  refine ⟨⟨year, (monthDay year 11 1 ((ordinal - 1).toNat - daysBeforeYear year)).1,
    (monthDay year 11 1 ((ordinal - 1).toNat - daysBeforeYear year)).2⟩, ?_, ?_, ?_⟩
  · simp only [ofOrdinal?, hrange, if_false, hfind, Option.getD_some]
  · rw [isValid_iff]
    exact ⟨hyear, hnine, hspec.1, hspec.2.1, hspec.2.2.1, hspec.2.2.2.1⟩
  · simp only [toOrdinal, daysBeforeMonth] at hspec ⊢
    omega

/-- What is found for a number is a day of the calendar with that number. -/
theorem isValid_of_ofOrdinal? {ordinal : Int} {d : Date} (h : ofOrdinal? ordinal = some d) :
    d.isValid = true ∧ (d.toOrdinal : Int) = ordinal := by
  have hrange : ¬ (ordinal < 1 ∨ ordinal > lastOrdinal) := by
    intro hout
    simp [ofOrdinal?, hout] at h
  obtain ⟨e, he, hvalid, hord⟩ := @ofOrdinal?_eq_some ordinal (by omega) (by omega)
  rw [h] at he
  cases he
  exact ⟨hvalid, hord⟩

/-- What three numbers name is a day of the calendar. -/
theorem isValid_of_ofParts? {year month day : Int} {d : Date}
    (h : ofParts? year month day = some d) : d.isValid = true := by
  unfold ofParts? at h
  split at h
  · cases h
  · simp only [Option.ite_none_right_eq_some, Option.some.injEq] at h
    rw [← h.2]
    exact h.1

/-- The three numbers of a day name that day. -/
theorem ofParts?_self {d : Date} (hd : d.isValid = true) :
    ofParts? d.year d.month d.day = some d := by
  obtain ⟨hy, _, hm, _, hday, _⟩ := isValid_iff.mp hd
  have hrange : ¬ ((d.year : Int) < 1 ∨ (d.month : Int) < 1 ∨ (d.day : Int) < 1) := by omega
  simp only [ofParts?, hrange, if_false, Int.toNat_natCast]
  rw [if_pos hd]

end Date

namespace DateTime

/-! ## Points of time -/

/-- The parts of a point of time are in range. -/
theorem isValid_iff {t : DateTime} :
    t.isValid = true ↔ t.date.isValid = true ∧ t.hour ≤ 23 ∧ t.minute ≤ 59 ∧ t.second ≤ 59 ∧
      t.micro ≤ 999999 := by
  simp [isValid, and_assoc]

/-- What is found for a count of microseconds is a point of time with the given offset. -/
theorem isValid_of_ofMicros? {n : Int} {offset : Option Int} {t : DateTime}
    (h : ofMicros? n offset = some t) : t.isValid = true ∧ t.offset = offset := by
  simp only [ofMicros?, Option.map_eq_some_iff] at h
  obtain ⟨d, hd, rfl⟩ := h
  refine ⟨isValid_iff.mpr ⟨(Date.isValid_of_ofOrdinal? hd).1, ?_, ?_, ?_, ?_⟩, rfl⟩
  · have hday : Int.fmod n microsPerDay < 86400000000 := Int.fmod_lt_of_pos n (by decide)
    simp only
    omega
  all_goals
    simp only
    omega

/-- What is found for a count of microseconds has that count. -/
theorem toMicros_of_ofMicros? {n : Int} {offset : Option Int} {t : DateTime}
    (h : ofMicros? n offset = some t) : t.toMicros = n := by
  obtain ⟨date, hdate, rfl⟩ := Option.map_eq_some_iff.mp h
  obtain ⟨-, hordinal⟩ := Date.isValid_of_ofOrdinal? hdate
  have hday : microsPerDay = 86400000000 := rfl
  have hdivision := Int.mul_fdiv_add_fmod n microsPerDay
  have hrest := Int.fmod_nonneg_of_pos n (show 0 < microsPerDay by decide)
  simp only [toMicros, hordinal, secondOfDay, microsPerSecond]
  rw [hday] at *
  omega

/-- What is made from parts is a point of time with the given offset. -/
theorem isValid_of_ofParts? {year month day hour minute second micro : Int}
    {offset : Option Int} {t : DateTime}
    (h : ofParts? year month day hour minute second micro offset = some t) :
    t.isValid = true := by
  unfold ofParts? at h
  split at h
  · cases h
  · next hrange =>
    obtain ⟨d, hd, rfl⟩ := Option.map_eq_some_iff.mp h
    refine isValid_iff.mpr ⟨Date.isValid_of_ofParts? hd, ?_, ?_, ?_, ?_⟩ <;> simp only <;> omega

/-- The parts of a point of time make that point of time. -/
theorem ofParts?_self {t : DateTime} (ht : t.isValid = true) :
    ofParts? t.date.year t.date.month t.date.day t.hour t.minute t.second t.micro t.offset =
      some t := by
  obtain ⟨hdate, hh, hm, hs, hu⟩ := isValid_iff.mp ht
  have hrange : ¬ ((t.hour : Int) < 0 ∨ (t.hour : Int) > 23 ∨ (t.minute : Int) < 0 ∨
      (t.minute : Int) > 59 ∨ (t.second : Int) < 0 ∨ (t.second : Int) > 59 ∨
      (t.micro : Int) < 0 ∨ (t.micro : Int) > 999999) := by omega
  rw [ofParts?, if_neg hrange, Date.ofParts?_self hdate]
  simp

/-- The same instant in universal time is a naive point of time. -/
theorem isValid_of_toUniversal? {t u : DateTime} (h : t.toUniversal? = some u)
    (ht : t.isValid = true) : u.isValid = true ∧ u.offset = none := by
  unfold toUniversal? at h
  split at h
  · next hoffset =>
    cases h
    exact ⟨ht, hoffset⟩
  · exact isValid_of_ofMicros? h

/-- Whether a point of time comes before another by its day, then by its time of day. -/
def Before (t u : DateTime) : Prop :=
  t.date.Before u.date ∨ (t.date = u.date ∧ (t.hour < u.hour ∨ (t.hour = u.hour ∧
    (t.minute < u.minute ∨ (t.minute = u.minute ∧
      (t.second < u.second ∨ (t.second = u.second ∧ t.micro < u.micro)))))))

/-- Of two points of time with one offset one comes before the other, or they are the same. -/
theorem before_or_eq_or_before {t u : DateTime} (hoffset : t.offset = u.offset) :
    t.Before u ∨ t = u ∨ u.Before t := by
  obtain ⟨d, h, m, s, n, o⟩ := t
  obtain ⟨d', h', m', s', n', o'⟩ := u
  simp only at hoffset
  simp only [Before, mk.injEq, hoffset, and_true]
  rcases Date.before_or_eq_or_before d d' with hdate | rfl | hdate
  · exact Or.inl (Or.inl hdate)
  · simp only [true_and]
    omega
  · exact Or.inr (Or.inr (Or.inl hdate))

/-- Microseconds on the clock grow with day and time of day. -/
theorem toMicros_lt {t u : DateTime} (ht : t.isValid = true) (hu : u.isValid = true)
    (htu : t.Before u) : t.toMicros < u.toMicros := by
  obtain ⟨hdate, _, _, _, _⟩ := isValid_iff.mp ht
  obtain ⟨hdate', _, _, _, _⟩ := isValid_iff.mp hu
  simp only [toMicros, secondOfDay, microsPerDay, microsPerSecond]
  rcases htu with hbefore | ⟨hsame, hclock⟩
  · have hday := Date.toOrdinal_lt hdate hdate' hbefore
    omega
  · rw [hsame]
    omega

/-- Microseconds since 1970 grow with day and time of day. -/
theorem epochMicros_lt {t u : DateTime} (ht : t.isValid = true) (hu : u.isValid = true)
    (htn : t.offset = none) (hun : u.offset = none) (htu : t.Before u) :
    t.epochMicros < u.epochMicros := by
  simpa [epochMicros, universalMicros, htn, hun] using toMicros_lt ht hu htu

/-- Midnight of a day is a point of time. -/
theorem isValid_ofDate {d : Date} (hd : d.isValid = true) : (ofDate d).isValid = true := by
  simp [isValid_iff, ofDate, hd]

end DateTime

/-- A point of time that is read from an operand is a point of time of the calendar. -/
theorem IsoReader.isValid_of_parse? {s : String} {t : DateTime} (h : IsoReader.parse? s = some t) :
    t.isValid = true := by
  simp only [IsoReader.parse?] at h
  split at h
  · cases h
  · obtain ⟨⟨⟨year, month, day⟩, rest⟩, _, h⟩ := Option.bind_eq_some_iff.mp h
    have hend : ∀ time : IsoReader.RawTime, ((DateTime.ofParts? year month day (if time.hour = 24 then 0 else time.hour) time.minute
      time.second time.micro time.offset).bind fun t => if time.hour = 24 then t.addMicros? microsPerDay else some t) = some t → t.isValid = true := by
      intro time htime
      obtain ⟨parts, hparts, h⟩ := Option.bind_eq_some_iff.mp htime
      split at h
      · exact (DateTime.isValid_of_ofMicros? h).1
      · cases h
        exact DateTime.isValid_of_ofParts? hparts
    cases rest with
    | nil => exact hend {} h
    | cons c rest =>
      obtain ⟨time, _, h⟩ := Option.bind_eq_some_iff.mp h
      exact hend time h

end TwinStore.Calendar
