import TwinStore.Primary.DateSum
import TwinStore.Proofs.CalendarText
import TwinStore.Proofs.StoredCell

/-!
# Points of time as the database counts them

The database reads the texts of days and points of time, counts them in milliseconds, and writes them
to the second.  Over the years of the calendar its count is the count of days, and it finds the day of
every count again.

Main definitions:

- `momentOf`: the point of time that the database reads.
- `millisOf`: its count of milliseconds.
- `secondText`: a point of time to the second, as the database writes it.

Main results:

- Theorem `ofText?_dateText`, `ofText?_instantText`, `ofText?_secondText`: stored texts are read as the
  points of time that they name, rounded to the millisecond.
- Theorem `toMillis?_momentOf`, `ofMillis?_eq`: counting, and finding what was counted.
- Theorem `dateTime?_secondText`: what the database writes is read as the point of time.
-/

namespace TwinStore

open Calendar Number

/-! ## Counting days -/

namespace Calendar

/-- The calendar repeats its years after four centuries. -/
theorem daysBeforeYear_add_cycles {year : ℕ} (hyear : 1 ≤ year) (cycles : ℕ) :
    daysBeforeYear (year + 400 * cycles) = daysBeforeYear year + 146097 * cycles := by
  simp only [daysBeforeYear]
  omega

/-- The calendar repeats its leap days after four centuries. -/
theorem isLeapYear_add_cycles (year cycles : ℕ) :
    isLeapYear (year + 400 * cycles) = isLeapYear year := by
  have h4 : (year + 400 * cycles) % 4 = year % 4 := by omega
  have h100 : (year + 400 * cycles) % 100 = year % 100 := by omega
  have h400 : (year + 400 * cycles) % 400 = year % 400 := by omega
  rw [isLeapYear, isLeapYear, h4, h100, h400]

/-- The calendar repeats its months after four centuries. -/
theorem daysInMonth_add_cycles (year cycles month : ℕ) :
    daysInMonth (year + 400 * cycles) month = daysInMonth year month := by
  rw [daysInMonth, daysInMonth, isLeapYear_add_cycles]

/-- The calendar repeats the days before its months after four centuries. -/
theorem daysBeforeMonth_add_cycles (year cycles month : ℕ) :
    daysBeforeMonth (year + 400 * cycles) month = daysBeforeMonth year month := by
  fun_induction daysBeforeMonth year month with
  | case1 => rfl
  | case2 => rfl
  | case3 month hne ih =>
    rw [daysBeforeMonth, ih, daysInMonth_add_cycles]
    exact hne

/-- The numbers of the days of the calendar. -/
theorem Date.toOrdinal_bounds {d : Date} (hd : d.isValid = true) :
    1 ≤ d.toOrdinal ∧ d.toOrdinal ≤ 3652059 := by
  obtain ⟨hyear, hyear', _, _, hday, _⟩ := Date.isValid_iff.mp hd
  have hmonthly := Date.monthly_le_daysInYear hd
  have hover := daysBeforeYear_add_daysInYear_le hyear (show d.year < 10000 by omega)
  have : daysBeforeYear 10000 = 3652059 := rfl
  simp only [Date.toOrdinal]
  omega

/-- A day is found by its number. -/
theorem Date.ofOrdinal?_toOrdinal {d : Date} (hd : d.isValid = true) :
    ofOrdinal? d.toOrdinal = some d := by
  obtain ⟨hfirst, hlast⟩ := toOrdinal_bounds hd
  have : lastOrdinal = 3652059 := rfl
  obtain ⟨e, he, hvalid, hordinal⟩ :=
    @ofOrdinal?_eq_some d.toOrdinal (by exact_mod_cast hfirst) (by omega)
  rw [he, (toOrdinal_inj hvalid hd).mp (by exact_mod_cast hordinal)]

end Calendar

namespace Primary

/-- A point of time as the database reads it: its clock is rounded to the millisecond. -/
def momentOf (t : DateTime) : Moment :=
  ⟨t.date.year, t.date.month, t.date.day, t.secondOfDay * 1000 + (t.micro + 500) / 1000⟩

/-- The milliseconds from the beginning of the year 1 to a point of time, rounded. -/
def millisOf (t : DateTime) : Millis :=
  (t.date.toOrdinal - 1) * millisPerDay + (t.secondOfDay * 1000 + (t.micro + 500) / 1000)

namespace Moment

variable {d : Date} {t : DateTime}

/-- The database counts the days of the calendar. -/
theorem dayCount_eq (hd : d.isValid = true) :
    dayCount d.year d.month d.day = d.toOrdinal - 1 := by
  obtain ⟨hyear, hlast, hmonth, hmonth', hday, _⟩ := Date.isValid_iff.mp hd
  obtain ⟨y, c, hy, hy', hsplit⟩ : ∃ y c, 1 ≤ y ∧ y ≤ 400 ∧ d.year = y + 400 * c :=
    ⟨(d.year - 1) % 400 + 1, (d.year - 1) / 400, by omega, by omega, by omega⟩
  have hcycle : Int.fdiv (d.year - 1) cycleYears = c := by
    rw [Int.fdiv_eq_ediv_of_nonneg _ (by decide), cycleYears]
    omega
  have hrest : ((d.year : ℤ) - c * cycleYears).toNat = y := by
    rw [cycleYears]
    omega
  simp only [dayCount, hcycle, hrest, Int.toNat_natCast, Date.toOrdinal]
  rw [hsplit, daysBeforeYear_add_cycles hy, daysBeforeMonth_add_cycles, cycleDays]
  push_cast
  ring

/-- The database counts a point of time of the calendar. -/
theorem toMillis?_momentOf (ht : t.isValid = true) : (momentOf t).toMillis? = some (millisOf t) := by
  obtain ⟨hdate, _⟩ := DateTime.isValid_iff.mp ht
  obtain ⟨_, hlast, _⟩ := Date.isValid_iff.mp hdate
  rw [toMillis?, momentOf, if_neg (by simp only; omega)]
  simp only [dayCount_eq hdate, millisOf]

/-- A count of milliseconds within a day of the calendar is the point of time on that day. -/
theorem ofMillis?_eq (hd : d.isValid = true) {clock : ℤ} (hclock : 0 ≤ clock)
    (hclock' : clock < millisPerDay) :
    ofMillis? ((d.toOrdinal - 1) * millisPerDay + clock) = some ⟨d.year, d.month, d.day, clock⟩ := by
  obtain ⟨hfirst, hlast⟩ := Date.toOrdinal_bounds hd
  have hms : millisPerDay = 86400000 := rfl
  rw [hms] at hclock' ⊢
  have hdays : Int.fdiv ((d.toOrdinal - 1) * 86400000 + clock) 86400000 = d.toOrdinal - 1 := by
    rw [Int.fdiv_eq_ediv_of_nonneg _ (by decide)]
    omega
  have hrest : Int.fmod ((d.toOrdinal - 1) * 86400000 + clock) 86400000 = clock := by
    rw [Int.fmod_eq_emod_of_nonneg _ (by decide)]
    omega
  have hrange : ¬ ((d.toOrdinal - 1) * 86400000 + clock < leastMillis ∨
      (d.toOrdinal - 1) * 86400000 + clock > greatestMillis) := by
    show ¬ ((d.toOrdinal - 1) * 86400000 + clock < (-148731163200000 : ℤ) ∨
      (d.toOrdinal - 1) * 86400000 + clock > (315537897599999 : ℤ))
    omega
  rw [ofMillis?, if_neg hrange]
  simp only [hms, hdays, hrest]
  obtain ⟨e, he, hvalid, hordinal⟩ := @Date.ofOrdinal?_eq_some
    (Int.fmod (d.toOrdinal - 1) cycleDays + 1) (by
      have := Int.fmod_nonneg_of_pos (d.toOrdinal - 1) (show 0 < cycleDays by decide)
      omega) (by
      have := Int.fmod_lt_of_pos (d.toOrdinal - 1) (show 0 < cycleDays by decide)
      have : (lastOrdinal : ℤ) = 3652059 := rfl
      have : cycleDays = 146097 := rfl
      omega)
  rw [he, Option.map_some]
  obtain ⟨c, hc⟩ : ∃ c : ℕ, Int.fdiv (d.toOrdinal - 1) cycleDays = c :=
    ⟨((d.toOrdinal - 1) / 146097), by
      rw [Int.fdiv_eq_ediv_of_nonneg _ (by decide), cycleDays]
      omega⟩
  have hsplit := Int.mul_fdiv_add_fmod (d.toOrdinal - 1) cycleDays
  rw [hc] at hsplit ⊢
  rw [show cycleDays = 146097 from rfl] at hsplit hordinal
  -- The day that is found, moved by the full cycles, is a day with the number of the day.
  obtain ⟨hyear, hyear', hmonth, hmonth', hday, hlength⟩ := Date.isValid_iff.mp hvalid
  have hmoved : (⟨e.year + 400 * c, e.month, e.day⟩ : Date).toOrdinal = d.toOrdinal := by
    generalize d.toOrdinal = ordinal at hsplit hordinal
    simp only [Date.toOrdinal] at hordinal ⊢
    rw [daysBeforeYear_add_cycles hyear, daysBeforeMonth_add_cycles]
    omega
  have hmoved' : (⟨e.year + 400 * c, e.month, e.day⟩ : Date).isValid = true := by
    refine Date.isValid_iff.mpr ⟨by simp only; omega, ?_, hmonth, hmonth', hday, ?_⟩
    · by_contra hlate
      replace hlate : ¬ e.year + 400 * c ≤ 9999 := hlate
      have hbefore := daysBeforeYear_le (show 10000 ≤ e.year + 400 * c by omega)
      have : daysBeforeYear 10000 = 3652059 := rfl
      rw [← hmoved] at hlast
      simp only [Date.toOrdinal] at hlast
      omega
    · rw [daysInMonth_add_cycles]
      exact hlength
  obtain rfl := (Date.toOrdinal_inj hmoved' hd).mp hmoved
  simp [cycleYears, Int.mul_comm]

end Moment

/-! ## Reading -/

namespace Moment

/-- Digits are gathered into their number. -/
theorem foldl_fixedDigits (count value n : ℕ) :
    (fixedDigits 10 count n).foldl (fun n c => 10 * n + (c.toNat - 48)) value =
      value * 10 ^ count + n % 10 ^ count := by
  induction count generalizing n with
  | zero => simp [fixedDigits, Nat.mod_one]
  | succ count ih =>
    have hdigit (d : ℕ) (hd : d < 10) : (Nat.digitChar d).toNat - 48 = d := by
      interval_cases d <;> rfl
    rw [fixedDigits, List.foldl_append, ih, List.foldl_cons, List.foldl_nil,
      hdigit _ (Nat.mod_lt n (by decide)), Nat.pow_succ', Nat.mod_mul]
    ring

/-- Digits are digits. -/
theorem isDigit_of_mem_fixedDigits {count n : ℕ} {c : Char} (hc : c ∈ fixedDigits 10 count n) :
    c.isDigit = true ∧ isNumberBlank c = false ∧ c ≠ '-' ∧ c ≠ 'T' := by
  obtain ⟨d, hd, rfl⟩ := exists_digit_of_mem_fixedDigits (by decide) hc
  interval_cases d <;> decide

/-- The digits of a number are a field. -/
theorem field?_fixedDigits {count limit n : ℕ} (hn : n < 10 ^ count) (hlimit : n ≤ limit)
    (rest : List Char) : field? count limit (fixedDigits 10 count n ++ rest) = some (n, rest) := by
  have hdigits : (fixedDigits 10 count n).all Char.isDigit = true :=
    List.all_eq_true.mpr fun c hc => (isDigit_of_mem_fixedDigits hc).1
  rw [field?]
  simp only [take_fixedDigits_append, drop_fixedDigits_append, length_fixedDigits,
    foldl_fixedDigits, Nat.zero_mul, Nat.zero_add, Nat.mod_eq_of_lt hn]
  rw [if_pos ⟨trivial, hdigits, hlimit⟩]

/-- The day at the beginning of a text is read. -/
theorem day?_dateFields (hd : d.isValid = true) (rest : List Char) :
    day? (dateFields d ++ rest) = some (⟨d.year, d.month, d.day, 0⟩, rest) := by
  obtain ⟨hyear, hmonth, hday⟩ := d.parts_lt hd
  obtain ⟨_, hlast, hm, hm', hday', _⟩ := Date.isValid_iff.mp hd
  have hday32 := Date.day_lt hd
  have hyear := field?_fixedDigits hyear (show d.year ≤ 9999 by omega)
  have hmonth := field?_fixedDigits hmonth (show d.month ≤ 12 by omega)
  have hday := field?_fixedDigits hday (show d.day ≤ 31 by omega)
  have hunsigned (rest' : List Char) : dateFields d ++ rest = '-' :: rest' → False := by
    rw [dateFields, fixedDigits_succ]
    intro heq
    exact (isDigit_of_mem_fixedDigits (fixedDigits_succ 10 3 d.year ▸ List.mem_cons_self)).2.2.1
      (List.cons.inj heq).1
  rw [day?]
  · simp only [dateFields, List.append_assoc, List.cons_append, hyear, hmonth, hday, mark?,
      Option.bind_eq_bind, Option.bind_some, if_true]
    rw [if_neg (by omega), one_mul]
  · exact hunsigned

/-- A fraction of six digits is read, rounded to the millisecond. -/
theorem fraction_fixedDigits {n : ℕ} (hn : n < 10 ^ 6) :
    fraction ('.' :: fixedDigits 10 6 n) = ((((n + 500) / 1000 : ℕ) : ℤ), []) := by
  have htake : (fixedDigits 10 6 n).takeWhile Char.isDigit = fixedDigits 10 6 n :=
    List.takeWhile_eq_self_iff.mpr fun c hc => (isDigit_of_mem_fixedDigits hc).1
  have hfold := foldl_fixedDigits 6 0 n
  have hlength := length_fixedDigits 10 6 n
  rw [fraction]
  simp only [List.drop_one, List.tail_cons, htake, List.head?_cons]
  split
  · rw [hfold, hlength]
    refine Prod.ext ?_ (by simp)
    simp only
    congr 1
    omega
  · next hne =>
    exact absurd (fixedDigits_succ 10 5 n) (hne _ _ rfl)

/-- A clock reading with its fraction is read, and no offset. -/
theorem time?_clockFields (ht : t.isValid = true) {tail : List Char}
    (htail : StoredReader.IsFraction t.micro tail) :
    time? (clockFields t ++ tail) = some ((momentOf t).clock, 0) := by
  obtain ⟨_, hh, hm, hs, hn⟩ := DateTime.isValid_iff.mp ht
  have hhour := field?_fixedDigits (show t.hour < 10 ^ 2 by omega) (show t.hour ≤ 24 by omega)
  have hminute := field?_fixedDigits (show t.minute < 10 ^ 2 by omega) hm
  have hsecond := field?_fixedDigits (show t.second < 10 ^ 2 by omega) hs
  have hfraction : fraction tail = ((((t.micro + 500) / 1000 : ℕ) : ℤ), []) := by
    rcases htail with rfl | ⟨hmicro, rfl⟩
    · exact fraction_fixedDigits (by omega)
    · rw [hmicro]
      rfl
  have hzone : zone? [] = some 0 := rfl
  simp only [time?, clockFields, List.append_assoc, List.cons_append, hhour, hminute, hsecond,
    mark?, Option.bind_eq_bind, Option.bind_some, if_true, hfraction, hzone, momentOf,
    DateTime.secondOfDay]
  refine congrArg some (Prod.ext ?_ rfl)
  push_cast
  ring

/-- A text of the fields of a day and a time with a blank between them is read. -/
theorem ofText?_fields (ht : t.isValid = true) {s : String} {tail : List Char}
    (htail : StoredReader.IsFraction t.micro tail)
    (hs : s.toList = dateFields t.date ++ ' ' :: (clockFields t ++ tail)) :
    ofText? s = some (momentOf t) := by
  obtain ⟨hdate, _⟩ := DateTime.isValid_iff.mp ht
  obtain ⟨c, rest, hc, hblank⟩ : ∃ c rest, clockFields t ++ tail = c :: rest ∧
      (isNumberBlank c || c = 'T') = false := by
    refine ⟨_, _, by rw [clockFields, fixedDigits_succ]; rfl, ?_⟩
    obtain ⟨_, hblank, _, hmark⟩ :=
      isDigit_of_mem_fixedDigits (fixedDigits_succ 10 1 t.hour ▸ List.mem_cons_self)
    rw [hblank, Bool.false_or, decide_eq_false hmark]
  have hdrop : (' ' :: (clockFields t ++ tail)).dropWhile (fun c => isNumberBlank c || c = 'T') =
      clockFields t ++ tail := by
    rw [List.dropWhile_cons_of_pos (by decide), hc, List.dropWhile_cons_of_neg (by simp [hblank])]
  have htime := time?_clockFields ht htail
  simp only [ofText?, hs, day?_dateFields hdate, hdrop]
  rw [hc] at htime ⊢
  simp only [htime, Option.bind_eq_bind, Option.bind_some]
  rw [atOffset?, if_pos rfl]
  rfl

/-- The text of a day is read as the beginning of the day. -/
theorem ofText?_dateText (hd : d.isValid = true) :
    ofText? d.text = some (momentOf (DateTime.ofDate d)) := by
  have hday := day?_dateFields hd []
  rw [List.append_nil] at hday
  simp only [ofText?, Date.text_toList hd, hday, List.dropWhile_nil]
  simp [momentOf, DateTime.ofDate, DateTime.secondOfDay]

/-- The text of a stored point of time is read. -/
theorem ofText?_instantText (ht : t.isValid = true) : ofText? (instantText t) = some (momentOf t) :=
  ofText?_fields ht (.inl rfl) (instantText_toList ht)

end Moment

/-! ## Writing -/

/-- A point of time to the second, as the database writes it. -/
def secondText (t : DateTime) : String := t.date.text ++ " " ++ t.clockText

/-- A point of time to the second consists of its fields. -/
theorem secondText_toList {t : DateTime} (ht : t.isValid = true) :
    (secondText t).toList = dateFields t.date ++ ' ' :: clockFields t := by
  obtain ⟨hdate, _⟩ := DateTime.isValid_iff.mp ht
  simp only [secondText, String.toList_append, Date.text_toList hdate, DateTime.clockText_toList ht]
  simp

/-- A text to the second is read as the point of time, if there are no microseconds. -/
theorem Moment.ofText?_secondText {t : DateTime} (ht : t.isValid = true) (hmicro : t.micro = 0) :
    ofText? (secondText t) = some (momentOf t) :=
  ofText?_fields ht (.inr ⟨hmicro, rfl⟩) (by rw [secondText_toList ht, List.append_nil])

/-- What the database writes to the second is read as the point of time. -/
theorem dateTime?_secondText {t : DateTime} (ht : t.isValid = true) (hnaive : t.offset = none)
    (hmicro : t.micro = 0) : StoredReader.dateTime? (secondText t) = some t :=
  StoredReader.dateTime?_of_naive ht hnaive (show ' '.toNat < 128 by decide) (.inr ⟨hmicro, rfl⟩)
    (by rw [secondText_toList ht, List.append_nil])

/-- A text to the second is no number. -/
theorem numberOfText?_secondText {t : DateTime} (ht : t.isValid = true) :
    numberOfText? (secondText t) = none := by
  refine @numberOfText?_eq_none _ t.date.year (t.second % 10)
    (fixedDigits 10 2 t.date.month ++ '-' :: (fixedDigits 10 2 t.date.day ++ ' ' ::
      (fixedDigits 10 2 t.hour ++ ':' :: (fixedDigits 10 2 t.minute ++ ':' ::
        fixedDigits 10 1 (t.second / 10))))) (Nat.mod_lt _ (by decide)) ?_
  rw [secondText_toList ht, dateFields, clockFields]
  simp [fixedDigits]

/-- Three texts with a separator between them. -/
theorem intercalate_three (separator a b c : String) :
    separator.intercalate [a, b, c] = a ++ separator ++ b ++ separator ++ c := rfl

/-- The day of a point of time is written like the day. -/
theorem Moment.dateText_eq (d : Date) (clock : ℤ) :
    dateText ⟨d.year, d.month, d.day, clock⟩ = d.text := by
  have hsign : ¬ ((d.year : ℤ) < 0) := by omega
  simp [dateText, yearText, hsign, Date.text]

/-- A point of time is written to the second. -/
theorem Moment.text_momentOf {t : DateTime} (ht : t.isValid = true) (hmicro : t.micro < 999500) :
    (momentOf t).text false = secondText t := by
  obtain ⟨hdate, hh, hm, hs, hn⟩ := DateTime.isValid_iff.mp ht
  have hday : (momentOf t).dateText = t.date.text := dateText_eq t.date _
  have hclock : ((momentOf t).clock / 1000).toNat = t.secondOfDay := by
    simp only [momentOf]
    omega
  have hhour : t.secondOfDay / 3600 = t.hour := by
    simp only [DateTime.secondOfDay]
    omega
  have hminute : t.secondOfDay / 60 % 60 = t.minute := by
    simp only [DateTime.secondOfDay]
    omega
  have hsecond : t.secondOfDay % 60 = t.second := by
    simp only [DateTime.secondOfDay]
    omega
  rw [text, if_neg Bool.false_ne_true, hday, hclock, secondText, DateTime.clockText]
  simp only [hhour, hminute, hsecond, List.map_cons, List.map_nil]
  rw [intercalate_three]

end Primary
end TwinStore
