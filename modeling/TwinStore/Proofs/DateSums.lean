import Mathlib.Data.List.TakeWhile
import TwinStore.Primary.DateSum
import TwinStore.Proofs.DoubleArithmetic
import TwinStore.Proofs.Spellings
import TwinStore.Proofs.WholeShifts

/-!
# Whole amounts in sums of the database

The database reads an amount from its text, multiplies doubles and rounds to milliseconds.  For an
integer none of these steps loses anything as long as the sum stays in the calendar: the text is read
as the integer, and the products are doubles.

Main definitions:

- `unitCount`, `countLimit`: the amount that an integer stands for, and the least one that is refused.

Main results:

- Theorem `amount?_int`: the amount of an integer.
- Theorem `moved_eq`: a point of time moved by it.
- Theorem `sumCell_eq`: the cell of the sum.
-/

namespace TwinStore.Primary

open Calendar Number

/-! ## Reading integers -/

/-- The text of an integer has no blanks, and begins like a number. -/
theorem integerText_plain (n : ℤ) : (∀ c ∈ (integerText n).toList, isNumberBlank c = false) ∧
    beginsAmount (integerText n).toList = true := by
  have hdigit {d : ℕ} (hd : d < 10) : isNumberBlank (Nat.digitChar d) = false ∧
      (Nat.digitChar d).isDigit = true := by
    interval_cases d <;> decide
  have hdigits : ∀ c ∈ Nat.toDigits 10 n.natAbs, isNumberBlank c = false := by
    intro c hc
    obtain ⟨d, hd, rfl⟩ := AllDigits.toDigits n.natAbs c hc
    exact (hdigit hd).1
  obtain ⟨d, ds, hfirst, hd, -⟩ := exists_toDigits n.natAbs
  rw [integerText_toList]
  split_ifs
  · refine ⟨fun c hc => ?_, rfl⟩
    rcases List.mem_cons.mp hc with rfl | hc
    · decide
    · exact hdigits c hc
  · refine ⟨hdigits, ?_⟩
    simp [hfirst, beginsAmount, hdigit hd]

/-- The text of an integer of 64 bits is read as the integer. -/
theorem numberOfText?_integerText {n : ℤ} (hn : fitsWord n = true) :
    numberOfText? (integerText n) = some (.int n) := by
  have hplain := (integerText_plain n).1
  have hsign : Decimal.splitSign (integerText n).toList =
      (decide (n < 0), Nat.toDigits 10 n.natAbs) := by
    obtain ⟨d, ds, hfirst, hd, -⟩ := exists_toDigits n.natAbs
    rw [integerText_toList]
    by_cases hneg : n < 0
    · rw [decide_eq_true hneg]
      rfl
    · rw [decide_eq_false hneg, hfirst]
      have : Nat.digitChar d ≠ '-' ∧ Nat.digitChar d ≠ '+' := by
        interval_cases d <;> decide
      simp [Decimal.splitSign, this]
  have hdigit : ∀ c ∈ Nat.toDigits 10 n.natAbs, c ≠ 'e' ∧ c ≠ 'E' ∧ c ≠ '.' := by
    intro c hc
    obtain ⟨d, hd, rfl⟩ := AllDigits.toDigits n.natAbs c hc
    interval_cases d <;> decide
  have hmark : ∀ c ∈ Nat.toDigits 10 n.natAbs, (!(c == 'e' || c == 'E')) = true := by
    intro c hc
    simp [hdigit c hc]
  have hpoint : ∀ c ∈ Nat.toDigits 10 n.natAbs, (c != '.') = true := by
    intro c hc
    simp [hdigit c hc]
  have hread : Decimal.significand? (Nat.toDigits 10 n.natAbs) = some (n.natAbs, 0) := by
    obtain ⟨d, ds, hfirst, -⟩ := exists_toDigits n.natAbs
    rw [Decimal.significand?, List.takeWhile_eq_self_iff.mpr hpoint, List.dropWhile_eq_nil_iff.mpr hpoint,
      List.drop_nil, List.append_nil, digitRun?_toDigits, hfirst]
    rfl
  have hsigned : (if decide (n < 0) = true then -(n.natAbs : ℤ) else n.natAbs) = n := by
    split_ifs with hneg
    · have := of_decide_eq_true hneg
      omega
    · have := of_decide_eq_false (Bool.eq_false_iff.mpr hneg)
      omega
  have hnone : (Nat.toDigits 10 n.natAbs).contains '.' = false := by
    rw [Bool.eq_false_iff, ne_eq, List.contains_iff_mem]
    exact fun hc => (hdigit '.' hc).2.2 rfl
  rw [numberOfText?, dropWhile_reverse_dropWhile hplain]
  simp only [hsign, List.takeWhile_eq_self_iff.mpr hmark, List.dropWhile_eq_nil_iff.mpr hmark, hread,
    Option.bind_eq_bind, Option.bind_some, hsigned]
  rw [if_pos ⟨trivial, by rw [hnone]; rfl, hn⟩]
  rfl

/-- The text of an integer of 64 bits is read as an amount. -/
theorem amountOfText?_integerText {n : ℤ} (hn : fitsWord n = true) :
    amountOfText? (integerText n) = some (Binary64.ofSignedRatio n 1) := by
  obtain ⟨hplain, hbegins⟩ := integerText_plain n
  have hword : (integerText n).toList.takeWhile (!isNumberBlank ·) = (integerText n).toList :=
    List.takeWhile_eq_self_iff.mpr fun c hc => by rw [hplain c hc]; rfl
  rw [amountOfText?]
  simp only [hword, hbegins, List.drop_length, List.all_nil, Bool.and_self, if_true,
    String.ofList_toList, numberOfText?_integerText hn, Option.bind_some, doubleOf?]

/-! ## Amounts -/

/-- The number of units, or of days, that an integer stands for. -/
def unitCount (unit : DateUnit) (n : ℤ) : ℤ := if unit = .week then 7 * n else n

/-- The integer below which in size the database adds units. -/
def countLimit : DateUnit → ℕ
  | .second => 464270000000000
  | .minute => 7737900000000
  | .hour => 128970000000
  | .day | .week => 5373485
  | .month => 176546
  | .year => 14713

/-- The limit of amounts as a number. -/
theorem value?_unitLimit (unit : DateUnit) :
    Binary64.value? (unitLimit unit) = some ((countLimit unit : ℤ) : ℚ) := by
  cases unit with
  | second => exact Binary64.value?_of_scaled (k := 4) (by decide +kernel)
  | minute => exact Binary64.value?_of_scaled (k := 10) (by decide +kernel)
  | hour => exact Binary64.value?_of_scaled (k := 16) (by decide +kernel)
  | day => exact Binary64.value?_of_scaled (k := 30) (by decide +kernel)
  | week => exact Binary64.value?_of_scaled (k := 30) (by decide +kernel)
  | month => exact Binary64.value?_of_scaled (k := 35) (by decide +kernel)
  | year => exact Binary64.value?_of_scaled (k := 39) (by decide +kernel)

/-- The double of a small integer is the integer. -/
theorem value?_ofInt {n : ℤ} (hn : n.natAbs < 2 ^ 53) :
    Binary64.value? (Binary64.ofSignedRatio n 1) = some (n : ℚ) := by
  have hdouble := Binary64.isDouble_mul_pow hn (k := 0) (by decide) (by decide)
  rw [zpow_zero, mul_one] at hdouble
  have := Binary64.value?_ofSignedRatio n Nat.one_pos (by rwa [Nat.cast_one, div_one])
  rwa [Nat.cast_one, div_one] at this

/-- The amount of an integer below the limit. -/
theorem amount?_int {unit : DateUnit} {n : ℤ} (hn : (unitCount unit n).natAbs < countLimit unit) :
    ∃ x, amount? unit (.int n) = some x ∧ Binary64.value? x = some (unitCount unit n : ℚ) := by
  have hsmall : countLimit unit < 2 ^ 53 := by cases unit <;> decide
  have hvalue := value?_ofInt (hn.trans hsmall)
  have hfits : fitsWord (unitCount unit n) = true := by
    simp only [fitsWord, Bool.and_eq_true, decide_eq_true_eq]
    omega
  have hcell : (if unit = .week then sevenfold (.int n) else .int n) = .int (unitCount unit n) := by
    unfold unitCount at hfits ⊢
    split_ifs at hfits ⊢
    · rw [sevenfold, if_pos hfits]
    · rfl
  have hlimit : (Binary64.ofSignedRatio (unitCount unit n) 1).abs < unitLimit unit := by
    rw [Binary64.lt_iff (Binary64.value?_abs hvalue) (value?_unitLimit unit)]
    have : |unitCount unit n| < countLimit unit := by
      rw [abs_lt]
      omega
    exact_mod_cast this
  refine ⟨_, ?_, hvalue⟩
  rw [amount?, hcell]
  simp only [amountText?, Option.bind_eq_bind, Option.bind_some, amountOfText?_integerText hfits,
    if_pos hlimit]

/-! ## Milliseconds -/

/-- The seconds of a unit as a number. -/
theorem value?_seconds (unit : DateUnit) :
    Binary64.value? (Float.ofNat (unitSeconds unit)) = some ((unitSeconds unit : ℤ) : ℚ) := by
  cases unit with
  | second => exact Binary64.value?_of_scaled (k := 52) (by decide +kernel)
  | minute => exact Binary64.value?_of_scaled (k := 47) (by decide +kernel)
  | hour => exact Binary64.value?_of_scaled (k := 41) (by decide +kernel)
  | day => exact Binary64.value?_of_scaled (k := 36) (by decide +kernel)
  | week => exact Binary64.value?_of_scaled (k := 33) (by decide +kernel)
  | month => exact Binary64.value?_of_scaled (k := 31) (by decide +kernel)
  | year => exact Binary64.value?_of_scaled (k := 28) (by decide +kernel)

/-- The milliseconds of a whole number of units: the products and the half are exact. -/
theorem fractionMillis_eq {x : Float} {n : ℤ} (hx : Binary64.value? x = some (n : ℚ)) (unit : DateUnit)
    (hn : (n * 1000 * unitSeconds unit).natAbs < 2 ^ 52) :
    fractionMillis x (unitSeconds unit) = n * 1000 * unitSeconds unit := by
  have hpos : 0 < unitSeconds unit := by cases unit <;> decide
  have hwhole {n : ℤ} (hn : n.natAbs < 2 ^ 53) : Binary64.IsDouble (n : ℚ) := by
    have := Binary64.isDouble_mul_pow hn (k := 0) (by decide) (by decide)
    rwa [zpow_zero, mul_one] at this
  have hthousand : Binary64.value? 1000.0 = some ((1000 : ℤ) : ℚ) :=
    Binary64.value?_of_scaled (k := 43) (by decide +kernel)
  have hfirst : (n * 1000).natAbs < 2 ^ 53 := by
    have : (n * 1000).natAbs * 1 ≤ (n * 1000).natAbs * unitSeconds unit :=
      Nat.mul_le_mul_left _ hpos
    rw [Int.natAbs_mul, Int.natAbs_natCast] at hn
    omega
  have hscaled := Binary64.value?_mul hx hthousand (by exact_mod_cast hwhole hfirst)
  have hproduct := Binary64.value?_mul hscaled (value?_seconds unit)
    (by exact_mod_cast hwhole (hn.trans (by decide)))
  have hsum : (n : ℚ) * (1000 : ℤ) * (unitSeconds unit : ℤ) = ((n * 1000 * unitSeconds unit : ℤ) : ℚ) := by
    push_cast
    ring
  rw [hsum] at hproduct
  have hsign : n * 1000 * unitSeconds unit < 0 ↔ n < 0 := by
    have hfactor : (0 : ℤ) < unitSeconds unit := by exact_mod_cast hpos
    rw [← not_le, ← not_le, mul_nonneg_iff_of_pos_right hfactor,
      mul_nonneg_iff_of_pos_right (by decide)]
  have hzero : Binary64.value? 0.0 = some ((0 : ℤ) : ℚ) :=
    Binary64.value?_of_scaled (k := 1074) (by decide +kernel)
  have hnegative : x < 0.0 ↔ n < 0 := by
    rw [Binary64.lt_iff hx hzero, Int.cast_lt]
  generalize n * 1000 * unitSeconds unit = k at hn hproduct hsign ⊢
  have hhalves {m : ℤ} (hm : m.natAbs < 2 ^ 53) : Binary64.IsDouble ((m : ℚ) / 2) := by
    have := Binary64.isDouble_mul_pow hm (k := -1) (by decide) (by decide)
    rwa [zpow_neg_one, ← div_eq_mul_inv] at this
  unfold fractionMillis
  by_cases hneg : n < 0
  · have hhalf : Binary64.value? (-0.5) = some (-1 / 2) := by
      rw [Binary64.value?, show Binary64.scaled? (-0.5) = some ⟨-2 ^ 52, -53⟩ by decide +kernel]
      norm_num [Binary64.Scaled.value]
    have hexact : (k : ℚ) + -1 / 2 = ((2 * k - 1 : ℤ) : ℚ) / 2 := by
      push_cast
      ring
    obtain ⟨s, hs, hvalue⟩ := Binary64.exists_scaled
      (Binary64.value?_add hproduct hhalf (hexact ▸ hhalves (by omega)))
    have hk : (k : ℚ) ≤ -1 := by
      have : k ≤ -1 := by omega
      exact_mod_cast this
    simp only [if_pos (hnegative.mpr hneg), hs, Option.map_some, Option.getD_some]
    rw [Binary64.Scaled.truncate_eq, hvalue, if_neg (by linarith), Int.ceil_eq_iff]
    constructor <;> linarith
  · have hhalf : Binary64.value? 0.5 = some (1 / 2) := by
      rw [Binary64.value?, show Binary64.scaled? 0.5 = some ⟨2 ^ 52, -53⟩ by decide +kernel]
      norm_num [Binary64.Scaled.value]
    have hexact : (k : ℚ) + 1 / 2 = ((2 * k + 1 : ℤ) : ℚ) / 2 := by
      push_cast
      ring
    obtain ⟨s, hs, hvalue⟩ := Binary64.exists_scaled
      (Binary64.value?_add hproduct hhalf (hexact ▸ hhalves (by omega)))
    have hk : (0 : ℚ) ≤ k := by
      have : 0 ≤ k := by omega
      exact_mod_cast this
    simp only [if_neg (mt hnegative.mp hneg), hs, Option.map_some, Option.getD_some]
    rw [Binary64.Scaled.truncate_eq, hvalue, if_pos (by linarith), Int.floor_eq_iff]
    constructor <;> linarith

/-- A whole number of units leaves no rest. -/
theorem splitWhole_eq {x : Float} {n : ℤ} (hx : Binary64.value? x = some (n : ℚ)) (hn : n.natAbs < 2 ^ 53) :
    ∃ rest, splitWhole x = (n, rest) ∧ Binary64.value? rest = some ((0 : ℤ) : ℚ) := by
  obtain ⟨s, hs, hvalue⟩ := Binary64.exists_scaled hx
  have htruncate : s.truncate = n := by
    rw [Binary64.Scaled.truncate_eq, hvalue, Int.floor_intCast, Int.ceil_intCast, ite_self]
  have hrest := Binary64.value?_sub hx (value?_ofInt hn) (by rw [sub_self]; exact .inl rfl)
  refine ⟨_, ?_, by rw [Int.cast_zero, ← sub_self (n : ℚ)]; exact hrest⟩
  simp only [splitWhole, hs, htruncate]

/-! ## Sums -/

variable {unit : DateUnit} {n : ℤ} {t u : DateTime}

/-- A sum within the calendar has an amount that the database knows. -/
theorem unitCount_lt (ht : t.isValid = true) (hu : u.isValid = true) (h : IsLater unit n t u) :
    (unitCount unit n).natAbs < countLimit unit := by
  cases h with
  | @time seconds counts micros =>
    have hbounds := DateTime.toMicros_bounds ht
    have hbounds' := DateTime.toMicros_bounds hu
    cases unit with
    | month | year => cases counts
    | _ =>
      cases counts
      simp only [unitCount, countLimit, reduceCtorEq, if_false, if_true]
      omega
  | @months months counts month rest =>
    obtain ⟨hyear, hlast, hmonth, hmonth', _⟩ := Date.isValid_iff.mp (DateTime.isValid_iff.mp ht).1
    obtain ⟨hyear', hlast', hmonth₂, hmonth₃, _⟩ := Date.isValid_iff.mp (DateTime.isValid_iff.mp hu).1
    cases unit with
    | month | year =>
      cases counts
      simp only [unitCount, countLimit, reduceCtorEq, if_false]
      omega
    | _ => cases counts

/-- Counts of milliseconds are apart as counts of microseconds. -/
theorem millisOf_add {seconds : ℕ} (h : u.toMicros = t.toMicros + n * seconds * 1000000)
    (ht : t.isValid = true) (hu : u.isValid = true) :
    millisOf u = millisOf t + n * seconds * 1000 := by
  obtain ⟨_, hh, hm, hs, hn⟩ := DateTime.isValid_iff.mp ht
  obtain ⟨_, hh', hm', hs', hn'⟩ := DateTime.isValid_iff.mp hu
  have hday : microsPerDay = 86400000000 := rfl
  have hday' : millisPerDay = 86400000 := rfl
  simp only [DateTime.toMicros, hday, microsPerSecond, millisOf, hday'] at h ⊢
  generalize n * (seconds : ℤ) = k at h ⊢
  have : u.micro = t.micro := by omega
  show (_ : ℤ) = _
  omega

/-- The database moves a point of time as long as it stays in the calendar and the month has the day. -/
theorem moved_eq (ht : t.isValid = true) (hu : u.isValid = true) (h : IsLater unit n t u) {x : Float}
    (hx : Binary64.value? x = some (unitCount unit n : ℚ)) :
    moved unit x (momentOf t) = some (millisOf u) := by
  have hcount := unitCount_lt ht hu h
  have hlimit : countLimit unit < 2 ^ 53 := by cases unit <;> decide
  cases h with
  | @time seconds counts micros =>
    have hmillis := millisOf_add micros ht hu
    have hbounds := DateTime.toMicros_bounds ht
    have hbounds' := DateTime.toMicros_bounds hu
    have hadd {unit : DateUnit} {k : ℤ} (hx : Binary64.value? x = some (k : ℚ))
        (hk : k * 1000 * unitSeconds unit = n * seconds * 1000) :
        (do return (← (momentOf t).toMillis?) + fractionMillis x (unitSeconds unit) : Option Millis) =
          some (millisOf u) := by
      rw [Moment.toMillis?_momentOf ht, fractionMillis_eq hx unit (by rw [hk]; omega), hk, hmillis]
      rfl
    cases unit with
    | month | year => cases counts
    | week =>
      cases counts
      exact @hadd .day _ hx (by simp only [unitCount, unitSeconds, if_true]; omega)
    | _ =>
      cases counts
      exact hadd hx (by simp only [unitCount, unitSeconds, reduceCtorEq, if_false]; omega)
  | @months months counts month rest =>
    obtain ⟨hyear, hlast, hmonth, hmonth', _⟩ := Date.isValid_iff.mp (DateTime.isValid_iff.mp hu).1
    have hday : u.date.day = t.date.day := by rw [rest]
    have hclock : u.secondOfDay = t.secondOfDay := by rw [rest]; rfl
    have hmicro : u.micro = t.micro := by rw [rest]
    have hmoment : (momentOf t).addMonths (n * months) = momentOf u := by
      have htotal : 12 * (t.date.year : ℤ) + t.date.month - 1 + n * months =
          12 * u.date.year + (u.date.month - 1) := by omega
      simp only [Moment.addMonths, momentOf, htotal, Int.fdiv_eq_ediv_of_nonneg _ (by decide : (0 : ℤ) ≤ 12),
        Int.fmod_eq_emod_of_nonneg _ (by decide : (0 : ℤ) ≤ 12), hday, hclock, hmicro, Moment.mk.injEq]
      exact ⟨by omega, by omega, trivial, trivial⟩
    obtain ⟨left, hsplit, hleft⟩ := splitWhole_eq hx (hcount.trans hlimit)
    have hadd (unit : DateUnit) :
        (do return (← (momentOf u).toMillis?) + fractionMillis left (unitSeconds unit) : Option Millis) =
          some (millisOf u) := by
      rw [Moment.toMillis?_momentOf hu, fractionMillis_eq hleft unit (by simp), Int.zero_mul, Int.zero_mul]
      exact congrArg some (Int.add_zero _)
    cases unit with
    | month =>
      cases counts
      have hwhole : (momentOf t).addMonths (unitCount .month n) = momentOf u := by
        rw [← hmoment, Nat.cast_one, Int.mul_one]
        rfl
      rw [moved]
      simp only [hsplit, hwhole]
      exact hadd .month
    | year =>
      cases counts
      have hwhole : (momentOf t).addMonths (12 * unitCount .year n) = momentOf u := by
        rw [← hmoment, Int.mul_comm]
        rfl
      rw [moved]
      simp only [hsplit, hwhole]
      exact hadd .year
    | _ => cases counts

/-- The sum of a date and an integer in the database. -/
theorem sumCell_eq (asDate : Bool) (ht : t.isValid = true) (hu : u.isValid = true) (h : IsLater unit n t u)
    {date : Cell} (hdate : Moment.ofCell? date = some (momentOf t))
    (hclock : (momentOf u).clock < millisPerDay) :
    sumCell unit asDate date (.int n) = .text ((momentOf u).text asDate) := by
  obtain ⟨hdate', _⟩ := DateTime.isValid_iff.mp hu
  obtain ⟨x, hamount, hx⟩ := amount?_int (unitCount_lt ht hu h)
  have hfound : Moment.ofMillis? (millisOf u) = some (momentOf u) :=
    Moment.ofMillis?_eq hdate' (show 0 ≤ (momentOf u).clock by simp only [momentOf]; omega) hclock
  simp only [sumCell, hdate, hamount, moved_eq ht hu h hx, hfound, Option.bind_eq_bind, Option.bind_some]

end TwinStore.Primary
