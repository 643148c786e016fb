import TwinStore.Proofs.DecimalValues
import TwinStore.Proofs.DoubleArithmetic

/-!
# The order of rounded numbers

The nearest doubles of two numbers stand in the order of the numbers, or are the same.  So two decimal
numbers compare like their nearest doubles, unless different ones share a double.

Main definitions:

- `Binary64.Rounds`: the nearest multiple of the power of two that fits a number.
- `Binary64.HasLevel`, `Decimal.HasLevel`: the number that a double, or what is stored of one, stands
  for; infinities stand for the bound of all doubles.

Main results:

- Theorem `Binary64.Rounds.mono`: rounding keeps the order.
- Theorem `Decimal.HasLevel.compare?_eq`: numbers compare like what they stand for.
- Theorem `Decimal.compare?_toFloat`: decimal numbers compare like their nearest doubles.
-/

namespace TwinStore.Number

/-! ## Nearest natural numbers -/

/-- Larger numbers have larger nearest natural numbers. -/
theorem IsNearest.mono {m n : ℕ} {v w : ℚ} (hm : IsNearest m v) (hn : IsNearest n w) (h : v ≤ w) :
    m ≤ n := by
  by_contra hlt
  have hnext : (n : ℚ) + 1 ≤ m := by exact_mod_cast (show n + 1 ≤ m by omega)
  rcases hm.1 with hbelow | ⟨hbelow, heven⟩
  · rcases hn.2 with habove | ⟨habove, _⟩ <;> linarith
  · rcases hn.2 with habove | ⟨habove, heven'⟩
    · linarith
    · have hsucc : (m : ℚ) = ((n + 1 : ℕ) : ℚ) := by push_cast; linarith
      have := Nat.cast_injective hsucc
      omega

/-- A natural number is the nearest to itself. -/
theorem isNearest_natCast (n : ℕ) : IsNearest n n :=
  ⟨Or.inl (by linarith), Or.inl (by linarith)⟩

namespace Binary64

/-! ## Rounding -/

/-- Whether a number is the nearest to another one among the multiples of the power of two that fits
its size. -/
def Rounds (v r : ℚ) : Prop :=
  ∃ n, IsNearest n (v / 2 ^ gridExponent v) ∧ r = n * 2 ^ gridExponent v

section

variable {v w r s : ℚ}

/-- Larger numbers are rounded to multiples of larger powers. -/
theorem gridExponent_mono (hv : 0 < v) (h : v ≤ w) : gridExponent v ≤ gridExponent w :=
  max_le_max (sub_le_sub_right (Int.log_mono_right hv h) 52) le_rfl

/-- The multiples are no more than 53 binary digits long. -/
theorem lt_pow_gridExponent (v : ℚ) : v < 2 ^ (gridExponent v + 53) := by
  have hlog : v < (2 : ℕ) ^ (Int.log 2 v + 1) := Int.lt_zpow_succ_log_self (by decide) v
  refine hlog.trans_le (zpow_le_zpow_right₀ one_le_two ?_)
  have := le_max_left (Int.log 2 v - 52) (-1074)
  unfold gridExponent
  omega

/-- A positive number of a power of two that is not the smallest fills 53 binary digits. -/
theorem pow_gridExponent_le (hv : 0 < v) (h : -1074 < gridExponent v) :
    2 ^ (gridExponent v + 52) ≤ v := by
  rw [← le_log_iff hv]
  unfold gridExponent at h ⊢
  omega

theorem Rounds.nonneg (h : Rounds v r) : 0 ≤ r := by
  obtain ⟨n, -, rfl⟩ := h
  positivity

/-- Zero is rounded to zero. -/
theorem Rounds.eq_zero (h : Rounds 0 r) : r = 0 := by
  obtain ⟨n, hn, rfl⟩ := h
  rw [zero_div] at hn
  obtain rfl : n = 0 := hn.unique (by exact_mod_cast isNearest_natCast 0)
  rw [Nat.cast_zero, zero_mul]

/-- A number that is not negative is rounded. -/
theorem exists_rounds (hv : 0 ≤ v) : ∃ r, Rounds v r := by
  rcases hv.eq_or_lt with rfl | hv
  · exact ⟨_, 0, by rw [zero_div]; exact_mod_cast isNearest_natCast 0, rfl⟩
  · have hquot : ((v.num.natAbs : ℕ) : ℚ) / v.den = v := by
      have hnum : ((v.num.natAbs : ℕ) : ℚ) = (v.num : ℚ) := by
        have := Rat.num_pos.mpr hv
        rw [Nat.cast_natAbs, abs_of_pos this]
      rw [hnum, Rat.num_div_den]
    obtain ⟨n, hn⟩ := exists_isNearest (Int.natAbs_pos.mpr (Rat.num_pos.mpr hv).ne') v.den_pos
      (gridExponent v)
    rw [hquot] at hn
    exact ⟨_, n, hn, rfl⟩

/-- A multiple that is rounded to has no more than 53 binary digits, and no fewer unless the power of
two is the smallest. -/
theorem bounds_of_isNearest {n : ℕ} (hv : 0 < v) (hn : IsNearest n (v / 2 ^ gridExponent v)) :
    n ≤ 2 ^ 53 ∧ (2 ^ 52 ≤ n ∨ gridExponent v = -1074) := by
  have hpow : (0 : ℚ) < 2 ^ gridExponent v := zpow_pos two_pos _
  have hcast (k : ℕ) : ((2 ^ k : ℕ) : ℚ) = 2 ^ (k : ℤ) := by rw [Nat.cast_pow, zpow_natCast]; rfl
  constructor
  · refine hn.mono (isNearest_natCast (2 ^ 53)) ?_
    rw [div_le_iff₀ hpow, hcast, ← zpow_add₀ two_ne_zero, add_comm]
    exact (lt_pow_gridExponent v).le
  · refine or_iff_not_imp_right.mpr fun hne => (isNearest_natCast (2 ^ 52)).mono hn ?_
    have hmin : -1074 ≤ gridExponent v := le_max_right _ _
    rw [le_div_iff₀ hpow, hcast, ← zpow_add₀ two_ne_zero, add_comm]
    exact pow_gridExponent_le hv (by omega)

/-- Rounding keeps the order.  On the grid of one power of two that is so for the nearest multiples;
between two grids lies a power of two that both have. -/
theorem Rounds.mono (hr : Rounds v r) (hs : Rounds w s) (hv : 0 ≤ v) (h : v ≤ w) : r ≤ s := by
  rcases hv.eq_or_lt with rfl | hv
  · rw [hr.eq_zero]
    exact hs.nonneg
  have hw : 0 < w := hv.trans_le h
  obtain ⟨n, hn, rfl⟩ := hr
  obtain ⟨m, hm, rfl⟩ := hs
  rcases (gridExponent_mono hv h).eq_or_lt with heq | hlt
  · rw [heq] at hn ⊢
    have hle : n ≤ m := hn.mono hm (by gcongr)
    gcongr
  · have hmin : -1074 ≤ gridExponent v := le_max_right _ _
    have hfew : (n : ℚ) ≤ 2 ^ (53 : ℤ) := by exact_mod_cast (bounds_of_isNearest hv hn).1
    have hmany : (2 : ℚ) ^ (52 : ℤ) ≤ m := by
      exact_mod_cast (bounds_of_isNearest hw hm).2.resolve_right (by omega)
    calc (n : ℚ) * 2 ^ gridExponent v ≤ 2 ^ (53 : ℤ) * 2 ^ gridExponent v := by gcongr
      _ = 2 ^ (gridExponent v + 53) := by rw [← zpow_add₀ two_ne_zero, add_comm]
      _ ≤ 2 ^ (gridExponent w + 52) := zpow_le_zpow_right₀ one_le_two (by omega)
      _ = 2 ^ (52 : ℤ) * 2 ^ gridExponent w := by rw [← zpow_add₀ two_ne_zero, add_comm]
      _ ≤ m * 2 ^ gridExponent w := by gcongr

/-- What is far below the smallest double is rounded to zero. -/
theorem rounds_tiny : Rounds (2 ^ (-1076 : ℤ)) 0 := by
  have hlog : Int.log 2 ((2 : ℚ) ^ (-1076 : ℤ)) = -1076 := by
    exact_mod_cast Int.log_zpow (R := ℚ) (b := 2) (by decide) (-1076)
  have hexponent : gridExponent ((2 : ℚ) ^ (-1076 : ℤ)) = -1074 := by
    rw [gridExponent, hlog]
    rfl
  refine ⟨0, ?_, by rw [Nat.cast_zero, zero_mul]⟩
  rw [hexponent, ← zpow_sub₀ two_ne_zero]
  norm_num [IsNearest]

/-- A power of two is rounded to itself. -/
theorem rounds_pow {k : ℤ} (hk : -1022 ≤ k) : Rounds (2 ^ k) (2 ^ k) := by
  have hexponent : gridExponent ((2 : ℚ) ^ k) = k - 52 := by
    have hlog : Int.log 2 ((2 : ℚ) ^ k) = k := by
      exact_mod_cast Int.log_zpow (R := ℚ) (b := 2) (by decide) k
    rw [gridExponent, hlog, max_eq_left (by omega)]
  have hsplit : (2 : ℚ) ^ k = ((2 ^ 52 : ℕ) : ℚ) * 2 ^ (k - 52) := by
    rw [Nat.cast_pow, Nat.cast_ofNat, ← zpow_natCast, ← zpow_add₀ two_ne_zero]
    congr 1
    omega
  refine ⟨2 ^ 52, ?_, by rw [hexponent]; exact hsplit⟩
  rw [hexponent, (div_eq_iff (zpow_ne_zero _ two_ne_zero)).mpr hsplit]
  exact isNearest_natCast _

end

/-! ## Levels of doubles -/

/-- The bound of all doubles. -/
def bound : ℚ := 2 ^ (1024 : ℤ)

theorem bound_pos : 0 < bound := zpow_pos two_pos _

theorem bound_eq (k : ℤ) : bound = 2 ^ k * 2 ^ (1024 - k) := by
  rw [bound, ← zpow_add₀ two_ne_zero, add_sub_cancel]

/-- A sign as a factor. -/
def signOf (negative : Bool) : ℚ := if negative then -1 else 1

/-- The number that a double stands for; infinities stand for the bound of all doubles. -/
inductive HasLevel : Float → ℚ → Prop
  | finite {x : Float} {q : ℚ} (h : value? x = some q) : HasLevel x q
  | infinite (negative : Bool) : HasLevel (infinity negative) (signOf negative * bound)

theorem scaled?_infinity (negative : Bool) : scaled? (infinity negative) = none := by
  cases negative <;> decide +kernel

/-- A double that stands for something is a number. -/
theorem HasLevel.isNaN_eq_false {x : Float} {q : ℚ} (h : HasLevel x q) : x.isNaN = false := by
  cases h with
  | finite h =>
    obtain ⟨_, hunpack, _⟩ | ⟨_, _, _, _, hunpack, _⟩ := (hasValue_unpack h).cases
    all_goals
      show x.toModel.unpack.isNaN = false
      rw [hunpack]
      rfl
  | infinite negative => cases negative <;> decide +kernel

/-- Numbers of doubles lie below the bound. -/
theorem abs_lt_of_value? {x : Float} {q : ℚ} (h : value? x = some q) : |q| < bound := by
  obtain ⟨s, hs, rfl⟩ := Option.map_eq_some_iff.mp h
  by_cases hzero : s.mantissa = 0
  · rw [Scaled.value, hzero, Int.cast_zero, zero_mul, abs_zero]
    exact bound_pos
  · obtain ⟨hgrid, hmax⟩ := onGrid_of_scaled? hs hzero
    have hlt : ((s.mantissa.natAbs : ℕ) : ℚ) < 2 ^ (53 : ℤ) := by exact_mod_cast hgrid.lt
    have hpow : (0 : ℚ) < 2 ^ s.exponent := zpow_pos two_pos _
    calc |s.value| = (s.mantissa.natAbs : ℕ) * 2 ^ s.exponent := by
          rw [Scaled.value, abs_mul, abs_of_pos hpow, Nat.cast_natAbs, Int.cast_abs]
      _ < 2 ^ (53 : ℤ) * 2 ^ s.exponent := by gcongr
      _ ≤ 2 ^ (53 : ℤ) * 2 ^ (971 : ℤ) := by
          gcongr
          exact one_le_two
      _ = bound := (bound_eq 53).symm

/-- The double of a multiple that is rounded to stands for it, unless it is beyond the bound. -/
theorem hasLevel_encode (negative : Bool) {n : ℕ} {e : ℤ} (hn : n ≤ 2 ^ 53)
    (hfull : 2 ^ 52 ≤ n ∨ e = -1074) (he : -1074 ≤ e) :
    HasLevel (encode negative n e) (signOf negative * min ((n : ℚ) * 2 ^ e) bound) := by
  wlog hlt : n < 2 ^ 53 generalizing n e
  · obtain rfl := le_antisymm hn (not_lt.mp hlt)
    have hcarry := encode_carry negative (show -1074 < e + 1 by omega)
    rw [add_sub_cancel_right] at hcarry
    have hvalue : ((2 ^ 53 : ℕ) : ℚ) * 2 ^ e = ((2 ^ 52 : ℕ) : ℚ) * (2 : ℚ) ^ (e + 1) := by
      rw [zpow_add₀ (two_ne_zero' ℚ), zpow_one, pow_succ, Nat.cast_mul]
      push_cast
      ring
    rw [hcarry, hvalue]
    exact this (by norm_num) (Or.inl le_rfl) (by omega) (by norm_num)
  rcases Nat.eq_zero_or_pos n with rfl | hpos
  · obtain rfl : e = -1074 := hfull.resolve_left (by norm_num)
    have hscaled : scaled? (encode negative 0 (-1074)) = some ⟨0, -1074⟩ := by
      cases negative <;> decide +kernel
    rw [Nat.cast_zero, zero_mul, min_eq_left bound_pos.le, mul_zero]
    refine .finite ?_
    rw [value?, hscaled]
    simp [Scaled.value]
  · by_cases hmax : e ≤ 971
    · have hvalue : value? (encode negative n e) = some (signOf negative * (n * 2 ^ e)) := by
        rw [value?, scaled?_encode negative ⟨hpos, hlt, he, hfull⟩ hmax]
        cases negative <;> simp [Scaled.value, signOf]
      have hbelow : (n : ℚ) * 2 ^ e ≤ bound := by
        have hlevel := abs_lt_of_value? hvalue
        rw [abs_mul, abs_of_nonneg (by positivity : (0 : ℚ) ≤ n * 2 ^ e)] at hlevel
        have hsign : |signOf negative| = 1 := by cases negative <;> simp [signOf]
        rw [hsign, one_mul] at hlevel
        exact hlevel.le
      rw [min_eq_left hbelow]
      exact .finite hvalue
    · have hlarge : bound ≤ n * 2 ^ e := by
        have hmany : (2 : ℚ) ^ (52 : ℤ) ≤ n := by exact_mod_cast hfull.resolve_right (by omega)
        calc bound = 2 ^ (52 : ℤ) * 2 ^ (972 : ℤ) := bound_eq 52
          _ ≤ n * 2 ^ e := by
              gcongr
              · exact one_le_two
              · omega
      have hinfinity : encode negative n e = infinity negative := by
        have hfield : ¬ n < 2 ^ 52 := by omega
        have hbits : 0x7ff * 2 ^ 52 ≤ (e + 1075).toNat * 2 ^ 52 + (n - 2 ^ 52) := by omega
        rw [encode]
        simp only [if_neg hfield]
        rw [if_pos hbits]
      rw [hinfinity, min_eq_right hlarge]
      exact .infinite negative

/-- A quotient makes the double of what it is rounded to. -/
theorem exists_rounds_ofRatio (negative : Bool) {num den : ℕ} (hnum : 0 < num) (hden : 0 < den) :
    ∃ r, Rounds ((num : ℚ) / den) r ∧
      HasLevel (ofRatio negative num den) (signOf negative * min r bound) := by
  have hquot : (0 : ℚ) < (num : ℚ) / den := div_pos (by exact_mod_cast hnum) (by exact_mod_cast hden)
  obtain ⟨n, hn⟩ := exists_isNearest hnum hden (gridExponent ((num : ℚ) / den))
  obtain ⟨hfew, hfull⟩ := bounds_of_isNearest hquot hn
  refine ⟨_, ⟨n, hn, rfl⟩, ?_⟩
  rw [ofRatio_eq hnum hden negative hn]
  exact hasLevel_encode negative hfew hfull (le_max_right _ _)

/-- Zero makes the double zero, with its sign. -/
theorem hasLevel_ofRatio_zero (negative : Bool) : HasLevel (ofRatio negative 0 1) 0 := by
  have hvalue := value?_ofRatio negative 0 one_pos (Or.inl (by simp))
  rw [Nat.cast_zero, zero_div, mul_zero] at hvalue
  exact .finite hvalue

/-- A decimal number makes the double of what its size is rounded to; beyond the powers of ten that
are computed, that is zero or out of bound. -/
theorem exists_rounds_ofDecimal (negative : Bool) (c : ℕ) (k : ℤ) :
    ∃ r, Rounds (c * 10 ^ k) r ∧
      HasLevel (ofDecimal negative c k) (signOf negative * min r bound) := by
  obtain ⟨r, hr⟩ := exists_rounds (show (0 : ℚ) ≤ c * 10 ^ k by positivity)
  have hnone (hzero : r = 0) :
      HasLevel (ofRatio negative 0 1) (signOf negative * min r bound) := by
    rw [hzero, min_eq_left bound_pos.le, mul_zero]
    exact hasLevel_ofRatio_zero negative
  rcases Nat.eq_zero_or_pos c with rfl | hc
  · rw [ofDecimal, if_pos rfl]
    rw [Nat.cast_zero, zero_mul] at hr
    exact ⟨r, by rwa [Nat.cast_zero, zero_mul], hnone hr.eq_zero⟩
  obtain ⟨hlow, hhigh⟩ := magnitude_bounds hc k
  by_cases hsize : -400 ≤ k + decimalLength c ∧ k + decimalLength c ≤ 400
  · obtain ⟨num, den, hden, hquot, heq⟩ := exists_ofDecimal_eq negative hc hsize.1 hsize.2
    have hnum : 0 < num := by
      rw [Nat.pos_iff_ne_zero]
      rintro rfl
      rw [Nat.cast_zero, zero_div] at hquot
      exact absurd hquot.symm (by positivity)
    obtain ⟨r, hr, hlevel⟩ := exists_rounds_ofRatio negative hnum hden
    exact ⟨r, hquot ▸ hr, heq ▸ hlevel⟩
  · refine ⟨r, hr, ?_⟩
    rw [ofDecimal, if_neg hc.ne']
    simp only
    by_cases hlarge : k + decimalLength c > 400
    · have hbeyond : bound ≤ c * 10 ^ k := by
        calc bound ≤ 2 ^ (3 * (400 : ℕ) : ℤ) := zpow_le_zpow_right₀ one_le_two (by norm_num)
          _ ≤ 10 ^ ((400 : ℕ) : ℤ) := two_zpow_le 400
          _ ≤ 10 ^ (k + decimalLength c - 1) := zpow_le_zpow_right₀ (by norm_num) (by omega)
          _ ≤ c * 10 ^ k := hlow
      have hrounds : Rounds bound bound := rounds_pow (by norm_num)
      rw [if_pos hlarge, min_eq_right (hrounds.mono hr bound_pos.le hbeyond)]
      exact .infinite negative
    · have hbeyond : (c : ℚ) * 10 ^ k ≤ 2 ^ (-1076 : ℤ) := by
        calc (c : ℚ) * 10 ^ k ≤ 10 ^ (k + decimalLength c) := hhigh.le
          _ ≤ 10 ^ (-((400 : ℕ) : ℤ)) := zpow_le_zpow_right₀ (by norm_num) (by omega)
          _ = (10 ^ ((400 : ℕ) : ℤ))⁻¹ := zpow_neg _ _
          _ ≤ (2 ^ (3 * (400 : ℕ) : ℤ))⁻¹ := inv_anti₀ (by positivity) (two_zpow_le 400)
          _ = 2 ^ (-(3 * (400 : ℕ) : ℤ)) := (zpow_neg _ _).symm
          _ ≤ 2 ^ (-1076 : ℤ) := zpow_le_zpow_right₀ one_le_two (by norm_num)
      rw [if_neg hlarge, if_pos (by omega)]
      exact hnone (le_antisymm (hr.mono rounds_tiny (by positivity) hbeyond) hr.nonneg)

end Binary64

/-! ## Decimal numbers -/

namespace Decimal

open Binary64

/-- The exact value of a double is its number. -/
theorem value?_ofFloat {x : Float} {q : ℚ} (h : Binary64.value? x = some q) :
    (ofFloat x).value? = some q := by
  obtain ⟨s, hs, rfl⟩ := Option.map_eq_some_iff.mp h
  rw [ofFloat, hs]
  simp only [ofScaled, Scaled.value]
  have hsigned : (if decide (s.mantissa < 0) then -1 else 1 : ℚ) * (s.mantissa.natAbs : ℕ) =
      s.mantissa := by
    rw [Nat.cast_natAbs, Int.cast_abs]
    by_cases hneg : s.mantissa < 0
    · rw [decide_eq_true hneg, if_pos rfl, abs_of_neg (by exact_mod_cast hneg)]
      ring
    · rw [decide_eq_false hneg, if_neg Bool.false_ne_true,
        abs_of_nonneg (by exact_mod_cast not_lt.mp hneg), one_mul]
  split_ifs with he
  · have hten : (5 : ℚ) ^ s.exponent.natAbs * 10 ^ s.exponent = 2 ^ s.exponent := by
      rw [show (10 : ℚ) = 5 * 2 by norm_num, mul_zpow, ← mul_assoc, ← zpow_natCast,
        ← zpow_add₀ (by norm_num), show (s.exponent.natAbs : ℤ) + s.exponent = 0 by omega, zpow_zero,
        one_mul]
    rw [value?]
    push_cast
    rw [mul_assoc ((s.mantissa.natAbs : ℕ) : ℚ), hten, ← mul_assoc, hsigned]
  · have htwo : (2 : ℚ) ^ s.exponent.natAbs = 2 ^ s.exponent := by
      rw [← zpow_natCast]
      congr 1
      omega
    rw [value?, zpow_zero, mul_one]
    push_cast
    rw [htwo, ← mul_assoc, hsigned]

/-- The number that a decimal number of the size of doubles stands for; infinities stand for the bound
of all doubles. -/
inductive HasLevel : Decimal → ℚ → Prop
  | finite {d : Decimal} {q : ℚ} (h : d.value? = some q) (hq : |q| < bound) : HasLevel d q
  | infinite (negative : Bool) : HasLevel (.infinity negative) (signOf negative * bound)

/-- A number lies between the infinities. -/
theorem compare?_infinity {d : Decimal} {q : ℚ} (h : d.value? = some q) (hq : |q| < bound)
    (negative : Bool) :
    d.compare? (.infinity negative) = some (compare q (signOf negative * bound)) ∧
      (infinity negative).compare? d = some (compare (signOf negative * bound) q) := by
  obtain ⟨hlow, hhigh⟩ := abs_lt.mp hq
  cases d with
  | finite _ _ _ =>
    cases negative
    · rw [signOf, if_neg Bool.false_ne_true, one_mul, compare_lt_iff_lt.mpr hhigh,
        compare_gt_iff_gt.mpr hhigh]
      exact ⟨rfl, rfl⟩
    · rw [signOf, if_pos rfl, neg_one_mul, compare_gt_iff_gt.mpr hlow, compare_lt_iff_lt.mpr hlow]
      exact ⟨rfl, rfl⟩
  | _ => cases h

/-- Infinities stand in their order. -/
theorem compare?_infinities (negative negative' : Bool) :
    (infinity negative).compare? (.infinity negative') =
      some (compare (signOf negative * bound) (signOf negative' * bound)) := by
  have hbound : -bound < bound := neg_lt_self bound_pos
  cases negative <;> cases negative' <;>
    simp only [signOf, Bool.false_eq_true, if_true, if_false, one_mul, neg_one_mul]
  · rw [compare_eq_iff_eq.mpr rfl]
    rfl
  · rw [compare_gt_iff_gt.mpr hbound]
    rfl
  · rw [compare_lt_iff_lt.mpr hbound]
    rfl
  · rw [compare_eq_iff_eq.mpr rfl]
    rfl

/-- Numbers compare like what they stand for. -/
theorem HasLevel.compare?_eq {d e : Decimal} {p q : ℚ} (hd : HasLevel d p) (he : HasLevel e q) :
    d.compare? e = some (compare p q) := by
  cases hd with
  | finite hd hp =>
    cases he with
    | finite he _ => exact Decimal.compare?_eq hd he
    | infinite negative => exact (compare?_infinity hd hp negative).1
  | infinite negative =>
    cases he with
    | finite he hq => exact (compare?_infinity he hq negative).2
    | infinite negative' => exact compare?_infinities negative negative'

theorem ofFloat_infinity (negative : Bool) :
    ofFloat (Binary64.infinity negative) = .infinity negative := by
  cases negative <;> decide +kernel

/-- The exact value of a double stands for what the double does. -/
theorem hasLevel_ofFloat {x : Float} {q : ℚ} (h : Binary64.HasLevel x q) : HasLevel (ofFloat x) q := by
  cases h with
  | finite h => exact .finite (value?_ofFloat h) (abs_lt_of_value? h)
  | infinite negative =>
    rw [ofFloat_infinity]
    exact .infinite negative

/-- What a number becomes whose size is rounded: it keeps its sign, and stays within the bound of all
doubles. -/
def bounded (q r : ℚ) : ℚ := if 0 ≤ q then min r bound else -min r bound

/-- A decimal number makes the double of what its size is rounded to. -/
theorem exists_rounds_toFloat {d : Decimal} {q : ℚ} (h : d.value? = some q) :
    ∃ r, Rounds |q| r ∧ Binary64.HasLevel d.toFloat (bounded q r) := by
  cases d with
  | finite negative c k =>
    obtain ⟨r, hr, hlevel⟩ := exists_rounds_ofDecimal negative c k
    have hvalue := Option.some.inj h
    have hsize : |q| = c * 10 ^ k := by rw [← hvalue, abs_value]
    refine ⟨r, hsize ▸ hr, ?_⟩
    rw [toFloat]
    convert hlevel using 1
    by_cases hzero : q = 0
    · rw [hzero, abs_zero] at hsize
      rw [← hsize] at hr
      rw [bounded, hzero, if_pos le_rfl, hr.eq_zero, min_eq_left bound_pos.le, mul_zero]
    · have hpos : (0 : ℚ) < c * 10 ^ k := hsize ▸ abs_pos.mpr hzero
      cases negative
      · rw [bounded, ← hvalue, if_neg Bool.false_ne_true, one_mul, if_pos hpos.le, signOf,
          if_neg Bool.false_ne_true, one_mul]
      · rw [bounded, ← hvalue, if_pos rfl, neg_one_mul, if_neg (by linarith), signOf, if_pos rfl,
          neg_one_mul]
  | _ => cases h

/-- Rounding keeps the order of numbers with a sign. -/
theorem bounded_mono {p q r s : ℚ} (hr : Rounds |p| r) (hs : Rounds |q| s) (h : p ≤ q) :
    bounded p r ≤ bounded q s := by
  rw [bounded, bounded]
  by_cases hp : 0 ≤ p
  · have hq := hp.trans h
    rw [abs_of_nonneg hp] at hr
    rw [abs_of_nonneg hq] at hs
    rw [if_pos hp, if_pos hq]
    exact min_le_min_right _ (hr.mono hs hp h)
  · rw [if_neg hp]
    by_cases hq : 0 ≤ q
    · rw [if_pos hq]
      exact (neg_nonpos.mpr (le_min hr.nonneg bound_pos.le)).trans (le_min hs.nonneg bound_pos.le)
    · rw [not_le] at hp hq
      rw [abs_of_neg hp] at hr
      rw [abs_of_neg hq] at hs
      rw [if_neg hq.not_ge]
      exact neg_le_neg (min_le_min_right _ (hs.mono hr (by linarith) (by linarith)))

/-- A decimal number compares with another one like their nearest doubles, unless the two have
different values and one double. -/
theorem compare?_toFloat {d e : Decimal} {p q : ℚ} (hd : d.value? = some p) (he : e.value? = some q)
    (h : (ofFloat d.toFloat).compare? (ofFloat e.toFloat) = some .eq → p = q) :
    d.compare? e = (ofFloat d.toFloat).compare? (ofFloat e.toFloat) := by
  obtain ⟨r, hr, hdouble⟩ := exists_rounds_toFloat hd
  obtain ⟨s, hs, hdouble'⟩ := exists_rounds_toFloat he
  rw [(hasLevel_ofFloat hdouble).compare?_eq (hasLevel_ofFloat hdouble')] at h ⊢
  rw [compare?_eq hd he]
  rcases lt_trichotomy p q with hlt | heq | hgt
  · have hne : bounded p r ≠ bounded q s := fun heq =>
      hlt.ne (h (congrArg some (compare_eq_iff_eq.mpr heq)))
    rw [compare_lt_iff_lt.mpr hlt, compare_lt_iff_lt.mpr ((bounded_mono hr hs hlt.le).lt_of_ne hne)]
  · rw [compare_eq_iff_eq.mpr heq, compare_eq_iff_eq.mpr
      (le_antisymm (bounded_mono hr hs heq.le) (bounded_mono hs hr heq.ge))]
  · have hne : bounded q s ≠ bounded p r := fun heq =>
      hgt.ne (h (congrArg some (compare_eq_iff_eq.mpr heq.symm))).symm
    rw [compare_gt_iff_gt.mpr hgt, compare_gt_iff_gt.mpr ((bounded_mono hs hr hgt.le).lt_of_ne hne)]

end Decimal

end TwinStore.Number
