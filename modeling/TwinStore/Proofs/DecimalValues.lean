import Mathlib.Data.Nat.Cast.Field
import Mathlib.Data.Rat.Cast.Order
import TwinStore.Number.Decimal
import TwinStore.Proofs.ShortestDigits

/-!
# Values of decimal numbers

A finite decimal number stands for a rational number, and several of them for the same one.  What is
computed of a number depends on that rational number alone: whether it is integral, which double is
nearest to it, and how it compares with others.

Main definition:

- `Decimal.value?`: the rational number that a decimal number stands for.

Main results:

- Theorem `toInt?_of_integral`, `toInt?_of_fraction`: an integral number is found as integer.
- Theorem `toFloat_congr`: numbers of one value have one nearest double.
- Theorem `compare?_eq`, `compare?_congr`: finite numbers are ordered by value.
-/

namespace TwinStore.Number.Decimal

/-! ## Values -/

/-- The rational number that a finite decimal number stands for. -/
def value? : Decimal → Option ℚ
  | finite negative coefficient exponent =>
    some ((if negative then -1 else 1) * (coefficient * 10 ^ exponent))
  | _ => none

section

variable {negative : Bool} {coefficient : ℕ} {exponent n : ℤ}

/-- The size of a number is zero only with a zero coefficient. -/
theorem size_eq_zero_iff : (coefficient : ℚ) * 10 ^ exponent = 0 ↔ coefficient = 0 := by
  have hpow : (10 : ℚ) ^ exponent ≠ 0 := zpow_ne_zero _ (by norm_num)
  rw [mul_eq_zero_iff_right hpow, Nat.cast_eq_zero]

/-- The size of a number. -/
theorem abs_value : |(if negative then -1 else 1 : ℚ) * (coefficient * 10 ^ exponent)| =
    coefficient * 10 ^ exponent := by
  have hpos : (0 : ℚ) ≤ coefficient * 10 ^ exponent := by positivity
  rw [abs_mul, abs_of_nonneg hpos]
  split_ifs <;> simp

/-- A coefficient with the places before or behind the point made up for has the size of the
number. -/
theorem scaled_eq (hexponent : 0 ≤ exponent) :
    ((coefficient * 10 ^ exponent.toNat : ℕ) : ℚ) = coefficient * 10 ^ exponent := by
  rw [Nat.cast_mul, Nat.cast_pow, Nat.cast_ofNat, ← zpow_natCast, Int.toNat_of_nonneg hexponent]

/-- A coefficient with its last places cut off has the size of the number if they are zeros. -/
theorem cut_eq (hexponent : exponent < 0) (hdvd : 10 ^ exponent.natAbs ∣ coefficient) :
    ((coefficient / 10 ^ exponent.natAbs : ℕ) : ℚ) = coefficient * 10 ^ exponent := by
  have hpow : (10 : ℚ) ^ exponent = ((10 : ℚ) ^ exponent.natAbs)⁻¹ := by
    rw [← zpow_natCast, ← zpow_neg]
    congr 1
    omega
  rw [Nat.cast_div hdvd (by positivity), hpow, Nat.cast_pow, Nat.cast_ofNat, div_eq_mul_inv]

/-- The sign of a number in front of its size. -/
theorem signed_eq {m : ℕ} (h : (m : ℚ) = coefficient * 10 ^ exponent) :
    (if negative then -1 else 1 : ℚ) * (coefficient * 10 ^ exponent) =
      (if negative then -(m : ℤ) else m : ℤ) := by
  rw [← h]
  split_ifs <;> simp

/-- An integer has its value. -/
theorem value?_ofInt (n : ℤ) : (ofInt n).value? = some (n : ℚ) := by
  have hsize : ((n.natAbs : ℕ) : ℚ) = n.natAbs * 10 ^ (0 : ℤ) := by simp
  rw [ofInt, value?, signed_eq hsize]
  congr 2
  simp only [decide_eq_true_eq]
  omega

/-- A number with more places behind the point than digits is below one. -/
theorem value_lt_one (h : exponent + decimalLength coefficient ≤ 0) :
    (coefficient : ℚ) * 10 ^ exponent < 1 := by
  have hlt : (coefficient : ℚ) < 10 ^ decimalLength coefficient := by
    exact_mod_cast lt_pow_decimalLength coefficient
  calc (coefficient : ℚ) * 10 ^ exponent
      < 10 ^ decimalLength coefficient * 10 ^ exponent := by gcongr
    _ = 10 ^ (exponent + decimalLength coefficient) := by
      rw [add_comm, zpow_add₀ (by norm_num), zpow_natCast]
    _ ≤ 1 := zpow_le_one_of_nonpos₀ (by norm_num) h

/-- The last places of an integral number are zeros. -/
theorem dvd_of_integral {n : ℤ} (hexponent : exponent < 0)
    (hn : (coefficient : ℚ) * 10 ^ exponent = n.natAbs) : 10 ^ exponent.natAbs ∣ coefficient := by
  refine ⟨n.natAbs, ?_⟩
  have hpow : (10 : ℚ) ^ exponent.natAbs * 10 ^ exponent = 1 := by
    rw [← zpow_natCast, ← zpow_add₀ (by norm_num)]
    rw [show (exponent.natAbs : ℤ) + exponent = 0 by omega, zpow_zero]
  have hcast : (coefficient : ℚ) = 10 ^ exponent.natAbs * n.natAbs := by
    rw [← hn, mul_left_comm, hpow, mul_one]
  exact_mod_cast hcast

/-- An integral number that is written with a high power of ten is large. -/
theorem pow_le_natAbs {limit : ℕ} (hn : (finite negative coefficient exponent).value? = some (n : ℚ))
    (hhuge : coefficient ≠ 0 ∧ exponent > limit) : 10 ^ (limit + 1) ≤ n.natAbs := by
  have hscaled := @scaled_eq coefficient exponent (by omega)
  have hsize : (coefficient : ℚ) * 10 ^ exponent = n.natAbs := by
    rw [← @abs_value negative, Option.some.inj hn, Nat.cast_natAbs, Int.cast_abs]
  have hnat : n.natAbs = coefficient * 10 ^ exponent.toNat := by
    exact_mod_cast hsize.symm.trans hscaled.symm
  rw [hnat]
  calc 10 ^ (limit + 1)
      ≤ 10 ^ exponent.toNat := Nat.pow_le_pow_right (by decide) (by omega)
    _ ≤ coefficient * 10 ^ exponent.toNat :=
      Nat.le_mul_of_pos_left _ (Nat.pos_of_ne_zero hhuge.1)

/-- An integral number that is not written with too high a power of ten is found as integer. -/
theorem toInt?_of_integral {limit : ℕ} {n : ℤ}
    (hn : (finite negative coefficient exponent).value? = some (n : ℚ))
    (hlimit : ¬ (coefficient ≠ 0 ∧ exponent > limit)) :
    (finite negative coefficient exponent).toInt? limit = some n := by
  have hvalue := Option.some.inj hn
  have hfound {m : ℕ} (h : (m : ℚ) = coefficient * 10 ^ exponent) :
      (if negative then -(m : ℤ) else m) = n := by
    rw [signed_eq h] at hvalue
    exact_mod_cast hvalue
  have hsize : (coefficient : ℚ) * 10 ^ exponent = n.natAbs := by
    rw [← @abs_value negative, hvalue, Nat.cast_natAbs, Int.cast_abs]
  rw [toInt?]
  by_cases hzero : coefficient = 0
  · rw [if_pos hzero, ← hfound (m := 0) (by simp [hzero])]
    simp
  · rw [if_neg hzero]
    by_cases hexponent : exponent ≥ 0
    · rw [if_pos hexponent, if_neg (by tauto)]
      exact congrArg some (hfound (scaled_eq hexponent))
    · have hdvd := dvd_of_integral (not_le.mp hexponent) hsize
      have hplaces : ¬ exponent.natAbs > decimalLength coefficient := by
        intro hlong
        have hlt : ((n.natAbs : ℕ) : ℚ) < 1 := hsize ▸ value_lt_one (by omega)
        have hnone : n.natAbs = 0 := by
          have : n.natAbs < 1 := by exact_mod_cast hlt
          omega
        rw [hnone, Nat.cast_zero] at hsize
        exact hzero (size_eq_zero_iff.mp hsize)
      rw [if_neg hexponent, if_neg hplaces, if_pos (Nat.mod_eq_zero_of_dvd hdvd)]
      exact congrArg some (hfound (cut_eq (not_le.mp hexponent) hdvd))

/-- A number that is not integral is not found as integer. -/
theorem toInt?_of_fraction {limit : ℕ} {q : ℚ}
    (hq : (finite negative coefficient exponent).value? = some q) (hfraction : ∀ n : ℤ, q ≠ n) :
    (finite negative coefficient exponent).toInt? limit = none := by
  have hvalue := Option.some.inj hq
  have hnever {m : ℕ} : (m : ℚ) ≠ coefficient * 10 ^ exponent := fun h =>
    hfraction _ (hvalue.symm.trans (signed_eq h))
  rw [toInt?, if_neg fun hzero => hnever (m := 0) (by simp [hzero])]
  by_cases hexponent : exponent ≥ 0
  · exact absurd (scaled_eq hexponent) hnever
  · have hdvd : ¬ coefficient % 10 ^ exponent.natAbs = 0 := fun hdvd =>
      hnever (cut_eq (not_le.mp hexponent) (Nat.dvd_of_mod_eq_zero hdvd))
    rw [if_neg hexponent, if_neg hdvd, ite_self]

end

/-! ## Order -/

/-- Counts of one positive unit are ordered as the counts are. -/
theorem compare_scaled {a b : ℕ} {p q unit : ℚ} (hunit : 0 < unit) (hp : p = a * unit)
    (hq : q = b * unit) : compare a b = compare p q := by
  rw [hp, hq]
  rcases lt_trichotomy a b with h | rfl | h
  · have hlt : (a : ℚ) * unit < b * unit := by gcongr
    rw [compare_lt_iff_lt.mpr h, compare_lt_iff_lt.mpr hlt]
  · rw [compare_eq_iff_eq.mpr rfl, compare_eq_iff_eq.mpr rfl]
  · have hlt : (b : ℚ) * unit < a * unit := by gcongr
    rw [compare_gt_iff_gt.mpr h, compare_gt_iff_gt.mpr hlt]

/-- A number is a count of any lower power of ten. -/
theorem size_eq_scaled (c : ℕ) {e e' : ℤ} (h : e' ≤ e) :
    (c : ℚ) * 10 ^ e = ((c * 10 ^ (e - e').toNat : ℕ) : ℚ) * 10 ^ e' := by
  rw [Nat.cast_mul, Nat.cast_pow, Nat.cast_ofNat, ← zpow_natCast,
    Int.toNat_of_nonneg (by omega), mul_assoc, ← zpow_add₀ (by norm_num), sub_add_cancel]

/-- Positive numbers are ordered by size. -/
theorem compareMagnitude_eq {c₁ c₂ : ℕ} (e₁ e₂ : ℤ) (h₁ : 0 < c₁) (h₂ : 0 < c₂) :
    compareMagnitude c₁ e₁ c₂ e₂ = compare ((c₁ : ℚ) * 10 ^ e₁) (c₂ * 10 ^ e₂) := by
  have hbelow {c c' : ℕ} {e e' : ℤ} (hc : 0 < c) (hc' : 0 < c')
      (h : e + decimalLength c < e' + decimalLength c') : (c : ℚ) * 10 ^ e < c' * 10 ^ e' :=
    calc (c : ℚ) * 10 ^ e < 10 ^ (e + decimalLength c) := (Binary64.magnitude_bounds hc e).2
      _ ≤ 10 ^ (e' + decimalLength c' - 1) := zpow_le_zpow_right₀ (by norm_num) (by omega)
      _ ≤ c' * 10 ^ e' := (Binary64.magnitude_bounds hc' e').1
  have hunit (e : ℤ) : (0 : ℚ) < 10 ^ e := by positivity
  simp only [compareMagnitude]
  split_ifs with hlt hgt hge
  · rw [compare_lt_iff_lt.mpr (hbelow h₁ h₂ hlt)]
  · rw [compare_gt_iff_gt.mpr (hbelow h₂ h₁ hgt)]
  · exact compare_scaled (hunit e₂) (size_eq_scaled c₁ hge) rfl
  · exact compare_scaled (hunit e₁) rfl (size_eq_scaled c₂ (by omega))

/-- Negation turns the order around. -/
theorem compare_neg_neg (x y : ℚ) : compare (-x) (-y) = compare y x := by
  rcases lt_trichotomy x y with h | rfl | h
  · rw [compare_gt_iff_gt.mpr (neg_lt_neg h), compare_gt_iff_gt.mpr h]
  · rw [compare_eq_iff_eq.mpr rfl, compare_eq_iff_eq.mpr rfl]
  · rw [compare_lt_iff_lt.mpr (neg_lt_neg h), compare_lt_iff_lt.mpr h]

/-- Finite numbers are ordered by value. -/
theorem compare?_eq {d e : Decimal} {p q : ℚ} (hd : d.value? = some p) (he : e.value? = some q) :
    d.compare? e = some (compare p q) := by
  cases d with
  | finite n₁ c₁ e₁ =>
    cases e with
    | finite n₂ c₂ e₂ =>
      have hp := Option.some.inj hd
      have hq := Option.some.inj he
      have hzero {n : Bool} {c : ℕ} {e : ℤ} {r : ℚ} (hc : c = 0)
          (hr : (if n then -1 else 1 : ℚ) * (c * 10 ^ e) = r) : r = 0 := by simp [← hr, hc]
      have hsign {n : Bool} {c : ℕ} {e : ℤ} {r : ℚ} (hc : c ≠ 0)
          (hr : (if n then -1 else 1 : ℚ) * (c * 10 ^ e) = r) : if n then r < 0 else 0 < r := by
        have hpos : (0 : ℚ) < c * 10 ^ e := by positivity
        cases n <;> simp at hr ⊢ <;> linarith
      rw [compare?]
      by_cases h₁ : c₁ = 0
      · rw [hzero h₁ hp]
        by_cases h₂ : c₂ = 0
        · rw [if_pos ⟨h₁, h₂⟩, hzero h₂ hq, compare_eq_iff_eq.mpr rfl]
        · have hq := hsign h₂ hq
          rw [if_neg fun h => h₂ h.2, if_pos h₁]
          cases n₂
          · exact congrArg some (compare_lt_iff_lt.mpr hq).symm
          · exact congrArg some (compare_gt_iff_gt.mpr hq).symm
      · have hp' := hsign h₁ hp
        rw [if_neg fun h => h₁ h.1, if_neg h₁]
        by_cases h₂ : c₂ = 0
        · rw [if_pos h₂, hzero h₂ hq]
          cases n₁
          · exact congrArg some (compare_gt_iff_gt.mpr hp').symm
          · exact congrArg some (compare_lt_iff_lt.mpr hp').symm
        · have hq' := hsign h₂ hq
          have hc₁ := Nat.pos_of_ne_zero h₁
          have hc₂ := Nat.pos_of_ne_zero h₂
          rw [if_neg h₂]
          cases n₁ <;> cases n₂
          · simp only [Bool.false_eq_true, if_false, one_mul] at hp hq
            simp [compareMagnitude_eq e₁ e₂ hc₁ hc₂, hp, hq]
          · exact congrArg some (compare_gt_iff_gt.mpr (hq'.trans hp')).symm
          · exact congrArg some (compare_lt_iff_lt.mpr (hp'.trans hq')).symm
          · simp only [if_true, neg_one_mul] at hp hq
            simp [compareMagnitude_eq e₂ e₁ hc₂ hc₁, ← hp, ← hq, compare_neg_neg]
    | _ => cases he
  | _ => cases hd

/-- Numbers of one value are ordered alike with every other. -/
theorem compare?_congr {d e : Decimal} {q : ℚ} (hd : d.value? = some q) (he : e.value? = some q)
    (other : Decimal) : d.compare? other = e.compare? other := by
  cases d with
  | finite _ _ _ =>
    cases e with
    | finite _ _ _ =>
      cases other with
      | finite _ _ _ => rw [compare?_eq hd rfl, compare?_eq he rfl]
      | _ => rfl
    | _ => cases he
  | _ => cases hd

/-- A number that has a value is not signalling. -/
theorem isSignaling_of_value? {d : Decimal} {q : ℚ} (hd : d.value? = some q) :
    d.isSignaling = false := by
  cases d with
  | finite _ _ _ => rfl
  | _ => cases hd

/-! ## Doubles -/

/-- Numbers of one value other than zero have one nearest double. -/
theorem toFloat_congr {d e : Decimal} {q : ℚ} (hq : q ≠ 0) (hd : d.value? = some q)
    (he : e.value? = some q) : d.toFloat = e.toFloat := by
  cases d with
  | finite negative coefficient exponent =>
    cases e with
    | finite negative' coefficient' exponent' =>
      have hvalue := Option.some.inj hd
      have hvalue' := Option.some.inj he
      have hsize : (coefficient : ℚ) * 10 ^ exponent = coefficient' * 10 ^ exponent' := by
        rw [← @abs_value negative, hvalue, ← hvalue', abs_value]
      have hpos : (coefficient : ℚ) * 10 ^ exponent ≠ 0 := by
        intro hzero
        rw [hzero, mul_zero] at hvalue
        exact hq hvalue.symm
      have hsign : negative = negative' := by
        rw [← hvalue', ← hsize] at hvalue
        have hsigns := mul_right_cancel₀ hpos hvalue
        cases negative <;> cases negative' <;> first | rfl | (norm_num at hsigns)
      rw [toFloat, toFloat, hsign]
      exact Binary64.ofDecimal_congr negative' hsize
    | _ => cases he
  | _ => cases hd

end TwinStore.Number.Decimal
