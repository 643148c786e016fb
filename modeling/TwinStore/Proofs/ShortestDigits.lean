import TwinStore.Proofs.Digits
import TwinStore.Proofs.Doubles

/-!
# The shortest digits of a double

The chosen digits of a finite double lie in the interval of the numbers that round to it, so they
read back as the same double.  That digits are found at all follows from the width of the interval:
on the grid with 17 digits the point nearest to the double is closer than any end.

Main results:

- Theorem `Binary64.pow_decimalPoint_le`: the power of ten below the estimated place of the first
  digit is not above the number.
- Theorem `Binary64.shortestDigits_roundsTo`: the chosen digits round to the double.
-/

namespace TwinStore.Number.Binary64

/-! ## The place of the first digit -/

/-- Between two fractions that bound the decimal logarithm of two lies an estimate of a decimal
length. -/
theorem pow_estimate_le {p q : ℕ} (hp : 0 < p) (hq : 10 ^ q ≤ 2 ^ p) (hq' : 2 ^ p ≤ 10 ^ (q + 1))
    {l : ℤ} (hl : -p ≤ l) : (10 : ℚ) ^ (l * q / p - 1) ≤ 2 ^ l := by
  have hq : (10 : ℚ) ^ q ≤ 2 ^ p := by exact_mod_cast hq
  have hq' : (2 : ℚ) ^ p ≤ 10 ^ (q + 1) := by exact_mod_cast hq'
  have hpowers : (10 : ℚ) ^ (l * q - p) ≤ 2 ^ (l * p) := by
    rcases le_total 0 l with hnonneg | hneg
    · obtain ⟨k, rfl⟩ := Int.eq_ofNat_of_zero_le hnonneg
      calc (10 : ℚ) ^ ((k : ℤ) * q - p) ≤ 10 ^ ((q * k : ℕ) : ℤ) := by
            refine zpow_le_zpow_right₀ (by norm_num) ?_
            push_cast
            linarith [mul_comm (k : ℤ) q]
        _ = (10 ^ q) ^ k := by rw [zpow_natCast, pow_mul]
        _ ≤ (2 ^ p) ^ k := by gcongr
        _ = 2 ^ ((k : ℤ) * p) := by rw [← pow_mul, ← zpow_natCast, Nat.cast_mul, mul_comm (p : ℤ)]
    · obtain ⟨k, hk⟩ := Int.eq_ofNat_of_zero_le (neg_nonneg.mpr hneg)
      obtain rfl : l = -k := by omega
      calc (10 : ℚ) ^ (-(k : ℤ) * q - p) ≤ 10 ^ (-(((q + 1) * k : ℕ) : ℤ)) := by
            refine zpow_le_zpow_right₀ (by norm_num) ?_
            push_cast
            linarith [mul_comm (k : ℤ) q]
        _ = ((10 ^ (q + 1)) ^ k)⁻¹ := by rw [zpow_neg, zpow_natCast, pow_mul]
        _ ≤ ((2 ^ p) ^ k)⁻¹ := by gcongr
        _ = 2 ^ (-(k : ℤ) * p) := by
            rw [← pow_mul, ← zpow_natCast, ← zpow_neg, Nat.cast_mul, neg_mul, mul_comm (p : ℤ)]
  refine (pow_le_pow_iff_left₀ (by positivity) (by positivity) hp.ne').mp ?_
  rw [← zpow_natCast, ← zpow_natCast, ← zpow_mul, ← zpow_mul]
  refine le_trans (zpow_le_zpow_right₀ (by norm_num) ?_) hpowers
  rw [sub_mul, one_mul]
  exact sub_le_sub_right (Int.ediv_mul_le _ (by omega)) _

/-- The estimate of a decimal length from a binary one is at most two too large. -/
theorem pow_estimate_sub_two_le {l : ℤ} (hl : -4096 ≤ l) :
    (10 : ℚ) ^ (l * 1233 / 4096 - 2) ≤ 2 ^ (l - 1) := by
  have hestimate : (10 : ℚ) ^ (l * 1233 / 4096 - 1) ≤ 2 ^ l :=
    pow_estimate_le (by decide) (by decide +kernel) (by decide +kernel) hl
  calc (10 : ℚ) ^ (l * 1233 / 4096 - 2) = 10 ^ (l * 1233 / 4096 - 1) * (1 / 10) := by
        rw [show l * 1233 / 4096 - 2 = l * 1233 / 4096 - 1 + -1 by ring,
          zpow_add₀ (by norm_num), zpow_neg_one, one_div]
    _ ≤ 2 ^ l * (1 / 2) := by
        gcongr
        norm_num
    _ = 2 ^ (l - 1) := by rw [sub_eq_add_neg, zpow_add₀ two_ne_zero, zpow_neg_one, one_div]

/-- What holds below an estimate, and wherever a test fails, holds below the first of the four
candidates that passes the test. -/
theorem find?_estimate {test : ℤ → Bool} {P : ℤ → Prop} (htest : ∀ k, test k = false → P k)
    {estimate : ℤ} (h : P (estimate - 2)) :
    P ((([-1, 0, 1, 2].map (estimate + ·)).find? test).getD (estimate + 3) - 1) := by
  have hfailed {k k' : ℤ} (hk : test k = false) (hk' : k' - 1 = k) : P (k' - 1) := hk' ▸ htest k hk
  simp only [List.map_cons, List.map_nil, List.find?_cons, List.find?_nil]
  cases h₁ : test (estimate + -1) with
  | true => exact (show estimate + -1 - 1 = estimate - 2 by ring) ▸ h
  | false =>
    cases h₂ : test (estimate + 0) with
    | true => exact (hfailed h₁ (by ring) : P (estimate + 0 - 1))
    | false =>
      cases h₃ : test (estimate + 1) with
      | true => exact (hfailed h₂ (by ring) : P (estimate + 1 - 1))
      | false =>
        cases h₄ : test (estimate + 2) with
        | true => exact (hfailed h₃ (by ring) : P (estimate + 2 - 1))
        | false => exact (hfailed h₄ (by ring) : P (estimate + 3 - 1))

/-- A power of ten over the numerator or the denominator, whichever keeps it natural. -/
theorem ten_zpow_eq (k : ℤ) :
    (10 : ℚ) ^ k = ((if k < 0 then 1 else 10 ^ k.natAbs : ℕ) : ℚ) /
      (if k < 0 then 10 ^ k.natAbs else 1 : ℕ) := by
  split_ifs with hk
  · rw [show k = -(k.natAbs : ℤ) by omega, zpow_neg, zpow_natCast, Int.natAbs_neg, Int.natAbs_natCast]
    push_cast
    rw [one_div]
  · conv_lhs => rw [show k = (k.natAbs : ℤ) by omega, zpow_natCast]
    push_cast
    rw [div_one]

section

variable {num den : ℕ} (hnum : 0 < num) (hden : 0 < den)
include hden

/-- Comparing a quotient with a power of ten. -/
theorem below_iff (k : ℤ) :
    (if k < 0 then decide (num * 10 ^ k.natAbs < den) else decide (num < den * 10 ^ k.natAbs)) =
      true ↔ (num : ℚ) / den < 10 ^ k := by
  have hpos : (0 : ℚ) < den := by exact_mod_cast hden
  rw [ten_zpow_eq, div_lt_div_iff₀ hpos (by split_ifs <;> positivity)]
  split_ifs
  · rw [decide_eq_true_eq, Nat.cast_one, one_mul]
    exact_mod_cast Iff.rfl
  · rw [decide_eq_true_eq, Nat.cast_one, mul_one, mul_comm]
    exact_mod_cast Iff.rfl

include hnum

/-- The power of ten below the place of the first digit is not above the number. -/
theorem pow_decimalPoint_le (hlow : -4096 ≤ (num.log2 : ℤ) - den.log2) :
    (10 : ℚ) ^ (decimalPoint num den - 1) ≤ (num : ℚ) / den := by
  have hquot : (0 : ℚ) < (num : ℚ) / den :=
    div_pos (by exact_mod_cast hnum) (by exact_mod_cast hden)
  refine find?_estimate (P := fun k => (10 : ℚ) ^ k ≤ (num : ℚ) / den) (fun k hk => ?_) ?_
  · rw [← not_lt, ← below_iff hden]
    exact Bool.eq_false_iff.mp hk
  · refine (pow_estimate_sub_two_le hlow).trans ((le_log_iff hquot _).mp ?_)
    have := log_quotient_mem hnum hden
    omega

end

/-! ## Points of decimal grids -/

/-- Whether a number lies in an interval, the ends of which count or do not. -/
def Within (closed : Bool) (low high g : ℚ) : Prop :=
  (low < g ∨ low = g ∧ closed = true) ∧ (g < high ∨ g = high ∧ closed = true)

section

variable {value low high den : ℕ} (hden : 0 < den) {closed : Bool} {point : ℤ} {count : ℕ}
include hden

/-- The test that a point of a grid must pass: it lies in the interval. -/
theorem inside_iff {up down : ℕ} (hup : 0 < up) (n : ℕ) :
    (if closed = true then decide (low * up ≤ n * (den * down)) && decide (n * (den * down) ≤ high * up)
      else decide (low * up < n * (den * down)) && decide (n * (den * down) < high * up)) = true ↔
      Within closed (low / den) (high / den) (n * ((down : ℚ) / up)) := by
  have hden' : (0 : ℚ) < den := by exact_mod_cast hden
  have hup' : (0 : ℚ) < up := by exact_mod_cast hup
  have hpos : (0 : ℚ) < up * den := by positivity
  have hpoint : n * ((down : ℚ) / up) = ((n * (den * down) : ℕ) : ℚ) / (up * den) := by
    push_cast
    field_simp
  have hbound (a : ℕ) : (a : ℚ) / den = ((a * up : ℕ) : ℚ) / (up * den) := by
    push_cast
    field_simp
  rw [Within, hpoint, hbound, hbound]
  simp only [div_lt_div_iff_of_pos_right hpos, div_left_inj' hpos.ne', Nat.cast_lt, Nat.cast_inj]
  cases closed
  · simp
  · simp [Nat.le_iff_lt_or_eq]

/-- A point of a grid that is found lies in the interval. -/
theorem gridHit?_within {n : ℕ} {k : ℤ}
    (h : gridHit? value low high den closed point count = some (n, k)) :
    Within closed (low / den) (high / den) (n * 10 ^ k) := by
  rw [gridHit?] at h
  simp only [Option.map_eq_some_iff, Prod.mk.injEq] at h
  obtain ⟨_, hfind, rfl, rfl⟩ := h
  have hinside := List.find?_some hfind
  rw [ten_zpow_eq]
  exact (inside_iff hden (by split_ifs <;> positivity) _).mp hinside

/-- A point is found on a grid if the interval has the nearest one. -/
theorem gridHit?_isSome
    (h : ∀ g : ℚ, |g - value / den| ≤ 10 ^ (point - count) / 2 →
      Within closed (low / den) (high / den) g) :
    (gridHit? value low high den closed point count).isSome := by
  rw [gridHit?, Option.isSome_map]
  simp only
  rw [ten_zpow_eq] at h
  have hup : 0 < (if point - count < 0 then 10 ^ (point - count).natAbs else 1) := by
    split_ifs <;> positivity
  have hdown : 0 < (if point - count < 0 then 1 else 10 ^ (point - count).natAbs) := by
    split_ifs <;> positivity
  generalize (if point - count < 0 then 10 ^ (point - count).natAbs else 1) = up at h hup ⊢
  generalize (if point - count < 0 then 1 else 10 ^ (point - count).natAbs) = down at h hdown ⊢
  have hsplit := Nat.div_add_mod (value * up) (den * down)
  generalize value * up / (den * down) = lower at hsplit ⊢
  generalize hrest : value * up % (den * down) = rest at hsplit ⊢
  have hrest : rest < den * down := hrest ▸ Nat.mod_lt _ (Nat.mul_pos hden hdown)
  -- The nearest point comes first among the candidates.
  have hnear (n : ℕ) (hn : |((n * (den * down) : ℕ) : ℚ) - (value * up : ℕ)| ≤
      ((den * down : ℕ) : ℚ) / 2) :
      Within closed (low / den) (high / den) (n * ((down : ℚ) / up)) := by
    have hpos : (0 : ℚ) < den * up := by exact_mod_cast Nat.mul_pos hden hup
    have hden' : (den : ℚ) ≠ 0 := by exact_mod_cast hden.ne'
    have hup' : (up : ℚ) ≠ 0 := by exact_mod_cast hup.ne'
    refine h _ ?_
    have hdiff : n * ((down : ℚ) / up) - value / den =
        (((n * (den * down) : ℕ) : ℚ) - (value * up : ℕ)) / (den * up) := by
      push_cast
      field_simp
    rw [hdiff, abs_div, abs_of_pos hpos, div_le_iff₀ hpos]
    refine hn.trans_eq ?_
    push_cast
    field_simp
  rw [List.find?_isSome]
  by_cases hprefer : (decide (2 * rest < den * down) ||
      2 * rest == den * down && lower % 2 == 0) = true
  · rw [if_pos hprefer]
    refine ⟨lower, List.mem_cons_self, (inside_iff hden hup _).mpr (hnear _ ?_)⟩
    have hle : 2 * rest ≤ den * down := by
      simp only [Bool.or_eq_true, decide_eq_true_eq, Bool.and_eq_true, beq_iff_eq] at hprefer
      omega
    have hle' : (2 : ℚ) * rest ≤ ((den * down : ℕ) : ℚ) := by exact_mod_cast hle
    rw [← hsplit, Nat.cast_add, mul_comm lower, sub_add_cancel_left, abs_neg, Nat.abs_cast]
    linarith
  · rw [if_neg hprefer]
    refine ⟨lower + 1, List.mem_cons_self, (inside_iff hden hup _).mpr (hnear _ ?_)⟩
    have hle : den * down ≤ 2 * rest := by
      simp only [Bool.or_eq_true, decide_eq_true_eq, Bool.and_eq_true, beq_iff_eq] at hprefer
      omega
    have hle' : ((den * down : ℕ) : ℚ) ≤ 2 * rest := by exact_mod_cast hle
    have hlt' : (rest : ℚ) < ((den * down : ℕ) : ℚ) := by exact_mod_cast hrest
    have hdiff : (((lower + 1) * (den * down) : ℕ) : ℚ) - (value * up : ℕ) =
        ((den * down : ℕ) : ℚ) - rest := by
      rw [← hsplit, Nat.add_mul, Nat.one_mul, mul_comm lower]
      push_cast
      ring
    rw [hdiff, abs_of_pos (by linarith)]
    linarith

end

/-! ## The chosen digits -/

/-- Dropping zeros does not change the value. -/
theorem dropZeros_value (fuel n : ℕ) (e : ℤ) :
    ((dropZeros fuel n e).1 : ℚ) * 10 ^ (dropZeros fuel n e).2 = n * 10 ^ e := by
  induction fuel generalizing n e with
  | zero => rfl
  | succ fuel ih =>
    rw [dropZeros]
    split_ifs with hzero
    · obtain ⟨k, rfl⟩ := Nat.dvd_of_mod_eq_zero hzero.2
      rw [ih, Nat.mul_div_cancel_left k (by decide), zpow_add₀ (by norm_num)]
      push_cast
      ring
    · rfl

/-- A multiple of a power of two as the quotient that is computed. -/
theorem two_zpow_eq (a : ℕ) (k : ℤ) :
    (a : ℚ) * 2 ^ k = ((a * if k < 0 then 1 else 2 ^ k.natAbs : ℕ) : ℚ) /
      (if k < 0 then 2 ^ k.natAbs else 1 : ℕ) := by
  split_ifs with hk
  · conv_lhs => rw [show k = -(k.natAbs : ℤ) by omega, zpow_neg, zpow_natCast]
    push_cast
    rw [mul_one, div_eq_mul_inv]
  · conv_lhs => rw [show k = (k.natAbs : ℤ) by omega, zpow_natCast]
    push_cast
    rw [div_one]

/-- The numbers that round to a multiple are those of its interval. -/
theorem roundsTo_iff_within {m : ℕ} {e : ℤ} {v : ℚ} :
    RoundsTo m e v ↔
      Within (m % 2 = 0) ((m - halfBelow m e) * 2 ^ e) ((m + 1 / 2) * 2 ^ e) v := by
  simp only [RoundsTo, Within, decide_eq_true_eq]

section

variable {m : ℕ} {e : ℤ} (hgrid : OnGrid m e)
include hgrid

/-- A double lies away from the ends of its interval by its value over a power of two or more. -/
theorem OnGrid.le_halfBelow : (m : ℚ) / 2 ^ 54 ≤ halfBelow m e := by
  have hmax : (m : ℚ) < 2 ^ 53 := by exact_mod_cast hgrid.lt
  unfold halfBelow
  split_ifs with hquarter
  · rw [hquarter.1]
    norm_num
  · rw [div_le_iff₀ (by positivity)]
    linarith

/-- What is nearer to a double than half a step of the grid with 17 digits rounds to the double. -/
theorem OnGrid.roundsTo_of_near {point : ℤ} (hpoint : (10 : ℚ) ^ (point - 1) ≤ m * 2 ^ e) {g : ℚ}
    (hg : |g - m * 2 ^ e| ≤ 10 ^ (point - 17) / 2) : RoundsTo m e g := by
  have hpow : (0 : ℚ) < 2 ^ e := zpow_pos two_pos e
  have hm : (0 : ℚ) < m := by exact_mod_cast hgrid.pos
  have hhalf : halfBelow m e ≤ 1 / 2 := by
    unfold halfBelow
    split_ifs <;> norm_num
  have hnear : |g - m * 2 ^ e| < halfBelow m e * 2 ^ e := by
    calc |g - m * 2 ^ e| ≤ 10 ^ (point - 17) / 2 := hg
      _ = 10 ^ (point - 1) * (1 / (2 * 10 ^ 16)) := by
        rw [show point - 17 = point - 1 + -16 by ring, zpow_add₀ (by norm_num)]
        norm_num
        ring
      _ ≤ m * 2 ^ e * (1 / (2 * 10 ^ 16)) := by gcongr
      _ < m * 2 ^ e * (1 / 2 ^ 54) := by
        gcongr
        norm_num
      _ = m / 2 ^ 54 * 2 ^ e := by ring
      _ ≤ halfBelow m e * 2 ^ e := by
        gcongr
        exact hgrid.le_halfBelow
  obtain ⟨hlow, hhigh⟩ := abs_lt.mp hnear
  have hupper : halfBelow m e * 2 ^ e ≤ 1 / 2 * 2 ^ e := by gcongr
  exact ⟨Or.inl (by linarith), Or.inl (by linarith)⟩

/-- The chosen digits of a double round to it. -/
theorem shortestDigits_roundsTo :
    RoundsTo m e ((shortestDigits m e).1 * 10 ^ (shortestDigits m e).2) := by
  have hm := hgrid.pos
  have hexponent := hgrid.exponent
  have hvalue (a : ℕ) := two_zpow_eq a (e - 2)
  have hfour : (2 : ℚ) ^ (e - 2) = 2 ^ e / 4 := by
    rw [zpow_sub₀ two_ne_zero]
    norm_num
  have hden : 0 < (if e - 2 < 0 then 2 ^ (e - 2).natAbs else 1) := by split_ifs <;> positivity
  have hscale : 0 < (if e - 2 < 0 then 1 else 2 ^ (e - 2).natAbs) := by split_ifs <;> positivity
  have hlength : (if e - 2 < 0 then 2 ^ (e - 2).natAbs else 1).log2 ≤ 1076 := by
    split_ifs
    · rw [Nat.log2_two_pow]
      omega
    · decide
  rw [shortestDigits, if_neg hm.ne']
  simp only
  generalize (if e - 2 < 0 then 2 ^ (e - 2).natAbs else 1) = den at hvalue hden hlength ⊢
  generalize (if e - 2 < 0 then 1 else 2 ^ (e - 2).natAbs) = scale at hvalue hscale ⊢
  have hcenter : ((4 * m * scale : ℕ) : ℚ) / den = m * 2 ^ e := by
    rw [← hvalue, hfour]
    push_cast
    ring
  have hlow : (((4 * m - if m = 2 ^ 52 ∧ e > -1074 then 1 else 2) * scale : ℕ) : ℚ) / den =
      (m - halfBelow m e) * 2 ^ e := by
    rw [← hvalue, hfour, Nat.cast_sub (by split_ifs <;> omega), halfBelow]
    split_ifs
    all_goals
      push_cast
      ring
  have hhigh : (((4 * m + 2) * scale : ℕ) : ℚ) / den = (m + 1 / 2) * 2 ^ e := by
    rw [← hvalue, hfour]
    push_cast
    ring
  have hpoint : (10 : ℚ) ^ (decimalPoint (4 * m * scale) den - 1) ≤ m * 2 ^ e := by
    rw [← hcenter]
    exact pow_decimalPoint_le (by positivity) hden (by omega)
  generalize decimalPoint (4 * m * scale) den = point at hpoint ⊢
  split
  · next n k hfound =>
    obtain ⟨i, _, hhit⟩ := List.exists_of_findSome?_eq_some hfound
    have hwithin := gridHit?_within hden hhit
    rw [hlow, hhigh, ← roundsTo_iff_within] at hwithin
    rwa [dropZeros_value]
  · next hnone =>
    have hlast := List.findSome?_eq_none_iff.mp hnone 16 (List.mem_range.mpr (by decide))
    refine absurd (gridHit?_isSome hden fun g hg => ?_) (Option.not_isSome_iff_eq_none.mpr hlast)
    rw [hcenter] at hg
    rw [hlow, hhigh, ← roundsTo_iff_within]
    exact hgrid.roundsTo_of_near hpoint hg

end

/-! ## Decimal numbers -/

/-- The length of a number tells its size. -/
theorem pow_decimalLength_le {c : ℕ} (hc : 0 < c) : 10 ^ (decimalLength c - 1) ≤ c := by
  by_contra hlt
  rw [not_le] at hlt
  have hlength : decimalLength c - 1 ≠ 0 := by
    intro hzero
    rw [hzero, Nat.pow_zero] at hlt
    omega
  have := (Nat.length_toDigits_le_iff (b := 10) (by decide) (Nat.pos_of_ne_zero hlength)).mpr hlt
  rw [← decimalLength] at this
  omega

/-- The power of ten of the first digit tells the size of a decimal number. -/
theorem magnitude_bounds {c : ℕ} (hc : 0 < c) (k : ℤ) :
    (10 : ℚ) ^ (k + decimalLength c - 1) ≤ c * 10 ^ k ∧
      (c : ℚ) * 10 ^ k < 10 ^ (k + decimalLength c) := by
  have hten : (0 : ℚ) < 10 ^ k := by positivity
  have hlength : 0 < decimalLength c := Nat.length_toDigits_pos
  constructor
  · rw [show k + (decimalLength c : ℤ) - 1 = ((decimalLength c - 1 : ℕ) : ℤ) + k by omega,
      zpow_add₀ (by norm_num), zpow_natCast]
    gcongr
    exact_mod_cast pow_decimalLength_le hc
  · rw [add_comm k, zpow_add₀ (by norm_num), zpow_natCast]
    gcongr
    exact_mod_cast lt_pow_decimalLength c

/-- Within the sizes that are computed, a decimal number makes the double of its quotient. -/
theorem exists_ofDecimal_eq (negative : Bool) {c : ℕ} (hc : 0 < c) {k : ℤ}
    (hlow : -400 ≤ k + decimalLength c) (hhigh : k + decimalLength c ≤ 400) :
    ∃ num den : ℕ, 0 < den ∧ (num : ℚ) / den = c * 10 ^ k ∧
      ofDecimal negative c k = ofRatio negative num den := by
  rw [ofDecimal, if_neg hc.ne']
  simp only
  rw [if_neg (by omega), if_neg (by omega), ten_zpow_eq]
  split_ifs with hk
  · exact ⟨c, _, by positivity, by push_cast; ring, rfl⟩
  · exact ⟨_, 1, one_pos, by push_cast; ring, rfl⟩

/-- Equal decimal numbers make the same double. -/
theorem ofDecimal_congr (negative : Bool) {c c' : ℕ} {k k' : ℤ}
    (h : (c : ℚ) * 10 ^ k = c' * 10 ^ k') : ofDecimal negative c k = ofDecimal negative c' k' := by
  have hzero : c = 0 ↔ c' = 0 := by
    have hten (k : ℤ) : (10 : ℚ) ^ k ≠ 0 := zpow_ne_zero k (by norm_num)
    rw [← @Nat.cast_eq_zero ℚ, ← mul_eq_zero_iff_right (hten k), h, mul_eq_zero_iff_right (hten k'),
      Nat.cast_eq_zero]
  by_cases hc : c = 0
  · rw [hc, hzero.mp hc, ofDecimal, ofDecimal, if_pos rfl, if_pos rfl]
  · have hc' := Nat.pos_of_ne_zero (hc ∘ hzero.mpr)
    have hc := Nat.pos_of_ne_zero hc
    have hone : (1 : ℚ) < 10 := by norm_num
    have hmagnitude : k + decimalLength c = k' + decimalLength c' := by
      obtain ⟨hlow, hhigh⟩ := magnitude_bounds hc k
      obtain ⟨hlow', hhigh'⟩ := magnitude_bounds hc' k'
      have := (zpow_lt_zpow_iff_right₀ hone).mp (hlow.trans_lt (h ▸ hhigh'))
      have := (zpow_lt_zpow_iff_right₀ hone).mp (hlow'.trans_lt (h ▸ hhigh))
      omega
    by_cases hsize : -400 ≤ k + decimalLength c ∧ k + decimalLength c ≤ 400
    · obtain ⟨num, den, hden, hratio, hdouble⟩ := exists_ofDecimal_eq negative hc hsize.1 hsize.2
      rw [hmagnitude] at hsize
      obtain ⟨num', den', hden', hratio', hdouble'⟩ :=
        exists_ofDecimal_eq negative hc' hsize.1 hsize.2
      rw [hdouble, hdouble']
      exact ofRatio_congr negative hden hden' (by rw [hratio, hratio', h])
    · rw [ofDecimal, ofDecimal, if_neg hc.ne', if_neg hc'.ne']
      simp only [hmagnitude]
      split_ifs <;> first | rfl | omega

/-- Three binary digits are less than one decimal digit. -/
theorem two_zpow_le (n : ℕ) : (2 : ℚ) ^ (3 * n : ℤ) ≤ 10 ^ (n : ℤ) := by
  rw [zpow_mul, zpow_natCast, zpow_natCast]
  gcongr
  norm_num

/-- What rounds to a double is about as large. -/
theorem OnGrid.bounds_of_roundsTo {m : ℕ} {e : ℤ} (hgrid : OnGrid m e) {v : ℚ}
    (h : RoundsTo m e v) : (2 : ℚ) ^ (e - 1) ≤ v ∧ v < 2 ^ (e + 53) := by
  have hone : (1 : ℚ) ≤ m := by exact_mod_cast hgrid.pos
  have hmax : (m : ℚ) ≤ 2 ^ 53 - 1 := by
    rw [le_sub_iff_add_le]
    exact_mod_cast hgrid.lt
  have hpow : (0 : ℚ) < 2 ^ e := zpow_pos two_pos e
  have hhalf : halfBelow m e ≤ 1 / 2 := by
    unfold halfBelow
    split_ifs <;> norm_num
  have hlow : (2 : ℚ) ^ (e - 1) ≤ v := by
    have hstep : (2 : ℚ) ^ (e - 1) ≤ (m - halfBelow m e) * 2 ^ e := by
      rw [zpow_sub₀ two_ne_zero, zpow_one, div_eq_mul_one_div, mul_comm]
      gcongr
      linarith
    rcases h.1 with h | ⟨h, _⟩ <;> linarith
  have hhigh : v < 2 ^ (e + 53) := by
    have hstep : ((m : ℚ) + 1 / 2) * 2 ^ e < 2 ^ (e + 53) := by
      rw [add_comm e, zpow_add₀ two_ne_zero, show (2 : ℚ) ^ (53 : ℤ) = 2 ^ 53 from rfl]
      gcongr
      linarith
    rcases h.2 with h | ⟨h, _⟩ <;> linarith
  exact ⟨hlow, hhigh⟩

/-- A decimal number makes the double that it rounds to. -/
theorem ofDecimal_of_roundsTo (negative : Bool) {m : ℕ} {e : ℤ} (hgrid : OnGrid m e)
    (he : e ≤ 971) {c : ℕ} {k : ℤ} (h : RoundsTo m e (c * 10 ^ k)) :
    ofDecimal negative c k = encode negative m e := by
  obtain ⟨hlow, hhigh⟩ := hgrid.bounds_of_roundsTo h
  have hc : 0 < c := by
    by_contra hzero
    obtain rfl : c = 0 := by omega
    rw [Nat.cast_zero, zero_mul] at hlow
    exact absurd hlow (not_le.mpr (zpow_pos two_pos _))
  obtain ⟨hten, hten'⟩ := magnitude_bounds hc k
  have hlarge : (10 : ℚ) ^ (k + decimalLength c - 1) < 10 ^ ((400 : ℕ) : ℤ) := by
    calc (10 : ℚ) ^ (k + decimalLength c - 1) < 2 ^ (e + 53) := hten.trans_lt hhigh
      _ ≤ 2 ^ (3 * (400 : ℕ) : ℤ) := zpow_le_zpow_right₀ one_le_two (by omega)
      _ ≤ 10 ^ ((400 : ℕ) : ℤ) := two_zpow_le 400
  have hsmall : (10 : ℚ) ^ (-((401 : ℕ) : ℤ)) < 10 ^ (k + decimalLength c) := by
    have := hgrid.exponent
    calc (10 : ℚ) ^ (-((401 : ℕ) : ℤ)) = (10 ^ ((401 : ℕ) : ℤ))⁻¹ := zpow_neg _ _
      _ ≤ (2 ^ (3 * (401 : ℕ) : ℤ))⁻¹ := inv_anti₀ (by positivity) (two_zpow_le 401)
      _ = 2 ^ (-(3 * (401 : ℕ) : ℤ)) := (zpow_neg _ _).symm
      _ ≤ 2 ^ (e - 1) := zpow_le_zpow_right₀ one_le_two (by omega)
      _ < 10 ^ (k + decimalLength c) := hlow.trans_lt hten'
  rw [zpow_lt_zpow_iff_right₀ (by norm_num)] at hlarge hsmall
  obtain ⟨num, den, hden, hratio, hdouble⟩ :=
    exists_ofDecimal_eq negative hc (k := k) (by omega) (by omega)
  rw [← hratio] at h
  rw [hdouble, ofRatio_of_roundsTo negative hgrid hden h]

end TwinStore.Number.Binary64
