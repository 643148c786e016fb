import TwinStore.Proofs.RoundedOrder

/-!
# Rounded products

A product of doubles is the double nearest to it.  It is computed from the product of the mantissas, of
which bits are shifted out one by one; the first bit behind those that are kept, and a mark for all
others, tell where the product lies.

Main definitions:

- `IsRest`, `Describes`: what the bits behind a mantissa tell of a number.

Main results:

- Theorem `Describes.shiftRightOne`: a shift keeps what the bits tell.
- Theorem `Describes.isNearest`: they suffice to round to the nearest mantissa.
- Theorem `value?_mul_of_rounds`: a product of doubles is the double nearest to it.
- Theorem `exists_value?_mul`, `exists_value?_ofSignedRatio`: how far a rounded product or quotient is
  from the exact one.
-/

namespace TwinStore.Number.Binary64

open Float.Model Float.Model.UnpackedFloat

/-! ## Bits behind a mantissa -/

/-- Whether the first bit behind a mantissa, and the mark that there are others, belong to a rest. -/
inductive IsRest : Bool → Bool → ℚ → Prop
  | none : IsRest false false 0
  | below {r : ℚ} (hpos : 0 < r) (hlt : r < 1 / 2) : IsRest false true r
  | half : IsRest true false (1 / 2)
  | above {r : ℚ} (hgt : 1 / 2 < r) (hlt : r < 1) : IsRest true true r

/-- Whether a mantissa with the bits behind it is what is known of a number. -/
def Describes (em : ExtendedMantissa) (v : ℚ) : Prop :=
  IsRest em.roundBit em.stickyBit (v - em.mantissa)

theorem describes_exact (m : ℕ) : Describes ⟨m, false, false⟩ m := by
  rw [Describes, sub_self]
  exact .none

/-- The last bit of a mantissa becomes the first one behind it, and any that were there leave the mark. -/
theorem Describes.shiftRightOne {em : ExtendedMantissa} {v : ℚ} (h : Describes em v) :
    Describes em.shiftRightOne (v / 2) := by
  obtain ⟨m, round, sticky⟩ := em
  have hparity : (m : ℚ) = 2 * (m / 2 : ℕ) + (m % 2 : ℕ) := by exact_mod_cast (Nat.div_add_mod m 2).symm
  have hrest : v / 2 - (m / 2 : ℕ) = (v - m) / 2 + (m % 2 : ℕ) / 2 := by linarith
  unfold Describes ExtendedMantissa.shiftRightOne at *
  simp only at h ⊢
  rw [hrest]
  generalize v - (m : ℚ) = r at h
  rcases Nat.mod_two_eq_zero_or_one m with heven | hodd
  · rw [heven, Nat.cast_zero, zero_div, add_zero]
    cases h with
    | none => rw [zero_div]; exact .none
    | half => exact .below (by norm_num) (by norm_num)
    | below | above => exact .below (by linarith) (by linarith)
  · rw [hodd, Nat.cast_one]
    cases h with
    | none => rw [zero_div, zero_add]; exact .half
    | half => exact .above (by norm_num) (by norm_num)
    | below | above => exact .above (by linarith) (by linarith)

/-- So it is for any number of shifts. -/
theorem Describes.repeat_shiftRightOne {em : ExtendedMantissa} {v : ℚ} (h : Describes em v) (k : ℕ) :
    Describes (k.repeat ExtendedMantissa.shiftRightOne em) (v / 2 ^ k) := by
  induction k with
  | zero => rwa [pow_zero, div_one]
  | succ k ih =>
    rw [pow_succ, ← div_div]
    exact ih.shiftRightOne

/-- The mantissa is rounded to the nearest one. -/
theorem Describes.isNearest {em : ExtendedMantissa} {v : ℚ} (h : Describes em v) :
    IsNearest em.roundedMantissa v := by
  obtain ⟨m, round, sticky⟩ := em
  obtain ⟨r, rfl⟩ : ∃ r, v = m + r := ⟨v - m, by ring⟩
  rw [Describes, add_sub_cancel_left] at h
  cases h with
  | none =>
    rw [add_zero]
    exact isNearest_natCast m
  | below hpos hlt =>
    show IsNearest m _
    exact ⟨.inl (by linarith), .inl (by linarith)⟩
  | half =>
    show IsNearest (m + m % 2) _
    rcases Nat.mod_two_eq_zero_or_one m with heven | hodd
    · rw [heven, Nat.add_zero]
      exact ⟨.inl (by linarith), .inr ⟨rfl, heven⟩⟩
    · rw [hodd]
      exact ⟨.inr ⟨by push_cast; ring, by omega⟩, .inl (by push_cast; linarith)⟩
  | above hgt hlt =>
    show IsNearest (m + 1) _
    exact ⟨.inl (by push_cast; linarith), .inl (by push_cast; linarith)⟩

/-! ## Rounding -/

variable {v r p q : ℚ} {m n : ℕ} {e t : ℤ}

/-- The exponent that a multiple of a power of two is shifted to. -/
theorem targetExponent_eq_gridExponent (hm : 0 < m) (e : ℤ) :
    Format.binary64.targetExponent (Float.Model.totalExponent m e) = gridExponent (m * 2 ^ e) := by
  have hbits : (Format.binary64.mantissaBits : ℤ) = 53 := rfl
  have hleast : Format.binary64.minExponent = -1074 := by decide
  rw [Format.targetExponent, Float.Model.totalExponent, hbits, hleast, gridExponent, log_mul_zpow hm]
  congr 1
  omega

/-- A multiple of a power of two is shifted to what describes it among the multiples that fit. -/
theorem exists_shiftToTargetExponent (hm : 0 < m) (he : e ≤ gridExponent (m * 2 ^ e)) :
    ∃ em, shiftToTargetExponent Format.binary64 m e .exact = (em, gridExponent (m * 2 ^ e)) ∧
      Describes em (m * 2 ^ e / 2 ^ gridExponent (m * 2 ^ e)) := by
  have hvalue : (m : ℚ) * 2 ^ e / 2 ^ gridExponent (m * 2 ^ e) =
      m / 2 ^ (gridExponent (m * 2 ^ e) - e).toNat := by
    rw [← zpow_natCast, Int.toNat_of_nonneg (by omega), mul_div_assoc, ← zpow_sub₀ two_ne_zero,
      div_eq_mul_inv, ← zpow_neg, neg_sub]
  rw [hvalue]
  refine ⟨_, ?_, (describes_exact m).repeat_shiftRightOne _⟩
  unfold shiftToTargetExponent shiftToExponent
  rw [targetExponent_eq_gridExponent hm]
  refine Prod.ext rfl ?_
  show e + (gridExponent (m * 2 ^ e) - e).toNat = gridExponent (m * 2 ^ e)
  omega

/-- The exponent of a multiple on the grid is that of a double, unless it is beyond the bound. -/
theorem OnGrid.le_of_lt_bound (hgrid : OnGrid n t) (h : (n : ℚ) * 2 ^ t < bound) : t ≤ 971 := by
  by_contra hlarge
  have hfull : 2 ^ 52 ≤ n := hgrid.full.resolve_right (by omega)
  refine absurd h (not_lt.mpr ?_)
  calc bound = 2 ^ (52 : ℤ) * 2 ^ (972 : ℤ) := bound_eq 52
    _ ≤ n * 2 ^ t := by
        gcongr
        · exact_mod_cast hfull
        · exact one_le_two
        · omega

/-- What a number is rounded to is zero or a multiple on the grid. -/
theorem Rounds.exists_onGrid (hv : 0 < v) (hn : IsNearest n (v / 2 ^ gridExponent v)) :
    n = 0 ∨ ∃ a t, OnGrid a t ∧ gridExponent v ≤ t ∧ (n : ℚ) * 2 ^ gridExponent v = a * 2 ^ t := by
  have hmin : -1074 ≤ gridExponent v := le_max_right _ _
  obtain ⟨hfew, hfull⟩ := bounds_of_isNearest hv hn
  rcases Nat.eq_zero_or_pos n with hzero | hpos
  · exact .inl hzero
  rcases hfew.eq_or_lt with rfl | hlt
  · refine .inr ⟨2 ^ 52, gridExponent v + 1, ⟨by norm_num, by norm_num, by omega, .inl le_rfl⟩, by omega, ?_⟩
    rw [zpow_add₀ two_ne_zero, zpow_one]
    push_cast
    ring
  · exact .inr ⟨n, gridExponent v, ⟨hpos, hlt, hmin, hfull⟩, le_rfl, rfl⟩

/-- Zero stays zero at every exponent. -/
theorem shiftToTargetExponent_zero (e : ℤ) :
    (shiftToTargetExponent Format.binary64 0 e .exact).1.mantissa = 0 := by
  show (Nat.repeat ExtendedMantissa.shiftRightOne _ ⟨0, false, false⟩).mantissa = 0
  generalize (_ : ℤ).toNat = k
  have hshift := repeat_shiftRightOne 0 k
  rw [Nat.zero_mul] at hshift
  rw [hshift]

/-- A multiple of a power of two is rounded to the nearest double. -/
theorem hasValue_roundWithAccuracy (s : Sign) (hm : 0 < m) (he : e ≤ gridExponent (m * 2 ^ e))
    (hr : Rounds (m * 2 ^ e) r) (hbound : r < bound) :
    HasValue (roundWithAccuracy Format.binary64 s m e .exact) (s.apply 1 * r) := by
  have hv : (0 : ℚ) < m * 2 ^ e := mul_pos (by exact_mod_cast hm) (zpow_pos two_pos e)
  obtain ⟨n, hn, rfl⟩ := hr
  obtain ⟨em, hshift, hdescribes⟩ := exists_shiftToTargetExponent hm he
  have hrounded : em.roundedMantissa = n := hdescribes.isNearest.unique hn
  unfold roundWithAccuracy
  simp only [hshift, hrounded]
  rcases Rounds.exists_onGrid hv hn with rfl | ⟨a, t, hgrid, hle, hvalue⟩
  · rw [dif_pos (shiftToTargetExponent_zero _), Nat.cast_zero, zero_mul, mul_zero]
    exact hasValue_zero s
  · simp only [shiftToTargetExponent_eq hgrid hvalue hle]
    rw [dif_neg hgrid.pos.ne', hvalue]
    rw [hvalue] at hbound
    have hsign : ((s.apply 1 : ℤ) : ℚ) * (a * 2 ^ t) = s.apply a * 2 ^ t := by
      cases s <;> simp [Sign.apply]
    rw [hsign]
    exact hasValue_finite s hgrid (hgrid.le_of_lt_bound hbound) hgrid.pos

/-! ## Products -/

/-- The product of multiples on the grid fits among the multiples of its size. -/
theorem add_le_gridExponent {m' : ℕ} {e' : ℤ} (hgrid : OnGrid m e) (hgrid' : OnGrid m' e') :
    e + e' ≤ gridExponent ((m * m' : ℕ) * 2 ^ (e + e')) := by
  have hpos := hgrid.pos
  have hpos' := hgrid'.pos
  rw [gridExponent, log_mul_zpow (Nat.mul_pos hpos hpos')]
  by_cases hfull : 2 ^ 52 ≤ m * m'
  · have hlog : 52 ≤ (m * m').log2 := (Nat.le_log2 (Nat.mul_pos hpos hpos').ne').mpr hfull
    omega
  · have hleft : m < 2 ^ 52 := (Nat.le_mul_of_pos_right m hpos').trans_lt (not_le.mp hfull)
    have hright : m' < 2 ^ 52 := (Nat.le_mul_of_pos_left m' hpos).trans_lt (not_le.mp hfull)
    have := hgrid.full
    have := hgrid'.full
    omega

/-- The number with a given size on the same side of zero as another one. -/
def withSize (q r : ℚ) : ℚ := if 0 ≤ q then r else -r

theorem abs_withSize (q r : ℚ) : |withSize q r| = |r| := by
  unfold withSize
  split_ifs
  · rfl
  · exact abs_neg r

/-- How far such a number is from the other one is told by the sizes. -/
theorem abs_withSize_sub (q r : ℚ) : |withSize q r - q| = |(|q|) - r| := by
  unfold withSize
  split_ifs with hq
  · rw [abs_of_nonneg hq, abs_sub_comm]
  · rw [abs_of_neg (not_le.mp hq)]
    congr 1
    ring

/-- A sign in front of a size. -/
theorem apply_eq (s : Sign) (m : ℕ) : ((s.apply m : ℤ) : ℚ) = s.apply 1 * m := by
  cases s <;> simp [Sign.apply]

theorem withSize_apply (s : Sign) {w : ℚ} (hw : 0 < w) : withSize (s.apply 1 * w) r = s.apply 1 * r := by
  cases s
  · simp [withSize, Sign.apply, hw]
  · simp [withSize, Sign.apply, hw.le]

/-- The product of parts is the nearest double. -/
theorem HasValue.mul_of_rounds {u v : UnpackedFloat} (hu : HasValue u p) (hv : HasValue v q)
    (hr : Rounds |p * q| r) (hbound : r < bound) :
    HasValue (UnpackedFloat.mul Format.binary64 u v) (withSize (p * q) r) := by
  have hzero (h : p * q = 0) : withSize (p * q) r = p * q := by
    rw [h, abs_zero] at hr
    rw [withSize, h, if_pos le_rfl, hr.eq_zero]
  obtain ⟨s, rfl, rfl⟩ | ⟨s, m, e, hpos, rfl, hgrid, -, rfl⟩ := hu.cases
  · rw [hzero (zero_mul q)]
    exact HasValue.mul (hasValue_zero s) hv (.inl (zero_mul q))
  · obtain ⟨s', rfl, rfl⟩ | ⟨s', m', e', hpos', rfl, hgrid', -, rfl⟩ := hv.cases
    · rw [hzero (mul_zero _)]
      exact hu.mul (hasValue_zero s') (.inl (mul_zero _))
    · have hproduct : ((s.apply m : ℤ) * 2 ^ e * ((s'.apply m' : ℤ) * 2 ^ e') : ℚ) =
          ((s * s').apply 1 : ℤ) * ((m * m' : ℕ) * 2 ^ (e + e')) := by
        rw [← mul_assoc (((s * s').apply 1 : ℤ) : ℚ), ← apply_eq, apply_mul, zpow_add₀ two_ne_zero]
        push_cast
        ring
      have hone : |(((s * s').apply 1 : ℤ) : ℚ)| = 1 := by exact_mod_cast abs_apply (s * s') 1
      have hmm : 0 < m * m' := Nat.mul_pos hpos hpos'
      have hsize : (0 : ℚ) < (m * m' : ℕ) * 2 ^ (e + e') :=
        mul_pos (by exact_mod_cast hmm) (zpow_pos two_pos _)
      rw [hproduct, abs_mul, hone, one_mul, abs_of_pos hsize] at hr
      rw [hproduct, withSize_apply _ hsize]
      exact hasValue_roundWithAccuracy _ hmm (add_le_gridExponent hgrid hgrid') hr hbound

/-- A product of doubles is the double nearest to it. -/
theorem value?_mul_of_rounds {x y : Float} (hx : value? x = some p) (hy : value? y = some q)
    (hr : Rounds |p * q| r) (hbound : r < bound) : value? (x * y) = some (withSize (p * q) r) :=
  ((hasValue_unpack hx).mul_of_rounds (hasValue_unpack hy) hr hbound).value?_pack

/-! ## Distances -/

/-- What is rounded lies within half a unit, by the size of the number. -/
theorem Rounds.abs_sub_le (hr : Rounds v r) (hv : 0 ≤ v) {k : ℤ} (hk : -1021 ≤ k) (h : v < 2 ^ k) :
    |v - r| ≤ 2 ^ (k - 54) := by
  rcases hv.eq_or_lt with rfl | hpos
  · rw [hr.eq_zero, sub_zero, abs_zero]
    exact (zpow_pos two_pos _).le
  have hgrid : gridExponent v ≤ k - 53 := by
    have hlog : ¬ k ≤ Int.log 2 v := fun hle => absurd ((le_log_iff hpos k).mp hle) (not_le.mpr h)
    unfold gridExponent
    omega
  have hpow : (0 : ℚ) < 2 ^ gridExponent v := zpow_pos two_pos _
  obtain ⟨n, ⟨hbelow, habove⟩, rfl⟩ := hr
  have hbelow' : (n : ℚ) - 1 / 2 ≤ v / 2 ^ gridExponent v := hbelow.elim le_of_lt fun h => h.1.le
  have habove' : v / 2 ^ gridExponent v ≤ n + 1 / 2 := habove.elim le_of_lt fun h => h.1.le
  rw [le_div_iff₀ hpow] at hbelow'
  rw [div_le_iff₀ hpow] at habove'
  calc |v - n * 2 ^ gridExponent v| ≤ 2 ^ gridExponent v / 2 := by
        rw [abs_le]
        constructor <;> linarith
    _ ≤ 2 ^ (k - 53) / 2 := by
        gcongr
        exact one_le_two
    _ = 2 ^ (k - 54) := by
        rw [show k - 53 = k - 54 + 1 by ring, zpow_add₀ two_ne_zero, zpow_one,
          mul_div_cancel_right₀ _ two_ne_zero]

/-- A number that is no more than a power of two is rounded to no more than that. -/
theorem Rounds.le_pow (hr : Rounds v r) (hv : 0 ≤ v) {k : ℤ} (hk : -1022 ≤ k) (h : v ≤ 2 ^ k) :
    r ≤ 2 ^ k :=
  hr.mono (rounds_pow hk) hv h

/-- What stands for a number below the bound is a double of that number. -/
theorem HasLevel.value?_of_lt {x : Float} (h : HasLevel x q) (hq : |q| < bound) : value? x = some q := by
  cases h with
  | finite h => exact h
  | infinite negative =>
    refine absurd hq (not_lt.mpr ?_)
    cases negative <;> simp [signOf, abs_of_pos bound_pos]

theorem HasLevel.eq_of_value? {x : Float} (h : HasLevel x q) (hp : value? x = some p) : p = q := by
  cases h with
  | finite h => exact Option.some.inj (hp.symm.trans h)
  | infinite negative =>
    rw [value?, scaled?_infinity] at hp
    cases hp

/-- A product of doubles below a power of two is within half a unit of the exact one. -/
theorem exists_value?_mul {x y : Float} (hx : value? x = some p) (hy : value? y = some q) {k : ℤ}
    (hk : -1021 ≤ k) (hmax : k < 1024) (h : |p * q| < 2 ^ k) :
    ∃ z, value? (x * y) = some z ∧ |z - p * q| ≤ 2 ^ (k - 54) := by
  obtain ⟨r, hr⟩ := exists_rounds (abs_nonneg (p * q))
  have hbound : r < bound :=
    (hr.le_pow (abs_nonneg _) (by omega) h.le).trans_lt (zpow_lt_zpow_right₀ one_lt_two hmax)
  refine ⟨_, value?_mul_of_rounds hx hy hr hbound, ?_⟩
  rw [abs_withSize_sub]
  exact hr.abs_sub_le (abs_nonneg _) hk h

/-- A quotient makes the double of what its size is rounded to. -/
theorem exists_rounds_ofSignedRatio (num : ℤ) {den : ℕ} (hden : 0 < den) :
    ∃ r, Rounds |(num : ℚ) / den| r ∧
      HasLevel (ofSignedRatio num den) (withSize (num / den) (min r bound)) := by
  have hpos : (0 : ℚ) < den := by exact_mod_cast hden
  rcases eq_or_ne num 0 with rfl | hne
  · obtain ⟨r, hr⟩ := exists_rounds (le_refl (0 : ℚ))
    have hzero : ((0 : ℤ) : ℚ) / den = 0 := by simp
    have hvalue := value?_ofSignedRatio 0 hden (.inl hzero)
    rw [hzero] at hvalue ⊢
    rw [abs_zero]
    refine ⟨r, hr, ?_⟩
    rw [hr.eq_zero, min_eq_left bound_pos.le, withSize, if_pos le_rfl]
    exact .finite hvalue
  obtain ⟨r, hr, hlevel⟩ := exists_rounds_ofRatio (num < 0) (Int.natAbs_pos.mpr hne) hden
  have hsize : ((num.natAbs : ℕ) : ℚ) / den = |(num : ℚ) / den| := by
    rw [abs_div, Nat.abs_cast, Nat.cast_natAbs, Int.cast_abs]
  have hsign : 0 ≤ (num : ℚ) / den ↔ ¬ num < 0 := by
    rw [le_div_iff₀ hpos, zero_mul, not_lt]
    exact_mod_cast Iff.rfl
  have hsigned : signOf (num < 0) * min r bound = withSize ((num : ℚ) / den) (min r bound) := by
    rw [signOf, withSize]
    simp only [hsign, decide_eq_true_eq, ite_not]
    split_ifs <;> ring
  exact ⟨r, hsize ▸ hr, hsigned ▸ hlevel⟩

/-- The double of a quotient below a power of two is within half a unit of the quotient. -/
theorem exists_value?_ofSignedRatio (num : ℤ) {den : ℕ} (hden : 0 < den) {k : ℤ} (hk : -1021 ≤ k)
    (hmax : k < 1024) (h : |(num : ℚ) / den| < 2 ^ k) :
    ∃ z, value? (ofSignedRatio num den) = some z ∧ |z - num / den| ≤ 2 ^ (k - 54) := by
  obtain ⟨r, hr, hlevel⟩ := exists_rounds_ofSignedRatio num hden
  have hbound : r < bound :=
    (hr.le_pow (abs_nonneg _) (by omega) h.le).trans_lt (zpow_lt_zpow_right₀ one_lt_two hmax)
  rw [min_eq_left hbound.le] at hlevel
  refine ⟨_, hlevel.value?_of_lt ?_, ?_⟩
  · rw [abs_withSize, abs_of_nonneg hr.nonneg]
    exact hbound
  · rw [abs_withSize_sub]
    exact hr.abs_sub_le (abs_nonneg _) hk h

/-- If the double of a quotient is below a power of two, so is the quotient. -/
theorem abs_lt_of_value?_ofSignedRatio {num : ℤ} {den : ℕ} (hden : 0 < den)
    (hq : value? (ofSignedRatio num den) = some q) {k : ℤ} (hk : -1022 ≤ k) (hmax : k < 1024)
    (h : |q| < 2 ^ k) :
    |(num : ℚ) / den| < 2 ^ k := by
  by_contra hlarge
  obtain ⟨r, hr, hlevel⟩ := exists_rounds_ofSignedRatio num hden
  have hpow : (2 : ℚ) ^ k ≤ r := (rounds_pow hk).mono hr (zpow_pos two_pos k).le (not_lt.mp hlarge)
  have hsize : |q| = min r bound := by
    rw [hlevel.eq_of_value? hq, abs_withSize, abs_of_nonneg (le_min hr.nonneg bound_pos.le)]
  refine absurd h (not_lt.mpr ?_)
  rw [hsize]
  exact le_min hpow (zpow_le_zpow_right₀ one_le_two hmax.le)

end TwinStore.Number.Binary64
