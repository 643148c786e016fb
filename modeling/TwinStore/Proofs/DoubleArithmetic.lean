import TwinStore.Proofs.DecimalValues
import TwinStore.Proofs.Doubles

/-!
# Exact arithmetic of doubles

Sums, differences and products of doubles are rounded to the nearest double, so they are exact where
the result is a double itself.  The order of doubles is that of the numbers they stand for.

Main definitions:

- `Binary64.value?`: the rational number that a finite double stands for.
- `Binary64.IsDouble`: the rational numbers that doubles stand for.
- `Binary64.HasValue`: a number in its parts, as operations on doubles take and leave it.

Main results:

- Theorem `value?_ofSignedRatio`: a quotient that is a double makes that double.
- Theorem `value?_add`, `value?_sub`, `value?_mul`: sums, differences and products that are doubles.
- Theorem `lt_iff`: the order of doubles.
- Theorem `Scaled.truncate_eq`: the integral part of a double, by its value.
-/

namespace TwinStore.Number.Binary64

open Float.Model Float.Model.UnpackedFloat

/-! ## Values -/

/-- The number that a scaled double stands for. -/
def Scaled.value (s : Scaled) : ℚ := s.mantissa * 2 ^ s.exponent

/-- The number that a finite double stands for. -/
def value? (x : Float) : Option ℚ := (scaled? x).map Scaled.value

/-- A double of a known value is finite. -/
theorem exists_scaled {x : Float} {q : ℚ} (h : value? x = some q) :
    ∃ s, scaled? x = some s ∧ s.value = q :=
  Option.map_eq_some_iff.mp h

/-- The number of an integral double, by its bits. -/
theorem value?_of_scaled {x : Float} {n : ℤ} {k : ℕ} (h : scaled? x = some ⟨n * 2 ^ k, -k⟩) :
    value? x = some (n : ℚ) := by
  rw [value?, h, Option.map_some, Scaled.value]
  push_cast
  rw [mul_assoc, ← zpow_natCast, ← zpow_add₀ two_ne_zero, add_neg_cancel, zpow_zero, mul_one]

/-- The number that the parts of a double stand for. -/
def partsValue? : UnpackedFloat → Option ℚ
  | .zero _ => some 0
  | .finite s m e _ => some (s.apply m * 2 ^ e)
  | _ => none

/-- The parts of doubles: a multiple stands on the grid, and its exponent has a limit. -/
def IsCanonical : UnpackedFloat → Prop
  | .finite _ m e _ => OnGrid m e ∧ e ≤ 971
  | _ => True

/-! ## Patterns -/

/-- A leading one in front of a mantissa. -/
theorem toNat_full (v : BitVec 52) : (1#1 ++ v).toNat = 2 ^ 52 + v.toNat := by
  rw [BitVec.toNat_append, ← Nat.shiftLeft_add_eq_or_of_lt v.isLt]
  rfl

/-- A pattern has the parts of a double. -/
theorem isCanonical_unpack (b : BitVec 64) :
    IsCanonical (UnpackedFloat.unpack Format.binary64 b) := by
  have hmantissa := (@unpackMantissa Format.binary64 b).isLt
  have hexponent : (@unpackExponent Format.binary64 b).toNat < 2 ^ 11 :=
    (@unpackExponent Format.binary64 b).isLt
  have hbias : (Format.binary64.exponentBias : ℤ) = 1023 := rfl
  have hwidth : Format.binary64.mantissaBitsWithoutImplicit = 52 := rfl
  unfold UnpackedFloat.unpack
  simp only
  split_ifs with hspecial hzero hempty hzero
  · trivial
  · trivial
  · trivial
  · have hpos : 0 < (@unpackMantissa Format.binary64 b).toNat := by
      rw [Nat.pos_iff_ne_zero]
      exact fun h => hzero (BitVec.eq_of_toNat_eq h)
    have : (@unpackExponent Format.binary64 b).toNat = 0 := by rw [hempty]; rfl
    refine ⟨⟨hpos, hmantissa.trans (by decide), ?_, Or.inr ?_⟩, ?_⟩ <;> omega
  · have hne : (@unpackExponent Format.binary64 b).toNat ≠ 0 :=
      fun h => hempty (BitVec.eq_of_toNat_eq h)
    have hlast : (@unpackExponent Format.binary64 b).toNat ≠ 2047 :=
      fun h => hspecial (BitVec.eq_of_toNat_eq h)
    have hfull := toNat_full (@unpackMantissa Format.binary64 b)
    refine ⟨⟨?_, ?_, ?_, Or.inl ?_⟩, ?_⟩
    · exact hfull ▸ (by omega)
    · exact hfull ▸ (by omega)
    · omega
    · exact hfull ▸ (by omega)
    · omega

/-- The bits of a pattern that is made from its parts. -/
theorem toNat_packComponents (s : Sign) (exponent : BitVec 11) (mantissa : BitVec 52) :
    (packComponents Format.binary64 s exponent mantissa).toNat =
      s.toBitVec.toNat * 2 ^ 63 + exponent.toNat * 2 ^ 52 + mantissa.toNat := by
  have happend {m n : ℕ} (x : BitVec m) (y : BitVec n) :
      (x ++ y).toNat = x.toNat * 2 ^ n + y.toNat := by
    rw [BitVec.toNat_append, ← Nat.shiftLeft_add_eq_or_of_lt y.isLt, Nat.shiftLeft_eq]
  have hparts : (packComponents Format.binary64 s exponent mantissa).toNat =
      (s.toBitVec.toNat * 2 ^ 11 + exponent.toNat) * 2 ^ 52 + mantissa.toNat := by
    rw [← happend, ← happend]
    rfl
  rw [hparts]
  ring

/-- The bits of a multiple on the grid. -/
theorem toNat_pack (s : Sign) {m : ℕ} {e : ℤ} (hgrid : OnGrid m e) (hmax : e ≤ 971) (hpos : 0 < m) :
    (UnpackedFloat.pack Format.binary64 (.finite s m e hpos)).toNat = s.toBitVec.toNat * 2 ^ 63 +
      (if m < 2 ^ 52 then m else (e + 1075).toNat * 2 ^ 52 + (m - 2 ^ 52)) := by
  have hlt := hgrid.lt
  have hmin := hgrid.exponent
  by_cases hfull : m < 2 ^ 52
  · have hmantissa : (BitVec.ofNat 52 m).toNat = m := by
      rw [BitVec.toNat_ofNat, Nat.mod_eq_of_lt hfull]
    have hsub := hgrid.full.resolve_left (by omega)
    have hpack := @pack_subnormal s (BitVec.ofNat 52 m) _ hsub (by omega)
    simp only [hmantissa] at hpack
    rw [hpack, toNat_packComponents, hmantissa, if_pos hfull]
    simp
  · have hexponent : (BitVec.ofNat 11 (e + 1075).toNat).toNat = (e + 1075).toNat := by
      rw [BitVec.toNat_ofNat, Nat.mod_eq_of_lt (by omega)]
    have hmantissa : (BitVec.ofNat 52 (m - 2 ^ 52)).toNat = m - 2 ^ 52 := by
      rw [BitVec.toNat_ofNat, Nat.mod_eq_of_lt (by omega)]
    rw [@pack_normal s (BitVec.ofNat 11 (e + 1075).toNat) (BitVec.ofNat 52 (m - 2 ^ 52)) _ _
      (by omega) (by omega) (by omega) hpos, toNat_packComponents, hexponent, hmantissa,
      if_neg hfull, Nat.add_assoc]

/-- A multiple on the grid is the number of the double that it is packed into. -/
theorem scaled?_pack (s : Sign) {m : ℕ} {e : ℤ} (hgrid : OnGrid m e) (hmax : e ≤ 971)
    (hpos : 0 < m) :
    scaled? ⟨Float.Model.pack (.finite s m e hpos)⟩ = some ⟨s.apply m, e⟩ := by
  have hlt := hgrid.lt
  have hmin := hgrid.exponent
  have hbits : (Float.toBits ⟨Float.Model.pack (.finite s m e hpos)⟩).toNat = _ :=
    toNat_pack s hgrid hmax hpos
  have hsign : s.toBitVec.toNat = 0 ∧ (∀ n, s.apply n = 1 * n) ∨
      s.toBitVec.toNat = 1 ∧ (∀ n, s.apply n = -1 * n) := by
    cases s
    · exact Or.inr ⟨rfl, fun n => (neg_one_mul n).symm⟩
    · exact Or.inl ⟨rfl, fun n => (one_mul n).symm⟩
  unfold scaled?
  rw [hbits]
  generalize s.toBitVec.toNat = bit at hsign
  split_ifs with hfull
  · have hsub := hgrid.full.resolve_left (by omega)
    obtain ⟨rfl, happly⟩ | ⟨rfl, happly⟩ := hsign
    · simp only [happly]
      rw [if_neg (by omega), if_pos (by omega), if_neg (by omega), hsub]
      congr 4
      omega
    · simp only [happly]
      rw [if_neg (by omega), if_pos (by omega), if_pos (by omega), hsub]
      congr 4
      omega
  · obtain ⟨rfl, happly⟩ | ⟨rfl, happly⟩ := hsign
    · simp only [happly]
      rw [if_neg (by omega), if_neg (by omega), if_neg (by omega)]
      congr <;> omega
    · simp only [happly]
      rw [if_neg (by omega), if_neg (by omega), if_pos (by omega)]
      congr <;> omega

/-- A multiple on the grid is the number of the double that is made from it. -/
theorem scaled?_encode (negative : Bool) {m : ℕ} {e : ℤ} (hgrid : OnGrid m e) (hmax : e ≤ 971) :
    scaled? (encode negative m e) = some ⟨(if negative then -1 else 1) * m, e⟩ := by
  have hlt := hgrid.lt
  have hpack (s : Sign) (hs : s.toBitVec.toNat * 2 ^ 63 = if negative then 2 ^ 63 else 0) :
      encode negative m e = ⟨Float.Model.pack (.finite s m e hgrid.pos)⟩ := by
    have hbits : (Float.toBits ⟨Float.Model.pack (.finite s m e hgrid.pos)⟩).toNat = _ :=
      toNat_pack s hgrid hmax hgrid.pos
    rw [hs] at hbits
    rw [← ofBits_toBits ⟨Float.Model.pack (.finite s m e hgrid.pos)⟩]
    unfold encode
    simp only
    rw [if_neg (by split_ifs <;> omega), ← hbits, UInt64.ofNat_toNat]
  cases negative
  · rw [hpack .positive rfl, scaled?_pack _ hgrid hmax, if_neg Bool.false_ne_true, one_mul]
    rfl
  · rw [hpack .negative rfl, scaled?_pack _ hgrid hmax, if_pos rfl, neg_one_mul]
    rfl

/-! ## Parts -/

/-- A number in its parts, as doubles have them. -/
structure HasValue (u : UnpackedFloat) (q : ℚ) : Prop where
  value : partsValue? u = some q
  canonical : IsCanonical u

/-- Parts have a number if they are those of zero or of a multiple on the grid. -/
theorem HasValue.cases {u : UnpackedFloat} {q : ℚ} (h : HasValue u q) :
    (∃ s, u = .zero s ∧ q = 0) ∨ ∃ s m e, ∃ hpos : 0 < m, u = .finite s m e hpos ∧
      OnGrid m e ∧ e ≤ 971 ∧ q = s.apply m * 2 ^ e := by
  obtain ⟨hvalue, hcanonical⟩ := h
  cases u with
  | infinity s => simp [partsValue?] at hvalue
  | notANumber => simp [partsValue?] at hvalue
  | zero s => exact Or.inl ⟨s, rfl, (Option.some.inj hvalue).symm⟩
  | finite s m e hpos =>
    exact Or.inr ⟨s, m, e, hpos, rfl, hcanonical.1, hcanonical.2, (Option.some.inj hvalue).symm⟩

/-- The parts of zero. -/
theorem hasValue_zero (s : Sign) : HasValue (.zero s) 0 := ⟨rfl, trivial⟩

/-- The parts of a multiple on the grid. -/
theorem hasValue_finite (s : Sign) {m : ℕ} {e : ℤ} (hgrid : OnGrid m e) (hmax : e ≤ 971)
    (hpos : 0 < m) : HasValue (.finite s m e hpos) (s.apply m * 2 ^ e) := ⟨rfl, hgrid, hmax⟩

/-- A double is packed from its parts. -/
theorem pack_unpack_toModel (x : Float) : ⟨Float.Model.pack x.toModel.unpack⟩ = x :=
  ofBits_toBits x

/-- A double that is packed from parts has their number. -/
theorem HasValue.value?_pack {u : UnpackedFloat} {q : ℚ} (h : HasValue u q) :
    value? ⟨Float.Model.pack u⟩ = some q := by
  obtain ⟨s, rfl, rfl⟩ | ⟨s, m, e, hpos, rfl, hgrid, hmax, rfl⟩ := h.cases
  · have hscaled : scaled? ⟨Float.Model.pack (.zero s)⟩ = some ⟨0, -1074⟩ := by
      cases s <;> decide +kernel
    rw [value?, hscaled]
    simp [Scaled.value]
  · rw [value?, scaled?_pack s hgrid hmax]
    rfl

/-- The parts of a double have its number. -/
theorem hasValue_unpack {x : Float} {q : ℚ} (h : value? x = some q) :
    HasValue x.toModel.unpack q := by
  refine ⟨?_, isCanonical_unpack _⟩
  have hcanonical : IsCanonical x.toModel.unpack := isCanonical_unpack _
  rw [← pack_unpack_toModel x] at h
  generalize x.toModel.unpack = u at h hcanonical
  cases u with
  | infinity s =>
    have hnone : scaled? ⟨Float.Model.pack (.infinity s)⟩ = none := by cases s <;> decide +kernel
    rw [value?, hnone] at h
    simp at h
  | notANumber =>
    rw [value?, show scaled? ⟨Float.Model.pack .notANumber⟩ = none by decide +kernel] at h
    simp at h
  | zero s =>
    rw [← h, (hasValue_zero s).value?_pack]
    rfl
  | finite s m e hpos =>
    rw [← h, (hasValue_finite s hcanonical.1 hcanonical.2 hpos).value?_pack]
    rfl

/-! ## Rounding -/

/-- A mantissa with zeros at its end stands for the same number as the one without them. -/
theorem mantissa_eq {m a : ℕ} {e t : ℤ} (hvalue : (m : ℚ) * 2 ^ e = a * 2 ^ t) (he : e ≤ t) :
    m = a * 2 ^ (t - e).toNat := by
  have hpow : (2 : ℚ) ^ t = 2 ^ (t - e).toNat * 2 ^ e := by
    rw [← zpow_natCast, Int.toNat_of_nonneg (by omega), ← zpow_add₀ two_ne_zero]
    congr 1
    omega
  rw [hpow, ← mul_assoc] at hvalue
  exact_mod_cast mul_right_cancel₀ (zpow_ne_zero e two_ne_zero) hvalue

/-- The binary logarithm of a multiple of a power of two. -/
theorem log_mul_zpow {m : ℕ} (hm : 0 < m) (e : ℤ) : Int.log 2 ((m : ℚ) * 2 ^ e) = m.log2 + e := by
  have hm : (0 : ℚ) < m := by exact_mod_cast hm
  have hpow : (0 : ℚ) < 2 ^ e := zpow_pos two_pos e
  refine eq_of_forall_le_iff fun x => ?_
  rw [le_log_iff (mul_pos hm hpow), ← div_le_iff₀ hpow, ← zpow_sub₀ two_ne_zero, ← le_log_iff hm,
    Int.log_natCast, Nat.log2_eq_log_two, sub_le_iff_le_add]

/-- The exponent that doubles have for a number is the exponent of its multiple on the grid. -/
theorem targetExponent_eq {m a : ℕ} {e t : ℤ} (hgrid : OnGrid a t)
    (hvalue : (m : ℚ) * 2 ^ e = a * 2 ^ t) :
    Format.binary64.targetExponent (Float.Model.totalExponent m e) = t := by
  have hpos : 0 < m := by
    by_contra hzero
    obtain rfl : m = 0 := by omega
    have : (0 : ℚ) < a * 2 ^ t := mul_pos (by exact_mod_cast hgrid.pos) (zpow_pos two_pos t)
    rw [← hvalue, Nat.cast_zero, zero_mul] at this
    exact lt_irrefl _ this
  have htotal : (m.log2 : ℤ) + e = a.log2 + t := by
    rw [← log_mul_zpow hpos, ← log_mul_zpow hgrid.pos, hvalue]
  have hlt : a.log2 < 53 := (Nat.log2_lt hgrid.pos.ne').mpr hgrid.lt
  have hmin := hgrid.exponent
  have hbits : (Format.binary64.mantissaBits : ℤ) = 53 := rfl
  have hleast : Format.binary64.minExponent = -1074 := by decide
  unfold Format.targetExponent Float.Model.totalExponent
  rw [hbits, hleast]
  rcases hgrid.full with hfull | hsub
  · have : 52 ≤ a.log2 := (Nat.le_log2 hgrid.pos.ne').mpr hfull
    omega
  · omega

/-- Zeros at the end of a mantissa leave nothing behind. -/
theorem repeat_shiftRightOne (a k : ℕ) :
    k.repeat ExtendedMantissa.shiftRightOne ⟨a * 2 ^ k, false, false⟩ = ⟨a, false, false⟩ := by
  induction k generalizing a with
  | zero => rw [Nat.pow_zero, Nat.mul_one]; rfl
  | succ k ih =>
    rw [Nat.repeat, Nat.pow_succ', ← Nat.mul_assoc, ih]
    simp [ExtendedMantissa.shiftRightOne]

/-- A mantissa is shifted to the exponent of its multiple on the grid, without a rest. -/
theorem shiftToTargetExponent_eq {m a : ℕ} {e t : ℤ} (hgrid : OnGrid a t)
    (hvalue : (m : ℚ) * 2 ^ e = a * 2 ^ t) (he : e ≤ t) :
    shiftToTargetExponent Format.binary64 m e .exact = (⟨a, false, false⟩, t) := by
  unfold shiftToTargetExponent shiftToExponent
  simp only [targetExponent_eq hgrid hvalue]
  refine Prod.ext ?_ ?_
  · show (t - e).toNat.repeat ExtendedMantissa.shiftRightOne ⟨m, false, false⟩ = _
    rw [mantissa_eq hvalue he, repeat_shiftRightOne]
  · show e + (t - e).toNat = t
    omega

/-- A mantissa with zeros at its end is rounded to its multiple on the grid. -/
theorem roundWithAccuracy_eq (s : Sign) {m a : ℕ} {e t : ℤ} (hgrid : OnGrid a t)
    (hvalue : (m : ℚ) * 2 ^ e = a * 2 ^ t) (he : e ≤ t) :
    roundWithAccuracy Format.binary64 s m e .exact = .finite s a t hgrid.pos := by
  unfold roundWithAccuracy
  simp only [shiftToTargetExponent_eq hgrid hvalue he]
  have hrounded : (ExtendedMantissa.mk a false false).roundedMantissa = a := rfl
  simp only [hrounded, shiftToTargetExponent_eq hgrid rfl le_rfl]
  rw [dif_neg hgrid.pos.ne']

/-- A multiple on the grid is what it is rounded to, however it is written. -/
theorem round_eq (s : Sign) {m a : ℕ} {e t : ℤ} (hgrid : OnGrid a t)
    (hvalue : (m : ℚ) * 2 ^ e = a * 2 ^ t) :
    UnpackedFloat.round Format.binary64 s m e = .finite s a t hgrid.pos := by
  unfold UnpackedFloat.round decreaseExponent
  simp only [targetExponent_eq hgrid hvalue]
  refine roundWithAccuracy_eq s hgrid ?_ (by omega)
  rw [← hvalue, Nat.shiftLeft_eq, Nat.cast_mul, mul_assoc, Nat.cast_pow, Nat.cast_ofNat,
    ← zpow_natCast, ← zpow_add₀ two_ne_zero]
  congr 2
  omega

/-! ## Numbers of doubles -/

/-- The numbers that finite doubles stand for. -/
def IsDouble (q : ℚ) : Prop := q = 0 ∨ ∃ m e, OnGrid m e ∧ e ≤ 971 ∧ |q| = m * 2 ^ e

/-- Whole multiples of powers of two are doubles up to a size. -/
theorem isDouble_mul_pow {n : ℤ} (hn : n.natAbs < 2 ^ 53) {k : ℤ} (hlow : -1022 ≤ k)
    (hhigh : k ≤ 971) : IsDouble (n * 2 ^ k) := by
  rcases eq_or_ne n 0 with rfl | hne
  · exact Or.inl (by simp)
  · have hpos : 0 < n.natAbs := Int.natAbs_pos.mpr hne
    have hlog : n.natAbs.log2 ≤ 52 := Nat.lt_succ_iff.mp ((Nat.log2_lt hpos.ne').mpr hn)
    have hsplit : 2 ^ n.natAbs.log2 * 2 ^ (52 - n.natAbs.log2) = 2 ^ 52 := by
      rw [← pow_add]
      congr 1
      omega
    have hlower : 2 ^ n.natAbs.log2 ≤ n.natAbs := Nat.log2_self_le hpos.ne'
    have hupper : n.natAbs < 2 ^ (n.natAbs.log2 + 1) := Nat.lt_log2_self
    have hscale : 0 < 2 ^ (52 - n.natAbs.log2) := Nat.two_pow_pos _
    refine Or.inr ⟨n.natAbs * 2 ^ (52 - n.natAbs.log2), k - (52 - n.natAbs.log2 : ℕ),
      ⟨Nat.mul_pos hpos hscale, ?_, by omega, Or.inl ?_⟩, by omega, ?_⟩
    · calc n.natAbs * 2 ^ (52 - n.natAbs.log2)
          < 2 ^ (n.natAbs.log2 + 1) * 2 ^ (52 - n.natAbs.log2) :=
            Nat.mul_lt_mul_of_pos_right hupper hscale
        _ = 2 * (2 ^ n.natAbs.log2 * 2 ^ (52 - n.natAbs.log2)) := by ring
        _ = 2 ^ 53 := by rw [hsplit]; rfl
    · rw [← hsplit]
      exact Nat.mul_le_mul_right _ hlower
    · rw [abs_mul, abs_of_pos (zpow_pos two_pos k : (0 : ℚ) < 2 ^ k), zpow_sub₀ two_ne_zero,
        zpow_natCast]
      push_cast
      rw [Nat.cast_natAbs, Int.cast_abs]
      field_simp

/-- A sign and a size. -/
theorem abs_apply (s : Sign) (m : ℕ) : |((s.apply m : ℤ) : ℚ)| = m := by
  cases s <;> simp [Sign.apply]

/-- A sign in front of two multiples of powers of two that are one number. -/
theorem apply_congr (s : Sign) {m a : ℕ} {e t : ℤ} (h : (m : ℚ) * 2 ^ e = a * 2 ^ t) :
    ((s.apply m : ℤ) : ℚ) * 2 ^ e = s.apply a * 2 ^ t := by
  cases s <;> simp [Sign.apply, h]

/-- The opposite sign. -/
theorem apply_neg (s : Sign) (m : ℕ) : (-s).apply m = -s.apply m := by
  cases s
  · exact (Int.neg_neg m).symm
  · rfl

/-- A multiple on the grid is told by its size. -/
theorem IsDouble.cases {s : Sign} {m : ℕ} {e : ℤ} (h : IsDouble (s.apply m * 2 ^ e)) (hm : m ≠ 0) :
    ∃ a t, OnGrid a t ∧ t ≤ 971 ∧ (m : ℚ) * 2 ^ e = a * 2 ^ t := by
  have hpow : (0 : ℚ) < 2 ^ e := zpow_pos two_pos e
  have habs : |((s.apply m : ℤ) : ℚ) * 2 ^ e| = m * 2 ^ e := by
    rw [abs_mul, abs_apply, abs_of_pos hpow]
  obtain hzero | ⟨a, t, hgrid, hmax, h⟩ := h
  · rw [hzero, abs_zero] at habs
    exact absurd habs.symm (mul_ne_zero (Nat.cast_ne_zero.mpr hm) hpow.ne')
  · exact ⟨a, t, hgrid, hmax, habs ▸ h⟩

/-- A multiple is rounded to itself if it is a double. -/
theorem hasValue_round (s : Sign) {m : ℕ} {e : ℤ} (hm : m ≠ 0) (h : IsDouble (s.apply m * 2 ^ e)) :
    HasValue (UnpackedFloat.round Format.binary64 s m e) (s.apply m * 2 ^ e) := by
  obtain ⟨a, t, hgrid, hmax, hvalue⟩ := h.cases hm
  rw [round_eq s hgrid hvalue, apply_congr s hvalue]
  exact hasValue_finite s hgrid hmax hgrid.pos

/-- A signed multiple is rounded to itself if it is a double. -/
theorem hasValue_normalize (s : Sign) {n e : ℤ} (h : IsDouble (n * 2 ^ e)) :
    HasValue (UnpackedFloat.normalize Format.binary64 n e s) (n * 2 ^ e) := by
  rcases eq_or_ne n 0 with rfl | hne
  · rw [Int.cast_zero, zero_mul]
    exact hasValue_zero s
  · obtain ⟨s', hsign, hround⟩ : ∃ s' : Sign, s'.apply n.natAbs = n ∧
        UnpackedFloat.normalize Format.binary64 n e s =
          UnpackedFloat.round Format.binary64 s' n.natAbs e := by
      unfold UnpackedFloat.normalize
      rcases lt_or_gt_of_ne hne with hneg | hpos
      · rw [compare_lt_iff_lt.mpr hneg]
        exact ⟨.negative, by simp only [Sign.apply]; omega, by simp only; congr 1; omega⟩
      · rw [compare_gt_iff_gt.mpr hpos]
        exact ⟨.positive, by simp only [Sign.apply]; omega, by simp only; congr 1; omega⟩
    have hvalue := hasValue_round s' (m := n.natAbs) (e := e) (Int.natAbs_ne_zero.mpr hne)
    rw [hsign] at hvalue
    rw [hround]
    exact hvalue h

/-- A mantissa at a smaller exponent. -/
theorem decreaseExponent_value (s : Sign) (m : ℕ) {e t : ℤ} (h : t ≤ e) :
    ((s.apply (decreaseExponent m e t).1 : ℤ) : ℚ) * 2 ^ t = s.apply m * 2 ^ e := by
  have hpow : (2 : ℚ) ^ e = 2 ^ (e - t).toNat * 2 ^ t := by
    rw [← zpow_natCast, Int.toNat_of_nonneg (by omega), ← zpow_add₀ two_ne_zero]
    congr 1
    omega
  rw [hpow, ← mul_assoc]
  congr 1
  unfold decreaseExponent
  simp only [Nat.shiftLeft_eq]
  cases s <;> simp [Sign.apply]

/-! ## Operations on parts -/

/-- The sum of parts, if it is a double. -/
theorem HasValue.add {u v : UnpackedFloat} {p q : ℚ} (hu : HasValue u p) (hv : HasValue v q)
    (h : IsDouble (p + q)) : HasValue (UnpackedFloat.add Format.binary64 u v) (p + q) := by
  obtain ⟨s, rfl, rfl⟩ | ⟨s, m, e, hpos, rfl, -, -, rfl⟩ := hu.cases
  · rw [zero_add]
    obtain ⟨s', rfl, rfl⟩ | ⟨s', m', e', hpos', rfl, -, -, rfl⟩ := hv.cases
    · cases s <;> cases s' <;> exact hasValue_zero _
    · exact hv
  · obtain ⟨s', rfl, rfl⟩ | ⟨s', m', e', hpos', rfl, -, -, rfl⟩ := hv.cases
    · rw [add_zero]
      exact hu
    · have hsum := hasValue_normalize .positive
        (n := s.apply (decreaseExponent m e (min e e')).1 +
          s'.apply (decreaseExponent m' e' (min e e')).1)
        (e := min e e')
      rw [Int.cast_add, add_mul, decreaseExponent_value _ _ (min_le_left e e'),
        decreaseExponent_value _ _ (min_le_right e e')] at hsum
      exact hsum h

/-- The opposite of parts. -/
theorem HasValue.neg {u : UnpackedFloat} {q : ℚ} (h : HasValue u q) : HasValue u.neg (-q) := by
  obtain ⟨s, rfl, rfl⟩ | ⟨s, m, e, hpos, rfl, hgrid, hmax, rfl⟩ := h.cases
  · rw [neg_zero]
    exact hasValue_zero _
  · rw [← neg_mul, ← Int.cast_neg, ← apply_neg]
    exact hasValue_finite (-s) hgrid hmax hpos

/-- A difference of parts is the sum with the opposite. -/
theorem sub_eq_add_neg_parts (u v : UnpackedFloat) : UnpackedFloat.sub Format.binary64 u v =
    UnpackedFloat.add Format.binary64 u v.neg := by
  cases u <;> cases v <;> try rfl
  simp only [UnpackedFloat.sub, UnpackedFloat.add, UnpackedFloat.neg, apply_neg, Int.sub_eq_add_neg]

/-- The product of signs. -/
theorem apply_mul (s s' : Sign) (m m' : ℕ) :
    (s * s').apply (m * m' : ℕ) = s.apply m * s'.apply m' := by
  cases s <;> cases s' <;> simp [Sign.apply]

/-- The product of parts, if it is a double. -/
theorem HasValue.mul {u v : UnpackedFloat} {p q : ℚ} (hu : HasValue u p) (hv : HasValue v q)
    (h : IsDouble (p * q)) : HasValue (UnpackedFloat.mul Format.binary64 u v) (p * q) := by
  obtain ⟨s, rfl, rfl⟩ | ⟨s, m, e, hpos, rfl, hgrid, -, rfl⟩ := hu.cases
  · rw [zero_mul]
    obtain ⟨s', rfl, rfl⟩ | ⟨s', m', e', hpos', rfl, -, -, rfl⟩ := hv.cases
    · exact hasValue_zero _
    · exact hasValue_zero _
  · obtain ⟨s', rfl, rfl⟩ | ⟨s', m', e', hpos', rfl, hgrid', -, rfl⟩ := hv.cases
    · rw [mul_zero]
      exact hasValue_zero _
    · have hproduct : ((s.apply m : ℤ) * 2 ^ e * ((s'.apply m' : ℤ) * 2 ^ e') : ℚ) =
          ((s * s').apply (m * m' : ℕ) : ℤ) * 2 ^ (e + e') := by
        rw [apply_mul, zpow_add₀ two_ne_zero]
        push_cast
        ring
      rw [hproduct] at h ⊢
      obtain ⟨a, t, hgrida, hmax, hvalue⟩ := h.cases (Nat.mul_ne_zero hpos.ne' hpos'.ne')
      have hle : e + e' ≤ t := by
        by_contra hlt
        have ha := mantissa_eq hvalue.symm (by omega)
        have htwo : 2 ≤ 2 ^ (e + e' - t).toNat := Nat.le_self_pow (by omega) 2
        have hsmall : m * m' < 2 ^ 52 := by
          have : m * m' * 2 ≤ a := ha ▸ Nat.mul_le_mul_left _ htwo
          have := hgrida.lt
          omega
        have hleft : m < 2 ^ 52 := (Nat.le_mul_of_pos_right m hpos').trans_lt hsmall
        have hright : m' < 2 ^ 52 := (Nat.le_mul_of_pos_left m' hpos).trans_lt hsmall
        have := hgrid.full
        have := hgrid'.full
        have := hgrida.exponent
        omega
      show HasValue (roundWithAccuracy Format.binary64 (s * s') (m * m') (e + e') .exact) _
      rw [roundWithAccuracy_eq (s * s') hgrida hvalue hle, apply_congr (s * s') hvalue]
      exact hasValue_finite (s * s') hgrida hmax hgrida.pos

/-- The absolute value of parts. -/
theorem HasValue.abs {u : UnpackedFloat} {q : ℚ} (h : HasValue u q) : HasValue u.abs |q| := by
  obtain ⟨s, rfl, rfl⟩ | ⟨s, m, e, hpos, rfl, hgrid, hmax, rfl⟩ := h.cases
  · rw [abs_zero]
    exact hasValue_zero _
  · rw [abs_mul, abs_apply, abs_of_pos (zpow_pos two_pos e : (0 : ℚ) < 2 ^ e)]
    exact hasValue_finite .positive hgrid hmax hpos

/-- The order of multiples on the grid is that of the exponents, then that of the mantissas. -/
theorem compare_grid {m m' : ℕ} {e e' : ℤ} (h : OnGrid m e) (h' : OnGrid m' e') :
    (compare e e').then (compare m m') = compare ((m : ℚ) * 2 ^ e) (m' * 2 ^ e') := by
  have hlt {m m' : ℕ} {e e' : ℤ} (h : OnGrid m e) (h' : OnGrid m' e') (hlt : e < e') :
      (m : ℚ) * 2 ^ e < m' * 2 ^ e' := by
    have hfull : 2 ^ 52 ≤ m' := h'.full.resolve_right (by have := h.exponent; omega)
    calc (m : ℚ) * 2 ^ e < 2 ^ 53 * 2 ^ e :=
          mul_lt_mul_of_pos_right (by exact_mod_cast h.lt) (zpow_pos two_pos e)
      _ = 2 ^ 52 * 2 ^ (e + 1) := by
          rw [zpow_add₀ two_ne_zero, zpow_one]
          ring
      _ ≤ m' * 2 ^ e' :=
          mul_le_mul (by exact_mod_cast hfull) (zpow_le_zpow_right₀ one_le_two (by omega))
            (zpow_pos two_pos _).le (Nat.cast_nonneg m')
  rcases lt_trichotomy e e' with he | rfl | he
  · rw [compare_lt_iff_lt.mpr he, compare_lt_iff_lt.mpr (hlt h h' he)]
    rfl
  · rw [compare_eq_iff_eq.mpr rfl]
    show compare m m' = _
    have hpow : (0 : ℚ) < 2 ^ e := zpow_pos two_pos e
    rcases lt_trichotomy m m' with hm | rfl | hm
    · rw [compare_lt_iff_lt.mpr hm, eq_comm, compare_lt_iff_lt]
      exact mul_lt_mul_of_pos_right (by exact_mod_cast hm) hpow
    · rw [compare_eq_iff_eq.mpr rfl, compare_eq_iff_eq.mpr rfl]
    · rw [compare_gt_iff_gt.mpr hm, eq_comm, compare_gt_iff_gt]
      exact mul_lt_mul_of_pos_right (by exact_mod_cast hm) hpow
  · rw [compare_gt_iff_gt.mpr he, compare_gt_iff_gt.mpr (hlt h' h he)]
    rfl

/-- Parts are compared as their numbers. -/
theorem HasValue.compare_eq {u v : UnpackedFloat} {p q : ℚ} (hu : HasValue u p) (hv : HasValue v q) :
    UnpackedFloat.compare u v = some (compare p q) := by
  have hpositive {m : ℕ} (e : ℤ) (hm : 0 < m) : (0 : ℚ) < m * 2 ^ e :=
    mul_pos (by exact_mod_cast hm) (zpow_pos two_pos e)
  obtain ⟨s, rfl, rfl⟩ | ⟨s, m, e, hpos, rfl, hgrid, -, rfl⟩ := hu.cases
  · obtain ⟨s', rfl, rfl⟩ | ⟨s', m', e', hpos', rfl, -, -, rfl⟩ := hv.cases
    · rw [compare_eq_iff_eq.mpr rfl]
      cases s <;> cases s' <;> rfl
    · have := hpositive e' hpos'
      cases s'
      · rw [compare_gt_iff_gt.mpr (by simp [Sign.apply, this])]
        rfl
      · rw [compare_lt_iff_lt.mpr (by simp [Sign.apply, this])]
        rfl
  · have hm := hpositive e hpos
    obtain ⟨s', rfl, rfl⟩ | ⟨s', m', e', hpos', rfl, hgrid', -, rfl⟩ := hv.cases
    · cases s
      · rw [compare_lt_iff_lt.mpr (by simp [Sign.apply, hm])]
        rfl
      · rw [compare_gt_iff_gt.mpr (by simp [Sign.apply, hm])]
        rfl
    · have hm' := hpositive e' hpos'
      cases s <;> cases s' <;> simp only [UnpackedFloat.compare, Sign.apply, Int.cast_neg,
        Int.cast_natCast, neg_mul, Option.some.injEq]
      · rw [compare_grid hgrid hgrid', Decimal.compare_neg_neg]
        exact Std.OrientedCmp.eq_swap.symm
      · rw [eq_comm, compare_lt_iff_lt]
        linarith
      · rw [eq_comm, compare_gt_iff_gt]
        show -_ < _
        linarith
      · exact compare_grid hgrid hgrid'

/-! ## Operations on doubles -/

variable {x y : Float} {p q : ℚ}

/-- A sum of doubles that is a double is exact. -/
theorem value?_add (hx : value? x = some p) (hy : value? y = some q) (h : IsDouble (p + q)) :
    value? (x + y) = some (p + q) :=
  ((hasValue_unpack hx).add (hasValue_unpack hy) h).value?_pack

/-- A difference of doubles that is a double is exact. -/
theorem value?_sub (hx : value? x = some p) (hy : value? y = some q) (h : IsDouble (p - q)) :
    value? (x - y) = some (p - q) := by
  rw [sub_eq_add_neg] at h ⊢
  have hsum := (hasValue_unpack hx).add (hasValue_unpack hy).neg h
  rw [← sub_eq_add_neg_parts] at hsum
  exact hsum.value?_pack

/-- A product of doubles that is a double is exact. -/
theorem value?_mul (hx : value? x = some p) (hy : value? y = some q) (h : IsDouble (p * q)) :
    value? (x * y) = some (p * q) :=
  ((hasValue_unpack hx).mul (hasValue_unpack hy) h).value?_pack

/-- The absolute value of a double. -/
theorem value?_abs (hx : value? x = some q) : value? x.abs = some |q| :=
  (hasValue_unpack hx).abs.value?_pack

/-- Doubles are ordered as their numbers. -/
theorem lt_iff (hx : value? x = some p) (hy : value? y = some q) : x < y ↔ p < q := by
  have hlt : x < y ↔ UnpackedFloat.lt x.toModel.unpack y.toModel.unpack = true := decide_eq_true_iff
  rw [hlt, UnpackedFloat.lt, (hasValue_unpack hx).compare_eq (hasValue_unpack hy), ← compare_lt_iff_lt]
  cases compare p q <;> decide

/-- A quotient that is a double makes that double. -/
theorem value?_ofRatio (negative : Bool) (num : ℕ) {den : ℕ} (hden : 0 < den)
    (h : IsDouble ((num : ℚ) / den)) :
    value? (ofRatio negative num den) = some ((if negative then -1 else 1 : ℚ) * (num / den)) := by
  have hpos : (0 : ℚ) < den := by exact_mod_cast hden
  obtain hzero | ⟨m, e, hgrid, hmax, hvalue⟩ := h
  · obtain rfl : num = 0 := by
      have := (div_eq_zero_iff.mp hzero).resolve_right hpos.ne'
      exact_mod_cast this
    have hscaled : scaled? (Float.ofBits (UInt64.ofNat (if negative then 2 ^ 63 else 0))) =
        some ⟨0, -1074⟩ := by
      cases negative <;> decide +kernel
    rw [ofRatio, if_pos rfl, value?, hscaled]
    simp [Scaled.value]
  · rw [abs_of_nonneg (div_nonneg (Nat.cast_nonneg num) hpos.le)] at hvalue
    have hhalf : 0 < halfBelow m e := by
      unfold halfBelow
      split_ifs <;> norm_num
    have hpow : (0 : ℚ) < 2 ^ e := zpow_pos two_pos e
    have hround : RoundsTo m e ((num : ℚ) / den) := by
      rw [hvalue]
      refine ⟨Or.inl (mul_lt_mul_of_pos_right ?_ hpow), Or.inl (mul_lt_mul_of_pos_right ?_ hpow)⟩
      all_goals linarith
    rw [ofRatio_of_roundsTo negative hgrid hden hround, value?, scaled?_encode negative hgrid hmax,
      hvalue]
    cases negative <;> simp [Scaled.value]

/-- A signed quotient that is a double makes that double. -/
theorem value?_ofSignedRatio (num : ℤ) {den : ℕ} (hden : 0 < den) (h : IsDouble (num / den)) :
    value? (ofSignedRatio num den) = some ((num : ℚ) / den) := by
  have habs : ((num.natAbs : ℕ) : ℚ) / den = |(num : ℚ) / den| := by
    rw [abs_div, Nat.abs_cast, Nat.cast_natAbs, Int.cast_abs]
  have hdouble : IsDouble (((num.natAbs : ℕ) : ℚ) / den) := by
    obtain hzero | ⟨m, e, hgrid, hmax, hvalue⟩ := h
    · exact Or.inl (by rw [habs, hzero, abs_zero])
    · exact Or.inr ⟨m, e, hgrid, hmax, by rw [habs, abs_abs, hvalue]⟩
  rw [ofSignedRatio, value?_ofRatio _ _ hden hdouble, Nat.cast_natAbs, Int.cast_abs]
  by_cases hneg : num < 0
  · rw [decide_eq_true hneg, if_pos rfl, abs_of_neg (by exact_mod_cast hneg)]
    congr 1
    ring
  · rw [decide_eq_false hneg, if_neg Bool.false_ne_true, one_mul,
      abs_of_nonneg (by exact_mod_cast not_lt.mp hneg)]

/-- The quotient that a double is taken apart into stands for the same number. -/
theorem Scaled.exists_toRatio (s : Scaled) :
    ∃ n : ℤ, ∃ d : ℕ, 0 < d ∧ s.toRatio = (n, d) ∧ s.value = (n : ℚ) / d := by
  unfold toRatio value
  split_ifs with hneg
  · refine ⟨_, _, Nat.two_pow_pos _, rfl, ?_⟩
    rw [Nat.cast_pow, Nat.cast_ofNat, ← zpow_natCast, div_eq_mul_inv, ← zpow_neg]
    congr 2
    omega
  · refine ⟨_, _, Nat.one_pos, rfl, ?_⟩
    rw [Nat.cast_one, div_one, Int.cast_mul, Int.cast_pow, Int.cast_ofNat, ← zpow_natCast]
    congr 2
    omega

/-- The integral part of a double, by its value. -/
theorem Scaled.truncate_eq (s : Scaled) :
    s.truncate = if 0 ≤ s.value then ⌊s.value⌋ else ⌈s.value⌉ := by
  obtain ⟨n, d, hd, hratio, hvalue⟩ := s.exists_toRatio
  have hpos : (0 : ℚ) < d := by exact_mod_cast hd
  rw [truncate, hratio, hvalue]
  show Int.tdiv n d = _
  rcases le_or_gt 0 n with hn | hn
  · rw [if_pos (div_nonneg (by exact_mod_cast hn) hpos.le), Rat.floor_intCast_div_natCast,
      Int.tdiv_eq_ediv_of_nonneg hn]
  · rw [if_neg (not_le.mpr (div_neg_of_neg_of_pos (by exact_mod_cast hn) hpos)),
      ← neg_neg ((n : ℚ) / d), Int.ceil_neg, ← neg_div, ← Int.cast_neg,
      Rat.floor_intCast_div_natCast, ← Int.tdiv_eq_ediv_of_nonneg (by omega), Int.neg_tdiv, neg_neg]

/-- An integral double is its integral part. -/
theorem Scaled.cast_truncate {s : Scaled} (h : s.isIntegral = true) : (s.truncate : ℚ) = s.value := by
  obtain ⟨n, d, hd, hratio, hvalue⟩ := s.exists_toRatio
  have hpos : (d : ℚ) ≠ 0 := by exact_mod_cast hd.ne'
  rw [isIntegral, hratio] at h
  obtain ⟨k, rfl⟩ := Int.dvd_of_emod_eq_zero (of_decide_eq_true h)
  rw [truncate, hratio, hvalue]
  show ((Int.tdiv (d * k) d : ℤ) : ℚ) = _
  rw [Int.mul_tdiv_cancel_left k (by exact_mod_cast hpos), Int.cast_mul, Int.cast_natCast,
    mul_div_cancel_left₀ _ hpos]

end TwinStore.Number.Binary64
