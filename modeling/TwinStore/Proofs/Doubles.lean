import Mathlib
import TwinStore.Number.Binary64

/-!
# Doubles and rounded quotients

A rounded quotient is the nearest natural number, and a double is made from the nearest multiple of
the power of two that fits the size of a quotient.  So both depend on the quotient alone, not on the
numerator and the denominator that it is given by.  A double that is not a not-a-number is told by its
bits, and a finite one by its sign and by the multiple that its bits stand for.

Main definitions:

- `IsNearest`: the natural number nearest to a rational one, of two equally near ones the even one.
- `Binary64.gridExponent`, `Binary64.encode`: the power of two that fits the size of a number, and the
  double of a multiple of such a power.
- `Binary64.OnGrid`: the multiples of powers of two that positive doubles stand for.
- `Binary64.RoundsTo`: the numbers that round to such a multiple.

Main results:

- Theorem `isNearest_roundDivEven`: a rounded quotient is the nearest natural number.
- Theorem `Binary64.ofRatio_eq`, `Binary64.ofRatio_congr`: the double that is made from a quotient, the
  same for equal quotients.
- Theorem `Binary64.ofBits_toBits`: a double has the bits that it is made from.
- Theorem `Binary64.eq_encode`: a finite double is made from its sign and its multiple.
- Theorem `Binary64.ofRatio_of_roundsTo`: a quotient makes the double that it rounds to.
-/

namespace TwinStore.Number

/-! ## Rounding -/

/-- Whether a natural number is the nearest to a rational one; of two equally near ones it is the
even one. -/
def IsNearest (n : ℕ) (v : ℚ) : Prop :=
  ((n : ℚ) - 1 / 2 < v ∨ (n : ℚ) - 1 / 2 = v ∧ n % 2 = 0) ∧
    (v < n + 1 / 2 ∨ v = n + 1 / 2 ∧ n % 2 = 0)

/-- There is one nearest natural number. -/
theorem IsNearest.unique {m n : ℕ} {v : ℚ} (hm : IsNearest m v) (hn : IsNearest n v) : m = n := by
  wlog hle : m ≤ n generalizing m n
  · exact (this hn hm (Nat.le_of_not_le hle)).symm
  by_contra hne
  have hlt : (m : ℚ) + 1 ≤ n := by exact_mod_cast (show m + 1 ≤ n by omega)
  rcases hm.2 with habove | ⟨habove, heven⟩
  · rcases hn.1 with hbelow | ⟨hbelow, _⟩ <;> linarith
  · rcases hn.1 with hbelow | ⟨hbelow, heven'⟩
    · linarith
    · have hnext : (n : ℚ) = ((m + 1 : ℕ) : ℚ) := by push_cast; linarith
      have := Nat.cast_injective hnext
      omega

/-- A quotient of natural numbers is its integral part and what the remainder adds. -/
theorem div_eq_add_mod_div (num : ℕ) {den : ℕ} (hden : 0 < den) :
    (num : ℚ) / den = (num / den : ℕ) + ((num % den : ℕ) : ℚ) / den := by
  have hpos : (den : ℚ) ≠ 0 := by exact_mod_cast hden.ne'
  rw [eq_comm, ← mul_div_cancel_left₀ ((num / den : ℕ) : ℚ) hpos, ← add_div]
  congr 1
  exact_mod_cast Nat.div_add_mod num den

/-- A rounded quotient is the nearest natural number. -/
theorem isNearest_roundDivEven (num : ℕ) {den : ℕ} (hden : 0 < den) :
    IsNearest (roundDivEven num den) ((num : ℚ) / den) := by
  have hpos : (0 : ℚ) < den := by exact_mod_cast hden
  have hlt := Nat.mod_lt num hden
  rw [div_eq_add_mod_div num hden]
  unfold roundDivEven
  generalize num / den = q
  generalize num % den = r at hlt ⊢
  have hrest : (0 : ℚ) ≤ (r : ℚ) / den := by positivity
  have hone : (r : ℚ) / den < 1 := by
    rw [div_lt_one hpos]
    exact_mod_cast hlt
  have hbelow : 2 * r < den → (r : ℚ) / den < 1 / 2 := by
    intro h
    rw [div_lt_div_iff₀ hpos two_pos, one_mul, mul_comm]
    exact_mod_cast h
  have habove : den < 2 * r → 1 / 2 < (r : ℚ) / den := by
    intro h
    rw [div_lt_div_iff₀ two_pos hpos, one_mul, mul_comm]
    exact_mod_cast h
  have htie : 2 * r = den → (r : ℚ) / den = 1 / 2 := by
    intro h
    rw [div_eq_div_iff hpos.ne' two_ne_zero, one_mul, mul_comm]
    exact_mod_cast h
  simp only
  split_ifs with hless hmore heven
  · have := hbelow hless
    exact ⟨Or.inl (by linarith), Or.inl (by linarith)⟩
  · have := habove hmore
    exact ⟨Or.inl (by push_cast; linarith), Or.inl (by push_cast; linarith)⟩
  · have := htie (by omega)
    exact ⟨Or.inl (by linarith), Or.inr ⟨by linarith, heven⟩⟩
  · have := htie (by omega)
    exact ⟨Or.inr ⟨by push_cast; linarith, by omega⟩, Or.inl (by push_cast; linarith)⟩

namespace Binary64

/-! ## Doubles made from quotients -/

/-- The exponent of the multiples of a power of two among which a positive number is rounded: 53
digits, but no smaller steps than those of the smallest doubles. -/
def gridExponent (v : ℚ) : ℤ := max (Int.log 2 v - 52) (-1074)

/-- The double of a multiple of a power of two; beyond the range it is an infinity. -/
def encode (negative : Bool) (n : ℕ) (exponent : ℤ) : Float :=
  let bits := if n < 2 ^ 52 then n else (exponent + 1075).toNat * 2 ^ 52 + (n - 2 ^ 52)
  if bits ≥ 2047 * 2 ^ 52 then infinity negative
  else Float.ofBits (UInt64.ofNat ((if negative then 2 ^ 63 else 0) + bits))

/-- The binary logarithm is the greatest exponent of a power of two that is not above a number. -/
theorem le_log_iff {v : ℚ} (hv : 0 < v) (e : ℤ) : e ≤ Int.log 2 v ↔ (2 : ℚ) ^ e ≤ v := by
  have h := @Int.zpow_le_iff_le_log ℚ _ _ _ _ 2 (by decide) e v hv
  rwa [Nat.cast_ofNat, Iff.comm] at h

section

variable {num den : ℕ} (hnum : 0 < num) (hden : 0 < den)
include hnum hden

/-- A quotient scaled by a power of two, as the quotient of natural numbers that is computed. -/
theorem scaled_quotient (e : ℤ) :
    (num : ℚ) / den / 2 ^ e =
      if e < 0 then ((num * 2 ^ e.natAbs : ℕ) : ℚ) / den else num / (den * 2 ^ e.natAbs : ℕ) := by
  have hpos : (den : ℚ) ≠ 0 := by exact_mod_cast hden.ne'
  split_ifs with he
  · have hexp : (2 : ℚ) ^ e = (2 ^ e.natAbs)⁻¹ := by
      rw [← zpow_natCast, ← zpow_neg]
      congr 1
      omega
    rw [hexp]
    push_cast
    field_simp
  · have hexp : (2 : ℚ) ^ e = 2 ^ e.natAbs := by
      rw [← zpow_natCast]
      congr 1
      omega
    rw [hexp]
    push_cast
    field_simp

/-- Comparing a quotient with a power of two. -/
theorem pow_le_quotient_iff (e : ℤ) :
    (if e < 0 then num * 2 ^ e.natAbs ≥ den else num ≥ den * 2 ^ e.natAbs) ↔
      (2 : ℚ) ^ e ≤ (num : ℚ) / den := by
  have hpos : (0 : ℚ) < den := by exact_mod_cast hden
  rw [← one_le_div₀ (zpow_pos two_pos e), scaled_quotient hnum hden]
  split_ifs
  · rw [one_le_div₀ hpos]
    exact_mod_cast Iff.rfl
  · rw [one_le_div₀ (by exact_mod_cast Nat.mul_pos hden (by positivity))]
    exact_mod_cast Iff.rfl

/-- The binary logarithms of numerator and denominator tell that of the quotient up to one. -/
theorem log_quotient_mem :
    Int.log 2 ((num : ℚ) / den) = (num.log2 : ℤ) - den.log2 - 1 ∨
      Int.log 2 ((num : ℚ) / den) = (num.log2 : ℤ) - den.log2 := by
  have hpos : (0 : ℚ) < den := by exact_mod_cast hden
  have hquot : (0 : ℚ) < (num : ℚ) / den := div_pos (by exact_mod_cast hnum) hpos
  have hbounds (n : ℕ) (hn : 0 < n) :
      (2 : ℚ) ^ (n.log2 : ℤ) ≤ n ∧ (n : ℚ) < 2 ^ ((n.log2 : ℤ) + 1) := by
    refine ⟨?_, ?_⟩
    · rw [zpow_natCast]
      exact_mod_cast Nat.log2_self_le hn.ne'
    · rw [show ((n.log2 : ℤ) + 1) = ((n.log2 + 1 : ℕ) : ℤ) by push_cast; rfl, zpow_natCast]
      exact_mod_cast Nat.lt_log2_self
  obtain ⟨hnum₁, hnum₂⟩ := hbounds num hnum
  obtain ⟨hden₁, hden₂⟩ := hbounds den hden
  have hlow : (2 : ℚ) ^ ((num.log2 : ℤ) - den.log2 - 1) ≤ (num : ℚ) / den := by
    rw [le_div_iff₀ hpos]
    calc (2 : ℚ) ^ ((num.log2 : ℤ) - den.log2 - 1) * den
        ≤ 2 ^ ((num.log2 : ℤ) - den.log2 - 1) * 2 ^ ((den.log2 : ℤ) + 1) := by gcongr
      _ = 2 ^ (num.log2 : ℤ) := by rw [← zpow_add₀ two_ne_zero]; congr 1; ring
      _ ≤ num := hnum₁
  have hhigh : (num : ℚ) / den < 2 ^ ((num.log2 : ℤ) - den.log2 + 1) := by
    rw [div_lt_iff₀ hpos]
    calc (num : ℚ) < 2 ^ ((num.log2 : ℤ) + 1) := hnum₂
      _ = 2 ^ ((num.log2 : ℤ) - den.log2 + 1) * 2 ^ (den.log2 : ℤ) := by
        rw [← zpow_add₀ two_ne_zero]; congr 1; ring
      _ ≤ 2 ^ ((num.log2 : ℤ) - den.log2 + 1) * den := by gcongr
  rw [← le_log_iff hquot] at hlow
  rw [← not_le, ← le_log_iff hquot] at hhigh
  omega

/-- The double that is made from a quotient: the nearest multiple of the power of two that fits. -/
theorem ofRatio_eq (negative : Bool) {n : ℕ}
    (hn : IsNearest n ((num : ℚ) / den / 2 ^ gridExponent ((num : ℚ) / den))) :
    ofRatio negative num den = encode negative n (gridExponent ((num : ℚ) / den)) := by
  have hquot : (0 : ℚ) < (num : ℚ) / den :=
    div_pos (by exact_mod_cast hnum) (by exact_mod_cast hden)
  have hfitted : (if (2 : ℚ) ^ ((num.log2 : ℤ) - den.log2) ≤ (num : ℚ) / den
      then (num.log2 : ℤ) - den.log2 - 53 + 1 else (num.log2 : ℤ) - den.log2 - 53) =
      Int.log 2 ((num : ℚ) / den) - 52 := by
    have hlog := log_quotient_mem hnum hden
    simp only [← le_log_iff hquot]
    split_ifs <;> omega
  have hrounded : (if gridExponent ((num : ℚ) / den) < 0 then
      roundDivEven (num * 2 ^ (gridExponent ((num : ℚ) / den)).natAbs) den
      else roundDivEven num (den * 2 ^ (gridExponent ((num : ℚ) / den)).natAbs)) = n := by
    refine IsNearest.unique ?_ hn
    rw [scaled_quotient hnum hden]
    split_ifs
    · exact isNearest_roundDivEven _ hden
    · exact isNearest_roundDivEven _ (by positivity)
  have hatLeast (e : ℤ) : ((if e < 0 then decide (num * 2 ^ e.natAbs ≥ den)
      else decide (num ≥ den * 2 ^ e.natAbs)) = true) = ((2 : ℚ) ^ e ≤ (num : ℚ) / den) := by
    rw [← pow_le_quotient_iff hnum hden]
    split_ifs <;> simp only [decide_eq_true_eq]
  unfold ofRatio
  simp only [hnum.ne', if_false, hatLeast, sub_add_cancel, hfitted]
  rw [← gridExponent, hrounded]
  rfl

/-- A scaled quotient has a nearest natural number. -/
theorem exists_isNearest (e : ℤ) : ∃ n, IsNearest n ((num : ℚ) / den / 2 ^ e) := by
  rw [scaled_quotient hnum hden]
  split_ifs
  · exact ⟨_, isNearest_roundDivEven _ hden⟩
  · exact ⟨_, isNearest_roundDivEven _ (by positivity)⟩

end

/-- Equal quotients make the same double. -/
theorem ofRatio_congr (negative : Bool) {num den num' den' : ℕ} (hden : 0 < den) (hden' : 0 < den')
    (h : (num : ℚ) / den = num' / den') : ofRatio negative num den = ofRatio negative num' den' := by
  have hne (den : ℕ) (hden : 0 < den) : (den : ℚ) ≠ 0 := by exact_mod_cast hden.ne'
  have hzero : num = 0 ↔ num' = 0 := by
    have hquot (num den : ℕ) (hden : 0 < den) : num = 0 ↔ (num : ℚ) / den = 0 := by
      rw [div_eq_zero_iff, or_iff_left (hne den hden), Nat.cast_eq_zero]
    rw [hquot num den hden, h, ← hquot num' den' hden']
  by_cases hnum : num = 0
  · rw [hnum, hzero.mp hnum, ofRatio, ofRatio, if_pos rfl, if_pos rfl]
  · obtain ⟨n, hn⟩ := exists_isNearest (Nat.pos_of_ne_zero hnum) hden (gridExponent ((num : ℚ) / den))
    rw [ofRatio_eq (Nat.pos_of_ne_zero hnum) hden negative hn, h]
    rw [h] at hn
    rw [ofRatio_eq (Nat.pos_of_ne_zero (hnum ∘ hzero.mpr)) hden' negative hn]

end Binary64

end TwinStore.Number

namespace TwinStore.Number.Binary64

open Float.Model Float.Model.UnpackedFloat

/-! ## Bits -/

/-- The sign, exponent and mantissa of a pattern make up the pattern. -/
theorem packComponents_unpack (b : BitVec 64) :
    packComponents Format.binary64 (Sign.ofBitVec (@unpackSign Format.binary64 b))
      (@unpackExponent Format.binary64 b) (@unpackMantissa Format.binary64 b) = b := by
  have hsign (b : BitVec 1) : (Sign.ofBitVec b).toBitVec = b := by
    revert b
    decide
  rw [packComponents, hsign]
  refine BitVec.eq_of_getLsbD_eq fun i hi => ?_
  have hi : i < 64 := hi
  simp only [BitVec.getLsbD_append, unpackMantissa, unpackExponent, unpackSign,
    BitVec.getLsbD_cast, BitVec.getLsbD_extractLsb]
  by_cases hmantissa : i < 52
  · simp [hmantissa]
  · by_cases hexponent : i - 52 < 11
    · simp only [hmantissa, hexponent, if_false, if_true, decide_true, decide_false]
      rw [show 52 + (i - 52) = i by omega]
      simp
    · obtain rfl : i = 63 := by omega
      simp only [hmantissa, hexponent, if_false]
      simp [BitVec.getLsbD]

/-- A finite number with a full mantissa is packed into its exponent and the rest of the
mantissa. -/
theorem pack_normal (s : Sign) {exponent : BitVec 11} (mantissa : BitVec 52) {m : ℕ} {e : ℤ}
    (hm : m = 2 ^ 52 + mantissa.toNat) (he : e = exponent.toNat - 1075)
    (hexponent : exponent.toNat ≠ 2047) (hpos : 0 < m) :
    UnpackedFloat.pack Format.binary64 (.finite s m e hpos) =
      packComponents Format.binary64 s exponent mantissa := by
  have hmantissa : mantissa.toNat < 2 ^ 52 := mantissa.isLt
  have hlt : exponent.toNat < 2 ^ 11 := exponent.isLt
  have hlog : m.log2 = 52 := by
    rw [Nat.log2_eq_iff (by omega)]
    omega
  have hbiased : (e + Format.binary64.exponentBias + ((52 : ℕ) : ℤ)).toNat = exponent.toNat := by
    have hbias : (Format.binary64.exponentBias : ℤ) = 1023 := rfl
    omega
  have hrest : BitVec.ofNat 52 m = mantissa := by
    refine BitVec.eq_of_toNat_eq ?_
    rw [BitVec.toNat_ofNat, hm, Nat.add_mod_left, Nat.mod_eq_of_lt hmantissa]
  rw [UnpackedFloat.pack]
  simp only [hbiased, hlog]
  rw [if_neg (by omega), if_pos (show 52 + 1 = Format.binary64.mantissaBits from rfl), hrest,
    BitVec.ofNat_toNat, BitVec.setWidth_eq]

/-- A finite number with a short mantissa is packed into that mantissa. -/
theorem pack_subnormal (s : Sign) {mantissa : BitVec 52} {e : ℤ} (he : e = -1074)
    (hpos : 0 < mantissa.toNat) :
    UnpackedFloat.pack Format.binary64 (.finite s mantissa.toNat e hpos) =
      packComponents Format.binary64 s 0 mantissa := by
  have hlog : mantissa.toNat.log2 < 52 := (Nat.log2_lt hpos.ne').mpr mantissa.isLt
  rw [UnpackedFloat.pack]
  simp only
  rw [if_neg (by rw [he]; decide), if_neg (by rw [Format.mantissaBits]; simp only; omega),
    BitVec.ofNat_toNat, BitVec.setWidth_eq]
  rfl

/-- A valid pattern is what its number is packed into. -/
theorem pack_unpack {b : BitVec 64} (h : Format.binary64.Valid b) :
    UnpackedFloat.pack Format.binary64 (UnpackedFloat.unpack Format.binary64 b) = b := by
  have hpack := packComponents_unpack b
  unfold UnpackedFloat.unpack
  simp only
  split_ifs with hexponent hmantissa hexponent' hmantissa'
  · rw [hexponent, hmantissa] at hpack
    exact hpack
  · exact (h.eq_packedNaN hexponent hmantissa).symm
  · rw [hexponent', hmantissa'] at hpack
    exact hpack
  · rw [pack_subnormal _ (by rw [hexponent']; rfl)]
    rw [hexponent'] at hpack
    exact hpack
  · refine (pack_normal _ (@unpackMantissa Format.binary64 b) ?_ ?_ ?_ _).trans hpack
    · rw [BitVec.toNat_append, ← Nat.shiftLeft_add_eq_or_of_lt (@unpackMantissa Format.binary64 b).isLt]
      rfl
    · rfl
    · intro hfull
      exact hexponent (BitVec.eq_of_toNat_eq hfull)

/-- A double is made from its bits. -/
theorem ofBits_toBits (x : Float) : Float.ofBits x.toBits = x := by
  obtain ⟨⟨bits, h⟩⟩ := x
  simp only [Float.toBits, Float.ofBits, Float.Model.ofBits, Float.Model.pack, pack_unpack h]

/-- A finite double is made from its sign and its multiple of a power of two. -/
theorem eq_encode {x : Float} {s : Scaled} (h : scaled? x = some s) :
    x = encode (isNegative x) s.mantissa.natAbs s.exponent := by
  have hlt : x.toBits.toNat < 2 ^ 64 := x.toBits.toNat_lt
  have hofNat : Float.ofBits (UInt64.ofNat x.toBits.toNat) = x := by
    rw [UInt64.ofNat_toNat, ofBits_toBits]
  unfold scaled? at h
  unfold encode isNegative
  generalize x.toBits.toNat = bits at hlt hofNat h
  simp only at h ⊢
  have hparts : bits = (if bits ≥ 2 ^ 63 then 2 ^ 63 else 0) + bits / 2 ^ 52 % 2 ^ 11 * 2 ^ 52 +
      bits % 2 ^ 52 := by
    split_ifs <;> omega
  have hsign : (if bits ≥ 2 ^ 63 then (-1 : ℤ) else 1).natAbs = 1 := by
    split_ifs <;> rfl
  generalize (if bits ≥ 2 ^ 63 then (-1 : ℤ) else 1) = sign at h hsign
  split_ifs at h with hspecial hsubnormal
  · obtain rfl := Option.some.inj h
    rw [hsubnormal, Nat.zero_mul, Nat.add_zero] at hparts
    simp only [Int.natAbs_mul, hsign, Nat.one_mul, Int.natAbs_natCast, decide_eq_true_eq]
    rw [if_pos (by omega : bits % 2 ^ 52 < 2 ^ 52), if_neg (by omega), ← hparts, hofNat]
  · obtain rfl := Option.some.inj h
    have hmantissa : (((bits % 2 ^ 52 : ℕ) : ℤ) + 2 ^ 52).natAbs = bits % 2 ^ 52 + 2 ^ 52 := by
      omega
    have hexponent : (((bits / 2 ^ 52 % 2 ^ 11 : ℕ) : ℤ) - 1075 + 1075).toNat =
        bits / 2 ^ 52 % 2 ^ 11 := by
      omega
    simp only [Int.natAbs_mul, hsign, Nat.one_mul, hmantissa, hexponent, decide_eq_true_eq]
    rw [if_neg (by omega : ¬ bits % 2 ^ 52 + 2 ^ 52 < 2 ^ 52), Nat.add_sub_cancel,
      if_neg (by omega), ← Nat.add_assoc, ← hparts, hofNat]

/-! ## Intervals -/

/-- Multiples of powers of two that positive doubles stand for. -/
structure OnGrid (m : ℕ) (e : ℤ) : Prop where
  pos : 0 < m
  lt : m < 2 ^ 53
  exponent : -1074 ≤ e
  full : 2 ^ 52 ≤ m ∨ e = -1074

/-- The half of the distance to the next double below a multiple, in its power of two: the doubles
below a power of two are twice as close. -/
def halfBelow (m : ℕ) (e : ℤ) : ℚ := if m = 2 ^ 52 ∧ e > -1074 then 1 / 4 else 1 / 2

/-- The numbers that round to a multiple of a power of two; the ends count if the multiple is
even. -/
def RoundsTo (m : ℕ) (e : ℤ) (v : ℚ) : Prop :=
  ((m - halfBelow m e) * 2 ^ e < v ∨ (m - halfBelow m e) * 2 ^ e = v ∧ m % 2 = 0) ∧
    (v < (m + 1 / 2) * 2 ^ e ∨ v = (m + 1 / 2) * 2 ^ e ∧ m % 2 = 0)

/-- A multiple with one digit too many is half of it with the next exponent. -/
theorem encode_carry (negative : Bool) {e : ℤ} (he : -1074 < e) :
    encode negative (2 ^ 53) (e - 1) = encode negative (2 ^ 52) e := by
  unfold encode
  have hbits : (e - 1 + 1075).toNat * 2 ^ 52 + (2 ^ 53 - 2 ^ 52) =
      (e + 1075).toNat * 2 ^ 52 + (2 ^ 52 - 2 ^ 52) := by
    have : (e + 1075).toNat = (e - 1 + 1075).toNat + 1 := by omega
    rw [this]
    ring
  simp only [hbits, Nat.lt_irrefl, if_false, show ¬ 2 ^ 53 < 2 ^ 52 by norm_num]

theorem halfBelow_le_half (m : ℕ) (e : ℤ) : halfBelow m e ≤ 1 / 2 := by
  unfold halfBelow
  split_ifs <;> norm_num

section
variable {m : ℕ} {e : ℤ} {v : ℚ}

/-- The numbers that round to a multiple, as multiples of its power of two. -/
theorem RoundsTo.scaled (h : RoundsTo m e v) :
    ((m : ℚ) - halfBelow m e < v / 2 ^ e ∨ (m : ℚ) - halfBelow m e = v / 2 ^ e ∧ m % 2 = 0) ∧
      (v / 2 ^ e < m + 1 / 2 ∨ v / 2 ^ e = m + 1 / 2 ∧ m % 2 = 0) := by
  have hpow : (0 : ℚ) < 2 ^ e := zpow_pos two_pos e
  rw [lt_div_iff₀ hpow, eq_div_iff hpow.ne', div_lt_iff₀ hpow, div_eq_iff hpow.ne']
  exact h

theorem RoundsTo.le_scaled (h : RoundsTo m e v) : (m : ℚ) - halfBelow m e ≤ v / 2 ^ e := by
  rcases h.scaled.1 with h | ⟨h, _⟩ <;> linarith

theorem RoundsTo.scaled_le (h : RoundsTo m e v) : v / 2 ^ e ≤ m + 1 / 2 := by
  rcases h.scaled.2 with h | ⟨h, _⟩ <;> linarith

theorem RoundsTo.pos (hgrid : OnGrid m e) (h : RoundsTo m e v) : 0 < v := by
  have hone : (1 : ℚ) ≤ m := by exact_mod_cast hgrid.pos
  have hscaled : 0 < v / 2 ^ e := by
    linarith [h.le_scaled, halfBelow_le_half m e]
  exact (div_pos_iff_of_pos_right (zpow_pos two_pos e)).mp hscaled

theorem add_le_log_iff (hv : 0 < v) (k : ℤ) : e + k ≤ Int.log 2 v ↔ (2 : ℚ) ^ k ≤ v / 2 ^ e := by
  rw [le_log_iff hv, le_div_iff₀ (zpow_pos two_pos e), ← zpow_add₀ two_ne_zero, add_comm]

theorem RoundsTo.log_lt (hgrid : OnGrid m e) (h : RoundsTo m e v) : Int.log 2 v < e + 53 := by
  have hmax : (m : ℚ) ≤ 2 ^ 53 - 1 := by
    rw [le_sub_iff_add_le]
    exact_mod_cast hgrid.lt
  rw [← not_le, add_le_log_iff (h.pos hgrid), not_le]
  refine h.scaled_le.trans_lt ?_
  rw [show (2 : ℚ) ^ (53 : ℤ) = 2 ^ 53 from rfl]
  linarith

/-- On the grid of a multiple, a number that rounds to it is nearest to it. -/
theorem RoundsTo.isNearest (hgrid : OnGrid m e) (h : RoundsTo m e v)
    (hgrids : e = -1074 ∨ (2 : ℚ) ^ (52 : ℤ) ≤ v / 2 ^ e) :
    gridExponent v = e ∧ IsNearest m (v / 2 ^ gridExponent v) := by
  have hexponent : gridExponent v = e := by
    have hlow := hgrid.exponent
    have hhigh := h.log_lt hgrid
    rw [← add_le_log_iff (h.pos hgrid)] at hgrids
    unfold gridExponent
    omega
  rw [hexponent]
  refine ⟨rfl, ?_, h.scaled.2⟩
  rcases h.scaled.1 with h | ⟨h, heven⟩
  · exact Or.inl (by linarith [halfBelow_le_half m e])
  · rcases (halfBelow_le_half m e).lt_or_eq with hlt | heq
    · exact Or.inl (by linarith)
    · exact Or.inr ⟨by linarith, heven⟩

/-- A number that rounds to a multiple from a finer grid lies below a power of two; there it is nearest to
that power with one digit more. -/
theorem RoundsTo.isNearest_carry (hgrid : OnGrid m e) (h : RoundsTo m e v) (he : e ≠ -1074)
    (hbelow : v / 2 ^ e < (2 : ℚ) ^ (52 : ℤ)) :
    m = 2 ^ 52 ∧ gridExponent v = e - 1 ∧ IsNearest (2 ^ 53) (v / 2 ^ gridExponent v) := by
  have hlow := h.le_scaled
  have hm : m = 2 ^ 52 := by
    by_contra hne
    have hfull := hgrid.full.resolve_right he
    have hnext : ((2 ^ 52 + 1 : ℕ) : ℚ) ≤ m := by exact_mod_cast (show 2 ^ 52 + 1 ≤ m by omega)
    rw [show (2 : ℚ) ^ (52 : ℤ) = 2 ^ 52 from rfl] at hbelow
    push_cast at hnext
    linarith [halfBelow_le_half m e]
  have hsub : -1074 < e := lt_of_le_of_ne hgrid.exponent (Ne.symm he)
  rw [show halfBelow m e = 1 / 4 from if_pos ⟨hm, hsub⟩, hm] at hlow
  push_cast at hlow
  have hexponent : gridExponent v = e - 1 := by
    have hlower : e + 51 ≤ Int.log 2 v := by
      rw [add_le_log_iff (h.pos hgrid), show (2 : ℚ) ^ (51 : ℤ) = 2 ^ 51 from rfl]
      linarith
    have hupper : ¬ e + 52 ≤ Int.log 2 v := by
      rw [add_le_log_iff (h.pos hgrid)]
      exact not_le.mpr hbelow
    unfold gridExponent
    omega
  refine ⟨hm, hexponent, ?_⟩
  have htwice : v / 2 ^ (e - 1) = 2 * (v / 2 ^ e) := by
    rw [zpow_sub₀ two_ne_zero, zpow_one]
    field_simp
  rw [show (2 : ℚ) ^ (52 : ℤ) = 2 ^ 52 from rfl] at hbelow
  rw [hexponent, htwice]
  push_cast
  refine ⟨?_, Or.inl (by linarith)⟩
  rcases hlow.lt_or_eq with h | h
  · exact Or.inl (by linarith)
  · exact Or.inr ⟨by linarith, by norm_num⟩

/-- A quotient makes the double that it rounds to. -/
theorem ofRatio_of_roundsTo (negative : Bool) (hgrid : OnGrid m e) {num den : ℕ}
    (hden : 0 < den) (h : RoundsTo m e ((num : ℚ) / den)) :
    ofRatio negative num den = encode negative m e := by
  have hnum : 0 < num := by
    have hquot := h.pos hgrid
    exact_mod_cast (div_pos_iff_of_pos_right (show (0 : ℚ) < den by exact_mod_cast hden)).mp hquot
  by_cases hgrids : e = -1074 ∨ (2 : ℚ) ^ (52 : ℤ) ≤ (num : ℚ) / den / 2 ^ e
  · obtain ⟨hexponent, hnearest⟩ := h.isNearest hgrid hgrids
    rw [ofRatio_eq hnum hden negative hnearest, hexponent]
  · -- Only below a power of two the quotient is rounded on a finer grid.
    rw [not_or, not_le] at hgrids
    obtain ⟨hm, hexponent, hnearest⟩ := h.isNearest_carry hgrid hgrids.1 hgrids.2
    rw [ofRatio_eq hnum hden negative hnearest, hexponent,
      encode_carry negative (lt_of_le_of_ne hgrid.exponent (Ne.symm hgrids.1)), hm]

end

/-- A nonzero finite double stands for a multiple of a power of two on its grid. -/
theorem onGrid_of_scaled? {x : Float} {s : Scaled} (h : scaled? x = some s) (hs : s.mantissa ≠ 0) :
    OnGrid s.mantissa.natAbs s.exponent ∧ s.exponent ≤ 971 := by
  unfold scaled? at h
  generalize x.toBits.toNat = bits at h
  simp only at h
  have hsign : (if bits ≥ 2 ^ 63 then (-1 : ℤ) else 1).natAbs = 1 := by
    split_ifs <;> rfl
  generalize (if bits ≥ 2 ^ 63 then (-1 : ℤ) else 1) = sign at h hsign
  split_ifs at h with hspecial hsubnormal
  · obtain rfl := Option.some.inj h
    rw [← Int.natAbs_ne_zero] at hs
    simp only [Int.natAbs_mul, hsign, Nat.one_mul, Int.natAbs_natCast] at hs ⊢
    exact ⟨⟨Nat.pos_of_ne_zero hs, by omega, le_refl _, Or.inr rfl⟩, by decide⟩
  · obtain rfl := Option.some.inj h
    have hmantissa : (((bits % 2 ^ 52 : ℕ) : ℤ) + 2 ^ 52).natAbs = bits % 2 ^ 52 + 2 ^ 52 := by
      omega
    simp only [Int.natAbs_mul, hsign, Nat.one_mul, hmantissa]
    exact ⟨⟨by omega, by omega, by omega, Or.inl (by omega)⟩, by omega⟩

/-! ## Values without a multiple -/

/-- A double that is not finite is the value that is not a number or an infinity. -/
theorem eq_special {x : Float} (h : scaled? x = none) :
    x = if x.isNaN then nan else infinity (isNegative x) := by
  have hbits : x = Float.ofBits (UInt64.ofNat x.toBits.toNat) := by
    rw [UInt64.ofNat_toNat, ofBits_toBits]
  have hfull : x.toBits.toNat / 2 ^ 52 % 2 ^ 11 = 2047 := by
    unfold scaled? at h
    simp only at h
    split_ifs at h with hfull
    exact hfull
  have hlt : x.toBits.toNat < 2 ^ 64 := x.toBits.toNat_lt
  have hinfinity (b : Bool) : (infinity b).isNaN = false := by cases b <;> decide
  have hnan : nan.isNaN = true := by decide
  by_cases hmantissa : x.toBits.toNat % 2 ^ 52 = 0
  · have heq : x = infinity (isNegative x) := by
      conv_lhs => rw [hbits]
      unfold infinity isNegative
      by_cases hsign : x.toBits.toNat ≥ 2 ^ 63
      · rw [decide_eq_true hsign, if_pos rfl,
          show x.toBits.toNat = 0xFFF0000000000000 by omega]
        rfl
      · rw [decide_eq_false hsign, if_neg Bool.false_ne_true,
          show x.toBits.toNat = 0x7FF0000000000000 by omega]
        rfl
    have hisNaN : x.isNaN = false := heq ▸ hinfinity _
    rw [hisNaN, if_neg Bool.false_ne_true]
    exact heq
  · have heq : x = nan := by
      obtain ⟨⟨bits, hvalid⟩⟩ := x
      have htoNat : (Float.toBits ⟨⟨bits, hvalid⟩⟩).toNat = bits.toNat := rfl
      rw [htoNat] at hfull hmantissa
      have hexponent : @unpackExponent Format.binary64 bits.toBitVec = -1#11 := by
        refine BitVec.eq_of_toNat_eq ?_
        rw [unpackExponent, BitVec.toNat_cast, BitVec.extractLsb_toNat, Nat.shiftRight_eq_div_pow]
        exact hfull
      have hfraction : @unpackMantissa Format.binary64 bits.toBitVec ≠ 0#52 := by
        intro hzero
        have := congrArg BitVec.toNat hzero
        rw [unpackMantissa, BitVec.toNat_cast, BitVec.extractLsb_toNat] at this
        exact hmantissa this
      have hpacked := hvalid.eq_packedNaN hexponent hfraction
      obtain ⟨bits⟩ := bits
      obtain rfl : bits = packedNaN Format.binary64 := hpacked
      rfl
    rw [heq, hnan, if_pos rfl]

end TwinStore.Number.Binary64
