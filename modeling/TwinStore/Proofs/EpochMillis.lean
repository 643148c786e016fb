import TwinStore.Proofs.OperatorLaws
import TwinStore.Proofs.RoundedProducts
import TwinStore.Proofs.StoredMembers
import TwinStore.Proofs.WholeShifts

/-!
# Milliseconds since 1970

An integer stands for a point of time by its milliseconds since 1970.  Where records are compared it is
multiplied into microseconds, exactly.  Where it becomes a point of time it is divided into seconds
first, as a double, and the fraction of the second is rounded to microseconds: this gives the same up to
the year 2242, and some microseconds more or less later on.

Main results:

- Theorem `Binary64.value?_fractionalPart`: the fraction of a double is exact.
- Theorem `abs_epochMicros_sub_le`, `epochMicros_of_near`: the microseconds of a number of seconds.
- Theorem `integers_mean_milliseconds`: the microseconds of an integer, as both ways make them.
-/

namespace TwinStore

open Calendar Number

/-! ## Parts of a double -/

namespace Number.Binary64

/-- The number of a double is on the grid of doubles. -/
theorem isDouble_of_value? {x : Float} {q : ℚ} (h : value? x = some q) : IsDouble q := by
  obtain ⟨s, hs, rfl⟩ := exists_scaled h
  by_cases hzero : s.mantissa = 0
  · exact .inl (by rw [Scaled.value, hzero, Int.cast_zero, zero_mul])
  · obtain ⟨hgrid, hmax⟩ := onGrid_of_scaled? hs hzero
    refine .inr ⟨_, _, hgrid, hmax, ?_⟩
    rw [Scaled.value, abs_mul, abs_of_pos (zpow_pos two_pos _ : (0 : ℚ) < 2 ^ s.exponent),
      Nat.cast_natAbs, Int.cast_abs]

/-- So is its size. -/
theorem IsDouble.abs {q : ℚ} (h : IsDouble q) : IsDouble |q| := by
  obtain rfl | ⟨m, e, hgrid, hmax, hvalue⟩ := h
  · exact .inl abs_zero
  · exact .inr ⟨m, e, hgrid, hmax, by rw [abs_abs, hvalue]⟩

namespace Scaled

/-- A double and its integral part are less than one apart. -/
theorem abs_value_sub_truncate_lt (s : Scaled) : |s.value - s.truncate| < 1 := by
  rw [s.truncate_eq]
  split_ifs
  · rw [abs_of_nonneg (sub_nonneg.mpr (Int.floor_le _))]
    linarith [Int.lt_floor_add_one s.value]
  · rw [abs_of_nonpos (sub_nonpos.mpr (Int.le_ceil _))]
    linarith [Int.ceil_lt_add_one s.value]

/-- The nearest integer is no more than a half away. -/
theorem abs_roundEven_sub_le (s : Scaled) : |(s.roundEven : ℚ) - s.value| ≤ 1 / 2 := by
  obtain ⟨n, d, hd, hratio, hvalue⟩ := s.exists_toRatio
  obtain ⟨hbelow, habove⟩ := isNearest_roundDivEven n.natAbs hd
  have hbelow' := hbelow.elim le_of_lt fun h => h.1.le
  have habove' := habove.elim le_of_lt fun h => h.1.le
  rw [Nat.cast_natAbs, Int.cast_abs] at hbelow' habove'
  rw [roundEven, hratio, hvalue]
  show |((roundDivEvenInt n d : ℤ) : ℚ) - _| ≤ _
  rw [roundDivEvenInt, abs_le]
  split_ifs with hneg
  · rw [abs_of_neg (by exact_mod_cast hneg), neg_div] at hbelow' habove'
    push_cast
    constructor <;> linarith
  · rw [abs_of_nonneg (by exact_mod_cast not_lt.mp hneg)] at hbelow' habove'
    push_cast
    constructor <;> linarith

end Scaled

/-- What a double leaves behind its integral part is a double: it is no longer than the double if that is
above one, and the double itself if not. -/
theorem isDouble_rest {x : Float} {s : Scaled} (hs : scaled? x = some s) (hneg : s.exponent < 0) :
    IsDouble ((s.mantissa.natAbs % 2 ^ s.exponent.natAbs : ℕ) / (2 ^ s.exponent.natAbs : ℕ)) := by
  have hpow : ((2 ^ s.exponent.natAbs : ℕ) : ℚ) = (2 ^ s.exponent)⁻¹ := by
    rw [Nat.cast_pow, Nat.cast_ofNat, ← zpow_natCast, ← zpow_neg]
    congr 1
    omega
  rcases Nat.lt_or_ge s.mantissa.natAbs (2 ^ s.exponent.natAbs) with hsmall | hlarge
  · rw [Nat.mod_eq_of_lt hsmall, hpow, div_inv_eq_mul, Nat.cast_natAbs, Int.cast_abs]
    have hvalue : |(s.mantissa : ℚ)| * 2 ^ s.exponent = |s.value| := by
      rw [Scaled.value, abs_mul, abs_of_pos (zpow_pos two_pos _ : (0 : ℚ) < 2 ^ s.exponent)]
    rw [hvalue]
    exact (isDouble_of_value? (by rw [value?, hs]; rfl)).abs
  · have hne : s.mantissa ≠ 0 := by
      rintro hzero
      rw [hzero, Int.natAbs_zero] at hlarge
      exact absurd hlarge (Nat.two_pow_pos _).not_ge
    have hlt := (onGrid_of_scaled? hs hne).1.lt
    have hshort : s.exponent.natAbs < 53 :=
      (Nat.pow_lt_pow_iff_right (by decide)).mp (hlarge.trans_lt hlt)
    have hrest : s.mantissa.natAbs % 2 ^ s.exponent.natAbs < 2 ^ 53 := (Nat.mod_le _ _).trans_lt hlt
    rw [hpow, div_inv_eq_mul]
    have hdouble := isDouble_mul_pow (n := (s.mantissa.natAbs % 2 ^ s.exponent.natAbs : ℕ)) hrest
      (show -1022 ≤ s.exponent by omega) (by omega)
    exact_mod_cast hdouble

/-- The rest of a division has the sign of what is divided. -/
theorem signed_rest (n : ℤ) (d : ℕ) :
    (if n < 0 then -1 else 1) * ((n.natAbs % d : ℕ) : ℤ) = n - d * n.tdiv d := by
  rw [← Int.tmod_def]
  split_ifs with hneg
  · obtain ⟨m, rfl⟩ : ∃ m : ℕ, n = -m := ⟨n.natAbs, by omega⟩
    rw [Int.neg_tmod, Int.natAbs_neg, Int.natAbs_natCast, Int.tmod_eq_emod_of_nonneg (by omega)]
    push_cast
    ring
  · rw [Int.tmod_eq_emod_of_nonneg (not_lt.mp hneg)]
    push_cast
    rw [abs_of_nonneg (not_lt.mp hneg), one_mul]

/-- The fraction of a double is exact. -/
theorem value?_fractionalPart {x : Float} {s : Scaled} (hs : scaled? x = some s) :
    value? (fractionalPart s) = some (s.value - s.truncate) := by
  obtain ⟨n, d, hd, hratio, hvalue⟩ := s.exists_toRatio
  have hpos : (0 : ℚ) < d := by exact_mod_cast hd
  obtain ⟨hsign, hdouble⟩ : (s.mantissa < 0 ↔ n < 0) ∧ IsDouble ((n.natAbs % d : ℕ) / d) := by
    unfold Scaled.toRatio at hratio
    split_ifs at hratio with hneg
    · obtain ⟨rfl, rfl⟩ := Prod.mk.inj hratio
      exact ⟨Iff.rfl, isDouble_rest hs hneg⟩
    · obtain ⟨rfl, rfl⟩ := Prod.mk.inj hratio
      refine ⟨?_, .inl ?_⟩
      · rw [← not_le, ← not_le, mul_nonneg_iff_of_pos_right (by positivity)]
      · rw [Nat.mod_one, Nat.cast_zero, zero_div]
  have hrest := congrArg (fun k : ℤ => (k : ℚ)) (signed_rest n d)
  simp only [Int.cast_mul, Int.cast_ite, Int.cast_neg, Int.cast_one, Int.cast_natCast, Int.cast_sub] at hrest
  rw [fractionalPart, Scaled.truncate, hratio, hvalue]
  show value? (ofRatio (s.mantissa < 0) (n.natAbs % d) d) = some ((n : ℚ) / d - (n.tdiv d : ℤ))
  rw [value?_ofRatio _ _ hd hdouble]
  simp only [hsign, decide_eq_true_eq]
  rw [← mul_div_assoc, hrest, sub_div, mul_div_cancel_left₀ _ hpos.ne']

end Number.Binary64

open Binary64

/-! ## Microseconds of a number of seconds -/

/-- A number of seconds is taken apart into its integral part and the microseconds of its fraction. -/
theorem exists_splitSeconds {x : Float} {s : Scaled} (hx : scaled? x = some s) :
    ∃ whole micros p, splitSeconds x s = .ok (whole, micros) ∧
      |Scaled.value p - (s.value - s.truncate) * 1000000| ≤ 2 ^ (-34 : ℤ) ∧
      whole * 1000000 + micros = s.truncate * 1000000 + p.roundEven := by
  have hmillion : value? 1000000.0 = some ((1000000 : ℤ) : ℚ) :=
    value?_of_scaled (k := 33) (by decide +kernel)
  have hsmall : |(s.value - s.truncate) * (1000000 : ℤ)| < 2 ^ (20 : ℤ) := by
    rw [abs_mul, abs_of_nonneg (by norm_num : (0 : ℚ) ≤ (1000000 : ℤ))]
    have := s.abs_value_sub_truncate_lt
    norm_num
    linarith
  obtain ⟨z, hz, hnear⟩ := exists_value?_mul (value?_fractionalPart hx) hmillion (by norm_num) (by norm_num) hsmall
  obtain ⟨p, hp, rfl⟩ := exists_scaled hz
  have hwhole : (scaled? x).elim 0 Scaled.truncate = s.truncate := by rw [hx]; rfl
  have hnear' : |p.value - (s.value - s.truncate) * 1000000| ≤ 2 ^ (-34 : ℤ) := by
    exact_mod_cast hnear
  unfold splitSeconds
  simp only [hp, hwhole]
  split_ifs
  · exact ⟨_, _, p, rfl, hnear', by ring⟩
  · exact ⟨_, _, p, rfl, hnear', by ring⟩
  · exact ⟨_, _, p, rfl, hnear', rfl⟩

/-- The point of time at a number of seconds has the microseconds of the integral part and those that the
fraction is rounded to. -/
theorem exists_epochMicros_eq {x : Float} {t : DateTime} (h : instantOfSeconds x = .ok t) :
    ∃ s p, scaled? x = some s ∧
      |Scaled.value p - (s.value - s.truncate) * 1000000| ≤ 2 ^ (-34 : ℤ) ∧
      t.epochMicros = s.truncate * 1000000 + p.roundEven := by
  unfold instantOfSeconds at h
  split at h
  · split_ifs at h
  · next s hs =>
    obtain ⟨whole, micros, p, hsplit, hnear, hsum⟩ := exists_splitSeconds hs
    rw [hsplit, Outcome.ok_bind] at h
    simp only at h
    split_ifs at h
    split at h
    · next t' hmicros =>
      obtain rfl := Except.ok.inj h
      refine ⟨s, p, hs, hnear, ?_⟩
      obtain ⟨-, hnaive⟩ := DateTime.isValid_of_ofMicros? hmicros
      rw [DateTime.epochMicros, DateTime.universalMicros, hnaive, DateTime.toMicros_of_ofMicros? hmicros,
        ← hsum, microsPerSecond]
      simp only [Option.getD_none]
      ring
    · cases h

/-- The microseconds are no more than a rounded half from the number of seconds. -/
theorem abs_epochMicros_sub_le {x : Float} {q : ℚ} (hx : value? x = some q) {t : DateTime}
    (h : instantOfSeconds x = .ok t) : |(t.epochMicros : ℚ) - q * 1000000| ≤ 1 / 2 + 2 ^ (-34 : ℤ) := by
  obtain ⟨s, p, hs, hnear, hmicros⟩ := exists_epochMicros_eq h
  obtain rfl : s.value = q := by
    rw [value?, hs] at hx
    exact Option.some.inj hx
  have hround := p.abs_roundEven_sub_le
  rw [hmicros, Int.cast_add, Int.cast_mul, Int.cast_ofNat]
  generalize (2 : ℚ) ^ (-34 : ℤ) = ε at hnear ⊢
  rw [abs_le] at hround hnear ⊢
  constructor <;> linarith

/-- They are an integer that is nearer than that. -/
theorem epochMicros_of_near {x : Float} {q : ℚ} (hx : value? x = some q) {t : DateTime}
    (h : instantOfSeconds x = .ok t) {n : ℤ} (hn : |q * 1000000 - n| < 1 / 2 - 2 ^ (-34 : ℤ)) :
    t.epochMicros = n := by
  have hmicros := abs_lt.mp (lt_of_le_of_lt (abs_sub_le (t.epochMicros : ℚ) (q * 1000000) n)
    (add_lt_add_of_le_of_lt (abs_epochMicros_sub_le hx h) hn))
  have hlow : -1 < t.epochMicros - n := by
    have : (-1 : ℚ) < t.epochMicros - n := by linarith
    exact_mod_cast this
  have hhigh : t.epochMicros - n < 1 := by
    have : (t.epochMicros : ℚ) - n < 1 := by linarith
    exact_mod_cast this
  omega

/-! ## Milliseconds -/

/-- An integer becomes a point of time through the double of its seconds. -/
theorem exists_instantOfSeconds {v : ℤ} {w : Value} (h : coerceInstant (.int v) = .ok w) :
    ∃ q t, value? (ofSignedRatio v 1000) = some q ∧ instantOfSeconds (ofSignedRatio v 1000) = .ok t ∧
      w = .instant t := by
  obtain ⟨x, hx, h⟩ := Outcome.bind_eq_ok.mp h
  obtain ⟨t, ht, h⟩ := Outcome.bind_eq_ok.mp h
  obtain rfl := Except.ok.inj h
  unfold secondsOfMillis at hx
  simp only at hx
  split_ifs at hx with hfinite
  obtain rfl := Except.ok.inj hx
  obtain ⟨s, hs⟩ := Option.isSome_iff_exists.mp hfinite
  exact ⟨s.value, t, by rw [value?, hs]; rfl, ht, rfl⟩

/-- A point of time of the calendar is less than so many seconds from 1970. -/
theorem abs_lt_of_instantOfSeconds {x : Float} {q : ℚ} (hx : value? x = some q) {t : DateTime}
    (h : instantOfSeconds x = .ok t) : |q| < 2 ^ (38 : ℤ) := by
  obtain ⟨hvalid, hnaive⟩ := isValid_of_instantOfSeconds h
  obtain ⟨hfirst, hlast⟩ := DateTime.toMicros_bounds hvalid
  have hmicros : t.epochMicros = t.toMicros - 719162 * 86400000000 := by
    rw [DateTime.epochMicros, DateTime.universalMicros, hnaive]
    simp only [Option.getD_none, epochOrigin, epochDays, microsPerDay, microsPerSecond]
    omega
  have hlow : (-(719162 * 86400000000) : ℚ) ≤ t.epochMicros := by
    rw [hmicros]
    exact_mod_cast (by omega)
  have hhigh : (t.epochMicros : ℚ) < 2932897 * 86400000000 := by
    rw [hmicros]
    exact_mod_cast (by omega)
  have hnear := abs_le.mp (abs_epochMicros_sub_le hx h)
  rw [abs_lt]
  norm_num at hnear ⊢
  constructor <;> linarith

variable {v : ℤ} {q : ℚ} {t : DateTime}

/-- The seconds of an integer, below a power of two. -/
theorem abs_seconds_sub_le (hq : value? (ofSignedRatio v 1000) = some q) {k : ℤ} (hk : -1021 ≤ k)
    (hmax : k < 1024) (h : |(v : ℚ) / 1000| < 2 ^ k) : |q - v / 1000| ≤ 2 ^ (k - 54) := by
  obtain ⟨z, hz, hnear⟩ := exists_value?_ofSignedRatio v (show 0 < 1000 by decide) hk hmax (by exact_mod_cast h)
  obtain rfl := Option.some.inj (hz.symm.trans hq)
  exact_mod_cast hnear

/-- Those of an integer that stands for a point of time are less than 2 ^ 38. -/
theorem abs_seconds_lt (hq : value? (ofSignedRatio v 1000) = some q)
    (h : instantOfSeconds (ofSignedRatio v 1000) = .ok t) : |(v : ℚ) / 1000| < 2 ^ (38 : ℤ) := by
  have hlt := abs_lt_of_value?_ofSignedRatio (by decide) hq (by norm_num) (by norm_num)
    (abs_lt_of_instantOfSeconds hq h)
  exact_mod_cast hlt

/-- Whole eighths of a second are doubles. -/
theorem seconds_of_eighths (hq : value? (ofSignedRatio v 1000) = some q)
    (h : |(v : ℚ) / 1000| < 2 ^ (38 : ℤ)) (hdvd : 125 ∣ v) : q = v / 1000 := by
  obtain ⟨m, rfl⟩ := hdvd
  have heighths : ((125 * m : ℤ) : ℚ) / 1000 = m * 2 ^ (-3 : ℤ) := by
    push_cast
    ring
  have hsmall : m.natAbs < 2 ^ 53 := by
    have hcast : ((m.natAbs : ℕ) : ℚ) < 2 ^ 53 := by
      rw [heighths, abs_mul] at h
      rw [Nat.cast_natAbs, Int.cast_abs]
      norm_num at h ⊢
      linarith
    exact_mod_cast hcast
  have hdouble : IsDouble (((125 * m : ℤ) : ℚ) / (1000 : ℕ)) := by
    rw [Nat.cast_ofNat, heighths]
    exact isDouble_mul_pow hsmall (by norm_num) (by norm_num)
  have hvalue := value?_ofSignedRatio (125 * m) (show 0 < 1000 by decide) hdouble
  rw [Nat.cast_ofNat] at hvalue
  exact Option.some.inj (hq.symm.trans hvalue)

/-- The microseconds of an integer are those of its milliseconds, up to fifteen. -/
theorem abs_epochMicros_sub_millis_le (hq : value? (ofSignedRatio v 1000) = some q)
    (h : instantOfSeconds (ofSignedRatio v 1000) = .ok t) : |t.epochMicros - 1000 * v| ≤ 15 := by
  have hseconds := abs_le.mp
    (abs_seconds_sub_le hq (by norm_num) (by norm_num) (abs_seconds_lt hq h))
  have hmicros := abs_le.mp (abs_epochMicros_sub_le hq h)
  have hlow : (-16 : ℚ) < t.epochMicros - 1000 * v := by
    norm_num at hseconds hmicros
    linarith
  have hhigh : (t.epochMicros : ℚ) - 1000 * v < 16 := by
    norm_num at hseconds hmicros
    linarith
  have hlow' : -16 < t.epochMicros - 1000 * v := by exact_mod_cast hlow
  have hhigh' : t.epochMicros - 1000 * v < 16 := by exact_mod_cast hhigh
  rw [abs_le]
  omega

/-- They are exact for no more than 2 ^ 33 seconds, and for whole eighths of a second. -/
theorem epochMicros_eq_millis (hq : value? (ofSignedRatio v 1000) = some q)
    (h : instantOfSeconds (ofSignedRatio v 1000) = .ok t) (hv : v.natAbs < 1000 * 2 ^ 33 ∨ 125 ∣ v) :
    t.epochMicros = 1000 * v := by
  refine epochMicros_of_near hq h ?_
  rcases hv with hsmall | hdvd
  · have hlt : |(v : ℚ) / 1000| < 2 ^ (33 : ℤ) := by
      have hcast : ((v.natAbs : ℕ) : ℚ) < 1000 * 2 ^ 33 := by exact_mod_cast hsmall
      rw [Nat.cast_natAbs, Int.cast_abs] at hcast
      rw [abs_div, abs_of_pos (by norm_num : (0 : ℚ) < 1000), div_lt_iff₀ (by norm_num), zpow_ofNat]
      linarith
    have hseconds := abs_le.mp (abs_seconds_sub_le hq (by norm_num) (by norm_num) hlt)
    rw [abs_lt]
    norm_num at hseconds ⊢
    constructor <;> linarith
  · rw [seconds_of_eighths hq (abs_seconds_lt hq h) hdvd]
    have hexact : (v : ℚ) / 1000 * 1000000 - ((1000 * v : ℤ) : ℚ) = 0 := by
      push_cast
      ring
    rw [hexact, abs_zero]
    norm_num

/-- The point of time that an integer becomes, by the seconds and the microseconds of their fraction. -/
theorem coerceInstant_int {v : ℤ} {s p : Scaled} {t : DateTime}
    (hs : scaled? (ofSignedRatio v 1000) = some s)
    (hp : scaled? (fractionalPart s * 1000000.0) = some p)
    (hmicros : 0 ≤ p.roundEven ∧ p.roundEven < 1000000) (hseconds : 0 ≤ s.truncate ∧ s.truncate < 2 ^ 38)
    (ht : DateTime.ofMicros? (epochOrigin + s.truncate * microsPerSecond + p.roundEven) none = some t) :
    coerceInstant (.int v) = .ok (.instant t) := by
  have hsplit : splitSeconds (ofSignedRatio v 1000) s = .ok (s.truncate, p.roundEven) := by
    unfold splitSeconds
    simp only [hp, hs, Option.elim_some]
    rw [if_neg (by omega), if_neg (by omega)]
  have hbound : ¬ (s.truncate < -(2 ^ 63) ∨ s.truncate ≥ 2 ^ 63) := by omega
  have hreach : ¬ (s.truncate < leastReachableSeconds ∨ s.truncate > reachableSeconds) := by
    simp only [leastReachableSeconds, reachableSeconds]
    omega
  have hinstant : instantOfSeconds (ofSignedRatio v 1000) = .ok t := by
    unfold instantOfSeconds
    simp only [hs, hsplit, Outcome.ok_bind, if_neg hbound, if_neg hreach, ht]
  have hfinite : secondsOfMillis v = .ok (ofSignedRatio v 1000) := by
    rw [secondsOfMillis, hs]
    rfl
  rw [coerceInstant, hfinite, Outcome.ok_bind, hinstant]
  rfl

/-- A filter compares the stored point of time with the one that an integer becomes. -/
theorem satisfies_millis {v : ℤ} {t u u' : DateTime} (hv : coerce (some .datetime) (.int v) = .ok (.instant t))
    (hnaive : t.offset = none) {types : Entries AttributeType} {field : String} {record : Record}
    (htype : Entries.get? types field = some .datetime) (hfield : field.startsWith "$" = false)
    (hrecord : record.field field = .instant u) (hu : u.toUniversal? = some u') :
    Filter.satisfies types field record .eq (.int v) = .ok (decide (u'.epochMicros = t.epochMicros)) := by
  have hstored : Filter.Stands .datetime (record.field field) (.instant u') := by
    have hcoerce : coerce (some .datetime) (.instant u) = .ok (.instant u') := by
      rw [coerce, coerceInstant, universal, hu]
      rfl
    have hcontains := AttributeType.Contains.datetime (offset_of_toUniversal? hu)
    rw [hrecord]
    exact ⟨hcontains.comparable_eq hcoerce, .inr ⟨by simp, hcontains⟩⟩
  have hoperand : Filter.Stands .datetime (.int v) (.instant t) :=
    have hcontains := AttributeType.Contains.datetime hnaive
    ⟨hcontains.comparable_eq hv, .inr ⟨by simp, hcontains⟩⟩
  have hequal : (Value.int u'.epochMicros).equal? (.int t.epochMicros) =
      some (decide (u'.epochMicros = t.epochMicros)) := by
    rw [(Value.compare_ints _ _).2, Option.some.injEq, Bool.eq_iff_iff, beq_iff_eq, compare_eq_iff_eq,
      decide_eq_true_eq]
  rw [Filter.satisfies_of_stands htype hfield hstored hoperand (.inl rfl), Value.measure, Value.measure,
    Filter.Operator.holds, hequal]
  rfl

/-- What an integer that counts milliseconds exactly has in common with the point of time it becomes. -/
structure MeansMillis (v : ℤ) (t : DateTime) : Prop where
  micros : t.epochMicros = 1000 * v
  alike : epochMicros (.instant t) = epochMicros (.int v)
  /-- A filter for the integer finds the stored points of time that have its milliseconds. -/
  found : ∀ types field record (u u' : DateTime), Entries.get? types field = some .datetime →
    field.startsWith "$" = false → Record.field record field = .instant u → u.toUniversal? = some u' →
    Filter.satisfies types field record .eq (.int v) = .ok (decide (u'.epochMicros = 1000 * v))

/-- An integer that becomes a point of time becomes one within fifteen microseconds of its milliseconds
since 1970, and exactly that one if it counts no more than 2 ^ 33 seconds or whole eighths of a second;
compared directly it always counts its milliseconds. -/
theorem integers_mean_milliseconds {v : ℤ} {w : Value} (h : coerce (some .datetime) (.int v) = .ok w) :
    ∃ t, w = .instant t ∧ t.isValid = true ∧ t.offset = none ∧
      epochMicros (.int v) = .ok (.int (1000 * v)) ∧ |t.epochMicros - 1000 * v| ≤ 15 ∧
      (v.natAbs ≤ 1000 * 2 ^ 33 ∨ 125 ∣ v → MeansMillis v t) := by
  obtain ⟨q, t, hq, ht, rfl⟩ := exists_instantOfSeconds h
  obtain ⟨hvalid, hnaive⟩ := isValid_of_instantOfSeconds ht
  have hmillis : epochMicros (.int v) = .ok (.int (1000 * v)) := by
    rw [epochMicros, Int.mul_comm]
  refine ⟨t, rfl, hvalid, hnaive, hmillis, abs_epochMicros_sub_millis_le hq ht, fun hv => ?_⟩
  have hexact : t.epochMicros = 1000 * v := epochMicros_eq_millis hq ht (by omega)
  refine ⟨hexact, ?_, fun types field record u u' htype hfield hrecord hu => ?_⟩
  · rw [hmillis, epochMicros, universal_of_naive hnaive, ← hexact]
    rfl
  · rw [satisfies_millis h hnaive htype hfield hrecord hu, hexact]

/-- A millisecond after noon on the first of March 2024. -/
def afterNoon : DateTime := ⟨⟨2024, 3, 1⟩, 12, 0, 0, 1000, none⟩

/-- Its milliseconds mean it. -/
theorem after_noon_means_millis :
    coerce (some .datetime) (.int 1709294400001) = .ok (.instant afterNoon) ∧
    MeansMillis 1709294400001 afterNoon := by
  have hcoerce : coerce (some .datetime) (.int 1709294400001) = .ok (.instant afterNoon) :=
    coerceInstant_int (s := ⟨7169300339101794, -22⟩) (p := ⟨8795455488000000, -43⟩) (by decide +kernel)
      (by decide +kernel) (by decide +kernel) (by decide +kernel) (by decide +kernel)
  obtain ⟨t, ht, -, -, -, -, hmeans⟩ := integers_mean_milliseconds hcoerce
  obtain rfl : afterNoon = t := by injection ht
  exact ⟨hcoerce, hmeans (.inl (by decide))⟩

/-- The first millisecond after 2 ^ 33 seconds, in the year 2242. -/
def lateMillisecond : DateTime := ⟨⟨2242, 3, 16⟩, 12, 56, 32, 1000, none⟩

/-- What its milliseconds become is a microsecond too early, and a filter for them misses it. -/
theorem late_millisecond_is_missed :
    epochMicros (.instant lateMillisecond) = epochMicros (.int 8589934592001) ∧
    coerce (some .datetime) (.int 8589934592001) = .ok (.instant { lateMillisecond with micro := 999 }) ∧
    Filter.satisfies [("at", .datetime)] "at" [("at", .instant lateMillisecond)] .eq
      (.int 8589934592001) = .ok false := by
  have hcoerce : coerce (some .datetime) (.int 8589934592001) =
      .ok (.instant { lateMillisecond with micro := 999 }) :=
    coerceInstant_int (s := ⟨4503599627371020, -19⟩) (p := ⟨8791261184000000, -43⟩) (by decide +kernel)
      (by decide +kernel) (by decide +kernel) (by decide +kernel) (by decide +kernel)
  have hmicros : lateMillisecond.epochMicros = 8589934592001 * 1000 := by decide +kernel
  have hfield : "at".startsWith "$" = false := String.startsWith_string_eq_false_iff.mpr (by decide)
  have hmissed : decide (lateMillisecond.epochMicros =
      ({ lateMillisecond with micro := 999 } : DateTime).epochMicros) = false := by decide +kernel
  refine ⟨?_, hcoerce, ?_⟩
  · have hlate : epochMicros (.instant lateMillisecond) = .ok (.int lateMillisecond.epochMicros) := by
      rw [epochMicros, universal_of_naive (show lateMillisecond.offset = none from rfl)]
      rfl
    rw [hlate, hmicros, epochMicros]
  · rw [satisfies_millis hcoerce rfl rfl hfield rfl rfl, hmissed]

end TwinStore
