import TwinStore.Proofs.DecimalDocuments

/-!
# Decimal numbers in the texts of doubles

A decimal number that is not integral is written as its nearest double, and that with its shortest
digits.  However these are spelled, they are read as a decimal number: their power of ten is far from
what cannot be held.  So whatever has a document comes back as some decimal number.

Main results:

- Theorem `Binary64.le_shortestDigits`: the power of ten of the shortest digits is not too small.
- Theorem `Decimal.exists_parse?_text`: the text of every double is read as a decimal number.
- Theorem `Cache.exists_restore_decimal`: the document of a decimal number is restored to one.
-/

namespace TwinStore.Number

/-! ## The size of the shortest digits -/

namespace Binary64

/-- The place of the first digit is not far below its estimate. -/
theorem le_decimalPoint (num den : ℕ) :
    ((num.log2 : ℤ) - den.log2) * 1233 / 4096 - 1 ≤ decimalPoint num den := by
  rw [decimalPoint]
  generalize ((num.log2 : ℤ) - den.log2) * 1233 / 4096 = estimate
  generalize hfound : List.find? _ _ = found
  cases found with
  | none =>
    rw [Option.getD_none]
    omega
  | some k =>
    have hk := List.mem_of_find?_eq_some hfound
    simp only [List.map_cons, List.map_nil, List.mem_cons, List.not_mem_nil, or_false] at hk
    rw [Option.getD_some]
    omega

/-- A point of a grid has the power of ten of the grid. -/
theorem gridHit?_exponent {value low high den : ℕ} {closed : Bool} {point : ℤ} {count n : ℕ} {k : ℤ}
    (h : gridHit? value low high den closed point count = some (n, k)) : k = point - count := by
  obtain ⟨_, _, heq⟩ := Option.map_eq_some_iff.mp h
  exact (Prod.mk.inj heq).2.symm

/-- Dropping zeros raises the power of ten. -/
theorem le_dropZeros (fuel n : ℕ) (e : ℤ) : e ≤ (dropZeros fuel n e).2 := by
  induction fuel generalizing n e with
  | zero => exact le_rfl
  | succ fuel ih =>
    rw [dropZeros]
    split_ifs
    · exact (by omega : e ≤ e + 1).trans (ih _ _)
    · exact le_rfl

/-- The power of ten of the shortest digits is not too small. -/
theorem le_shortestDigits {m : ℕ} {e : ℤ} (hgrid : OnGrid m e) : -1074 ≤ (shortestDigits m e).2 := by
  have hexponent := hgrid.exponent
  have hlength : (if e - 2 < 0 then 2 ^ (e - 2).natAbs else 1).log2 ≤ 1076 := by
    split_ifs
    · rw [Nat.log2_two_pow]
      omega
    · decide
  rw [shortestDigits, if_neg hgrid.pos.ne']
  simp only
  generalize (if e - 2 < 0 then 2 ^ (e - 2).natAbs else 1) = den at hlength ⊢
  split
  · next n k hfound =>
    obtain ⟨i, hi, hhit⟩ := List.exists_of_findSome?_eq_some hfound
    have hk := gridHit?_exponent hhit
    have hpoint := le_decimalPoint (4 * m * if e - 2 < 0 then 1 else 2 ^ (e - 2).natAbs) den
    have hcount := List.mem_range.mp hi
    refine le_trans ?_ (le_dropZeros 20 n k)
    omega
  · exact hexponent

/-- The shortest digits of a finite double are of a moderate size. -/
theorem shortestDigits_bounds {x : Float} {s : Scaled} (h : scaled? x = some s) :
    -1074 ≤ (shortestDigits s.mantissa.natAbs s.exponent).2 ∧
      (shortestDigits s.mantissa.natAbs s.exponent).2 ≤ 400 ∧
      ((shortestDigits s.mantissa.natAbs s.exponent).1 : ℚ) *
        10 ^ (shortestDigits s.mantissa.natAbs s.exponent).2 < 10 ^ (400 : ℤ) := by
  by_cases hzero : s.mantissa = 0
  · have hdigits : shortestDigits s.mantissa.natAbs s.exponent = (0, 0) := by
      rw [hzero, Int.natAbs_zero, shortestDigits, if_pos rfl]
    rw [hdigits]
    norm_num
  · obtain ⟨hgrid, he⟩ := onGrid_of_scaled? h hzero
    obtain ⟨hlow, hhigh⟩ := hgrid.bounds_of_roundsTo (shortestDigits_roundsTo hgrid)
    refine ⟨le_shortestDigits hgrid, ?_⟩
    generalize (shortestDigits s.mantissa.natAbs s.exponent).1 = n at hlow hhigh ⊢
    generalize (shortestDigits s.mantissa.natAbs s.exponent).2 = k at hlow hhigh ⊢
    have hvalue : (n : ℚ) * 10 ^ k < 10 ^ (400 : ℤ) := by
      calc (n : ℚ) * 10 ^ k < 2 ^ (s.exponent + 53) := hhigh
        _ ≤ 2 ^ (3 * (400 : ℕ) : ℤ) := zpow_le_zpow_right₀ one_le_two (by omega)
        _ ≤ 10 ^ (400 : ℤ) := two_zpow_le 400
    have hone : (1 : ℚ) ≤ n := by
      rw [Nat.one_le_cast, Nat.one_le_iff_ne_zero]
      rintro rfl
      rw [Nat.cast_zero, zero_mul] at hlow
      exact absurd hlow (not_le.mpr (zpow_pos two_pos _))
    have hten : (0 : ℚ) < 10 ^ k := by positivity
    have hpower : (10 : ℚ) ^ k < 10 ^ (400 : ℤ) :=
      (le_mul_of_one_le_left hten.le hone).trans_lt hvalue
    exact ⟨((zpow_lt_zpow_iff_right₀ (by norm_num)).mp hpower).le, hvalue⟩

end Binary64

/-! ## Reading a spelling -/

namespace Decimal

/-- Numbers of a moderate size can be held. -/
theorem isHeld_of_lt {c : ℕ} {e : ℤ} (hlow : -1074 ≤ e) (hhigh : e ≤ 400)
    (hvalue : (c : ℚ) * 10 ^ e < 10 ^ (400 : ℤ)) : isHeld c e = true := by
  rw [isHeld, Bool.and_eq_true, decide_eq_true_eq, decide_eq_true_eq, leastPlace, greatestPlace]
  refine ⟨by omega, ?_⟩
  split_ifs with hzero
  · omega
  · have hfirst := (Binary64.magnitude_bounds (Nat.pos_of_ne_zero hzero) e).1.trans_lt hvalue
    have := (zpow_lt_zpow_iff_right₀ (by norm_num)).mp hfirst
    omega

/-- Digits with more digits behind a point are read as a coefficient. -/
theorem significand?_spelling {s : Spelling} {c : ℕ} (hs : s.Shows c) :
    significand? (s.whole ++ s.fraction) = some (c, s.places.length) := by
  have hpoint : ∀ d ∈ s.whole, (d != '.') = true := by
    intro d hd
    obtain ⟨n, hn, rfl⟩ := hs.whole d hd
    interval_cases n <;> decide
  have hfraction : (s.fraction.takeWhile (· != '.')) = [] ∧
      ((s.fraction.dropWhile (· != '.')).drop 1) = s.places := by
    rw [Spelling.fraction]
    cases s.places <;> exact ⟨rfl, rfl⟩
  have hwhole : s.whole.isEmpty = false := List.isEmpty_eq_false_iff.mpr hs.isSome
  simp only [significand?, List.takeWhile_append_of_pos hpoint, List.dropWhile_append_of_pos hpoint,
    hfraction, List.append_nil, hwhole, Bool.false_and, Bool.false_eq_true, if_false, hs.run,
    Option.map_some]

/-- A signed number behind the mark of a spelling is read as its power of ten. -/
theorem exponentPart?_padded (place : ℤ) :
    exponentPart? ((if place < 0 then "-" else "+").toList ++ (padded 2 place.natAbs).toList) =
      some place := by
  obtain ⟨d, ds, hpadded, -, hrun⟩ := exists_padded 2 place.natAbs
  rw [hpadded, exponentPart?, splitSign_sign]
  simp only [List.isEmpty_cons, Bool.false_eq_true, if_false, hrun, decide_eq_true_eq]
  refine congrArg some ?_
  split_ifs
  all_goals
    dsimp only
    omega

/-- A number is read from its spelling, if it can be held. -/
theorem unsigned?_spelling {s : Spelling} {c : ℕ} (hs : s.Shows c) (negative : Bool)
    (hheld : isHeld c s.exponent = true) :
    unsigned? negative s.chars = some (finite negative c s.exponent) := by
  have hmark : ∀ d ∈ s.whole ++ s.fraction, (!(d == 'e' || d == 'E')) = true := by
    have hdigits {cs : List Char} (hcs : AllDigits cs) :
        ∀ d ∈ cs, (!(d == 'e' || d == 'E')) = true := by
      intro d hd
      obtain ⟨n, hn, rfl⟩ := hcs d hd
      interval_cases n <;> decide
    intro d hd
    rcases List.mem_append.mp hd with hd | hd
    · exact hdigits hs.whole d hd
    · rw [Spelling.fraction] at hd
      split_ifs at hd
      · cases hd
      · rcases List.mem_cons.mp hd with rfl | hd
        · decide
        · exact hdigits hs.places d hd
  rw [Spelling.exponent] at hheld ⊢
  rw [Spelling.chars, ← List.append_assoc, unsigned?, Spelling.mark]
  cases hshift : s.shift with
  | none =>
    rw [hshift, Option.getD_none] at hheld
    simp only [List.append_nil, List.takeWhile_eq_self_iff.mpr hmark,
      List.dropWhile_eq_nil_iff.mpr hmark, significand?_spelling hs, Option.bind_eq_bind,
      Option.bind_some]
    rw [if_pos hheld]
    rfl
  | some place =>
    rw [hshift, Option.getD_some] at hheld
    simp only [List.takeWhile_append_of_pos hmark, List.dropWhile_append_of_pos hmark,
      List.takeWhile_cons, List.dropWhile_cons, BEq.rfl, Bool.true_or, Bool.not_true,
      Bool.false_eq_true, if_false, List.append_nil, significand?_spelling hs,
      exponentPart?_padded place, Option.bind_eq_bind, Option.bind_some]
    rw [if_pos hheld]
    rfl

/-- A spelling has no blanks, no underscores and only ASCII characters. -/
theorem isPlain_of_mem_chars {s : Spelling} {c : ℕ} (hs : s.Shows c) {d : Char} (hd : d ∈ s.chars) :
    Text.isBlank d = false ∧ (d != '_') = true ∧ 0 < d.toNat ∧ d.toNat < 128 := by
  have hdigits {cs : List Char} (hcs : AllDigits cs) (hd : d ∈ cs) :
      Text.isBlank d = false ∧ (d != '_') = true ∧ 0 < d.toNat ∧ d.toNat < 128 := by
    obtain ⟨n, hn, rfl⟩ := hcs d hd
    exact isPlain_digitChar hn
  rw [Spelling.chars, Spelling.fraction, Spelling.mark, List.mem_append, List.mem_append] at hd
  rcases hd with hd | hd | hd
  · exact hdigits hs.whole hd
  · split_ifs at hd
    · cases hd
    · rcases List.mem_cons.mp hd with rfl | hd
      · decide
      · exact hdigits hs.places hd
  · split at hd
    · cases hd
    · next place _ =>
      obtain ⟨e, es, hpadded, hall, -⟩ := exists_padded 2 place.natAbs
      rw [hpadded, List.mem_cons, List.mem_append] at hd
      rcases hd with rfl | hd | hd
      · decide
      · split_ifs at hd
        · obtain rfl := List.mem_singleton.mp hd
          decide
        · obtain rfl := List.mem_singleton.mp hd
          decide
      · exact hdigits hall hd

/-- Digits of a moderate size, in a layout behind their sign, are read as a decimal number. -/
theorem exists_parse?_write (layout : Binary64.Layout) (negative : Bool) {n : ℕ} {k : ℤ}
    (hlow : -1074 ≤ k) (hhigh : k ≤ 400) (hvalue : (n : ℚ) * 10 ^ k < 10 ^ (400 : ℤ)) :
    ∃ d, parse? ((if negative then "-" else "") ++ layout.write n k) = some d := by
  obtain ⟨s, c, hchars, hshows, -, hexponent, hsame⟩ := exists_spelling layout n k
  obtain ⟨ch, cs, hcons⟩ := List.exists_cons_of_ne_nil hshows.isSome
  obtain ⟨e, he, rfl⟩ := hshows.whole ch (hcons ▸ List.mem_cons_self)
  have hfirst : s.chars = Nat.digitChar e :: (cs ++ (s.fraction ++ s.mark)) := by
    rw [Spelling.chars, hcons, List.cons_append]
  have htext : ((if negative then "-" else "") ++ layout.write n k).toList =
      (if negative then ['-'] else []) ++ s.chars := by
    rw [String.toList_append, hchars]
    cases negative <;> rfl
  have hread := parse?_of_digit he (hfirst ▸ htext) fun d hd => ?_
  · rw [← hfirst] at hread
    rw [← hsame] at hvalue
    exact ⟨_, hread.trans (unsigned?_spelling hshows negative
      (isHeld_of_lt (by omega) (by omega) hvalue))⟩
  · rw [htext] at hd
    rcases List.mem_append.mp hd with hd | hd
    · cases negative
      · cases hd
      · obtain rfl := List.mem_singleton.mp hd
        decide
    · exact isPlain_of_mem_chars hshows hd

/-- The text of every double is read as a decimal number. -/
theorem exists_parse?_text (x : Float) : ∃ d, parse? (Binary64.text x) = some d := by
  rw [Binary64.text, Binary64.Layout.text]
  cases hscaled : Binary64.scaled? x with
  | none =>
    have hinfinity (negative : Bool) : ∃ d, parse? ((if negative then "-" else "") ++ "inf") =
        some d := by
      cases negative
      · exact ⟨.infinity false, by decide +kernel⟩
      · exact ⟨.infinity true, by decide +kernel⟩
    simp only
    split_ifs
    · exact ⟨.nan false false 0, by decide +kernel⟩
    · exact hinfinity true
    · exact hinfinity false
  | some s =>
    obtain ⟨hlow, hhigh, hvalue⟩ := Binary64.shortestDigits_bounds hscaled
    exact exists_parse?_write _ _ hlow hhigh hvalue

end Decimal

end TwinStore.Number

namespace TwinStore.Cache

open Number

/-! ## Documents of decimal numbers -/

/-- What has the document of a double is restored as a decimal number. -/
theorem exists_restore_float (x : Float) : ∃ n, restore (some .decimal) (.float x) = .ok (.decimal n) := by
  obtain ⟨n, hn⟩ := Decimal.exists_parse?_text x
  exact ⟨n, restore_of_parse? rfl hn⟩

/-- What has the document of an integer is restored as a decimal number. -/
theorem exists_restore_int {n : ℤ} {j : Json} (h : Json.ofInteger n = .ok j) :
    ∃ d, restore (some .decimal) j.toValue = .ok (.decimal d) ∧ j.settled = j := by
  rw [Json.ofInteger] at h
  split_ifs at h with hlong
  obtain rfl := Except.ok.inj h
  exact ⟨_, restore_of_parse? rfl (Decimal.parse?_integerText (not_lt.mp hlong)), rfl⟩

/-- The document of a decimal number is restored to one. -/
theorem exists_restore_decimal {d : Decimal} {j : Json} (h : decimalDocument d = .ok j) :
    ∃ n, restore (some .decimal) j.toValue = .ok (.decimal n) ∧ j.settled = j := by
  have hfloat {x : Float} (hj : Except.ok (.float x) = (Except.ok j : Outcome Json)) :
      ∃ n, restore (some .decimal) j.toValue = .ok (.decimal n) ∧ j.settled = j := by
    obtain rfl := Except.ok.inj hj
    obtain ⟨n, hn⟩ := exists_restore_float x
    exact ⟨n, hn, rfl⟩
  cases d with
  | infinity negative => cases h
  | nan negative signaling payload =>
    cases signaling
    · exact hfloat h
    · cases h
  | finite negative coefficient exponent =>
    rw [decimalDocument] at h
    split_ifs at h
    split at h
    · exact exists_restore_int h
    · exact hfloat h

end TwinStore.Cache
