import Mathlib.Algebra.Order.Field.Rat
import Mathlib.Data.List.Induction
import Mathlib.Data.List.TakeDrop
import Mathlib.Tactic.FieldSimp
import TwinStore.Number.Decimal
import TwinStore.Proofs.Digits

/-!
# How numbers are spelled

An integer is spelled with all its digits.  The digits of a double stand in one of three forms: with a
power of ten behind them, behind zeros and a point, or around a point.  Each of them consists of some
digits, more digits behind a point, and a power of ten behind a mark, and it has the value of the digits
that it was made of.

Main definitions:

- `AllDigits`: texts of digits only.
- `Spelling`: the parts of a number without its sign.
- `Spelling.Shows`: the spellings of a coefficient.

Main results:

- Theorem `integerText_toList`: the characters of an integer.
- Theorem `digitRun?_append`: the number of two runs of digits side by side.
- Theorem `Spelling.Shows.split`, `Spelling.Shows.below`, `Spelling.Shows.filled`: what digits show with
  a point between them, behind a point, and in front of it.
- Theorem `exists_spelling`: digits in a layout are the spelling of a number of the same value.
-/

namespace TwinStore.Number

/-! ## Runs of digits -/

/-- Whether all characters are decimal digits. -/
def AllDigits (cs : List Char) : Prop := ∀ c ∈ cs, ∃ d < 10, c = Nat.digitChar d

namespace AllDigits

theorem append {cs ds : List Char} (hcs : AllDigits cs) (hds : AllDigits ds) :
    AllDigits (cs ++ ds) := by
  intro c hc
  rcases List.mem_append.mp hc with hc | hc
  · exact hcs c hc
  · exact hds c hc

theorem of_subset {cs ds : List Char} (hds : AllDigits ds) (h : cs ⊆ ds) : AllDigits cs :=
  fun c hc => hds c (h hc)

theorem replicate (k : Nat) : AllDigits (List.replicate k '0') :=
  fun _ hc => ⟨0, by decide, List.eq_of_mem_replicate hc⟩

/-- The digits of a number are digits. -/
theorem toDigits (n : Nat) : AllDigits (Nat.toDigits 10 n) := by
  induction n using Nat.strongRecOn with
  | _ n ih =>
    by_cases hsmall : n < 10
    · rw [Nat.toDigits_of_lt_base hsmall]
      exact fun c hc => ⟨n, hsmall, List.mem_singleton.mp hc⟩
    · rw [Nat.toDigits_of_base_le (by decide) (by omega)]
      refine (ih (n / 10) (by omega)).append fun c hc => ?_
      exact ⟨n % 10, Nat.mod_lt _ (by decide), List.mem_singleton.mp hc⟩

/-- Every digit is read as one. -/
theorem isSome {cs : List Char} (hcs : AllDigits cs) {c : Char} (hc : c ∈ cs) :
    (Text.asciiDigit? c).isSome = true := by
  obtain ⟨d, hd, rfl⟩ := hcs c hc
  rw [asciiDigit?_digitChar hd]
  rfl

end AllDigits

/-- The first digit of a number is zero for zero only. -/
theorem exists_toDigits (n : Nat) :
    ∃ d ds, Nat.toDigits 10 n = Nat.digitChar d :: ds ∧ d < 10 ∧ (d = 0 → n = 0) := by
  induction n using Nat.strongRecOn with
  | _ n ih =>
    by_cases hsmall : n < 10
    · exact ⟨n, [], Nat.toDigits_of_lt_base hsmall, hsmall, id⟩
    · obtain ⟨d, ds, hdigits, hd, hzero⟩ := ih (n / 10) (by omega)
      refine ⟨d, ds ++ [Nat.digitChar (n % 10)], ?_, hd, fun h => ?_⟩
      · rw [Nat.toDigits_of_base_le (by decide) (by omega), hdigits, List.cons_append]
      · have := hzero h
        omega

/-- An integer is written with its sign and the digits of its size. -/
theorem integerText_toList (n : Int) : (integerText n).toList =
    (if decide (n < 0) then ['-'] else []) ++ Nat.toDigits 10 n.natAbs := by
  rw [integerText, digits]
  by_cases hneg : n < 0
  · rw [if_pos hneg, decide_eq_true hneg, if_pos rfl, String.toList_append, String.toList_ofList,
      String.toList_ofList]
  · rw [if_neg hneg, decide_eq_false hneg, if_neg Bool.false_ne_true, String.toList_ofList,
      List.nil_append]

/-- Reading goes on with the digits behind those that were read. -/
theorem foldlM_digits (value : Nat) (ds : List Char) :
    ds.foldlM (fun n c => (Text.asciiDigit? c).map (10 * n + ·)) value =
      (Decimal.digitRun? ds).map (value * 10 ^ ds.length + ·) := by
  rw [Decimal.digitRun?]
  induction ds using List.reverseRecOn with
  | nil => simp
  | append_singleton ds c ih =>
    simp only [List.foldlM_append, List.foldlM_cons, List.foldlM_nil, List.length_append,
      List.length_singleton, ih, Option.bind_eq_bind, Option.pure_def]
    cases (ds.foldlM (fun n c => (Text.asciiDigit? c).map (10 * n + ·)) 0) with
    | none => rfl
    | some n =>
      cases Text.asciiDigit? c with
      | none => rfl
      | some d =>
        simp only [Option.map_some, Option.bind_some, Option.some.injEq]
        ring

/-- The number of two runs of digits side by side. -/
theorem digitRun?_append {cs ds : List Char} {a b : Nat} (hcs : Decimal.digitRun? cs = some a)
    (hds : Decimal.digitRun? ds = some b) :
    Decimal.digitRun? (cs ++ ds) = some (a * 10 ^ ds.length + b) := by
  rw [Decimal.digitRun?] at hcs
  rw [Decimal.digitRun?, List.foldlM_append, hcs, Option.bind_eq_bind, Option.bind_some,
    foldlM_digits, hds, Option.map_some]

/-- One digit is read as its number. -/
theorem digitRun?_singleton {d : Nat} (hd : d < 10) :
    Decimal.digitRun? [Nat.digitChar d] = some d := by
  simp [Decimal.digitRun?, asciiDigit?_digitChar hd]

/-- Zeros are read as zero. -/
theorem digitRun?_replicate (k : Nat) : Decimal.digitRun? (List.replicate k '0') = some 0 := by
  induction k with
  | zero => rfl
  | succ k ih =>
    have hzero : Decimal.digitRun? ['0'] = some 0 := rfl
    rw [List.replicate_succ', digitRun?_append ih hzero, Nat.zero_mul]

/-- The digits of a number are read back. -/
theorem digitRun?_toDigits (n : Nat) : Decimal.digitRun? (Nat.toDigits 10 n) = some n := by
  induction n using Nat.strongRecOn with
  | _ n ih =>
    by_cases hsmall : n < 10
    · rw [Nat.toDigits_of_lt_base hsmall, digitRun?_singleton hsmall]
    · rw [Nat.toDigits_of_base_le (by decide) (by omega), digitRun?_append (ih (n / 10) (by omega))
        (digitRun?_singleton (Nat.mod_lt n (by decide))), List.length_singleton, Nat.pow_one,
        Nat.div_add_mod']

/-- Zeros in front of a number do not change it. -/
theorem digitRun?_replicate_append (k n : Nat) :
    Decimal.digitRun? (List.replicate k '0' ++ Nat.toDigits 10 n) = some n := by
  rw [digitRun?_append (digitRun?_replicate k) (digitRun?_toDigits n), Nat.zero_mul, Nat.zero_add]

/-- The digits of a padded number are read back. -/
theorem exists_padded (width n : Nat) : ∃ d ds, (padded width n).toList = d :: ds ∧
    AllDigits (d :: ds) ∧ Decimal.digitRun? (d :: ds) = some n := by
  have hdigits : (padded width n).toList =
      List.replicate (width - (Nat.toDigits 10 n).length) '0' ++ Nat.toDigits 10 n := by
    rw [padded, String.toList_ofList]
  have hne : (padded width n).toList ≠ [] := by
    rw [hdigits]
    exact List.append_ne_nil_of_right_ne_nil _ (List.ne_nil_of_length_pos Nat.length_toDigits_pos)
  obtain ⟨d, ds, hcons⟩ := List.exists_cons_of_ne_nil hne
  refine ⟨d, ds, hcons, ?_, ?_⟩ <;> rw [← hcons, hdigits]
  · exact (AllDigits.replicate _).append (AllDigits.toDigits n)
  · exact digitRun?_replicate_append _ n

/-- The sign in front of a power of ten is read. -/
theorem splitSign_sign (place : Int) (cs : List Char) :
    Decimal.splitSign ((if place < 0 then "-" else "+").toList ++ cs) = (decide (place < 0), cs) := by
  split_ifs with hneg
  · rw [decide_eq_true hneg]
    rfl
  · rw [decide_eq_false hneg]
    rfl

/-- Only zero has digits that begin with a zero. -/
theorem toDigits_eq_of_head {n : Nat} (h : (Nat.toDigits 10 n).head? = some '0') :
    Nat.toDigits 10 n = ['0'] := by
  obtain ⟨d, ds, hdigits, hd, hzero⟩ := exists_toDigits n
  rw [hdigits, List.head?_cons] at h
  have hfirst : d = 0 := by
    by_contra hne
    have hchar : Nat.digitChar d ≠ '0' := by
      interval_cases d <;> first | exact absurd rfl hne | decide
    exact hchar (Option.some.inj h)
  rw [hzero hfirst, Nat.toDigits_zero]

/-! ## Spellings -/

/-- How a number is spelled without its sign: digits, more digits behind a point, and a power of ten
behind a mark, if there is one. -/
structure Spelling where
  whole : List Char
  places : List Char
  shift : Option Int

namespace Spelling

/-- The point with the digits behind it, if there are any. -/
def fraction (s : Spelling) : List Char := if s.places.isEmpty then [] else '.' :: s.places

/-- The power of ten behind its mark, if there is one. -/
def mark (s : Spelling) : List Char :=
  match s.shift with
  | none => []
  | some place => 'e' :: ((if place < 0 then "-" else "+").toList ++ (padded 2 place.natAbs).toList)

/-- The characters of a spelling. -/
def chars (s : Spelling) : List Char := s.whole ++ (s.fraction ++ s.mark)

/-- The power of ten of the last digit. -/
def exponent (s : Spelling) : Int := s.shift.getD 0 - s.places.length

/-- Whether a spelling shows the digits of a number: they begin with a zero only if that is the only one
in front of the point. -/
structure Shows (s : Spelling) (c : Nat) : Prop where
  whole : AllDigits s.whole
  places : AllDigits s.places
  isSome : s.whole ≠ []
  zero : s.whole.head? = some '0' → s.whole = ['0']
  run : Decimal.digitRun? (s.whole ++ s.places) = some c

namespace Shows

variable {digits : List Char} {n : Nat}

/-- Digits with a point between them show what the digits show. -/
theorem split (hdigits : AllDigits digits) (hpos : 0 < digits.length)
    (hrun : Decimal.digitRun? digits = some n) {whole : Nat} (hwhole : 0 < whole)
    (hzero : digits.head? = some '0' → digits.take whole = ['0']) (shift : Option Int) :
    Shows ⟨digits.take whole, digits.drop whole, shift⟩ n where
  whole := hdigits.of_subset (List.take_subset whole digits)
  places := hdigits.of_subset (List.drop_subset whole digits)
  isSome := List.ne_nil_of_length_pos (by rw [List.length_take]; omega)
  zero h := by
    rw [List.head?_take, if_neg (by omega)] at h
    exact hzero h
  run := by
    show Decimal.digitRun? (digits.take whole ++ digits.drop whole) = some n
    rw [List.take_append_drop, hrun]

/-- Digits behind a point, with zeros in front of them, show what the digits show. -/
theorem below (hdigits : AllDigits digits) (hrun : Decimal.digitRun? digits = some n) (zeros : Nat) :
    Shows ⟨['0'], List.replicate zeros '0' ++ digits, none⟩ n where
  whole := AllDigits.replicate 1
  places := (AllDigits.replicate zeros).append hdigits
  isSome := List.cons_ne_nil _ _
  zero _ := rfl
  run := by
    have hplaces := digitRun?_append (digitRun?_replicate zeros) hrun
    rw [Nat.zero_mul, Nat.zero_add] at hplaces
    show Decimal.digitRun? (['0'] ++ (List.replicate zeros '0' ++ digits)) = some n
    rw [digitRun?_append (show Decimal.digitRun? ['0'] = some 0 from rfl) hplaces, Nat.zero_mul,
      Nat.zero_add]

/-- Digits filled with zeros in front of a point, and one zero behind it, show a multiple of what the
digits show. -/
theorem filled (hdigits : AllDigits digits) (hpos : 0 < digits.length)
    (hrun : Decimal.digitRun? digits = some n) {zeros : Nat}
    (hzero : digits.head? = some '0' → digits = ['0'] ∧ zeros = 0) :
    Shows ⟨digits ++ List.replicate zeros '0', ['0'], none⟩ (n * 10 ^ zeros * 10) where
  whole := hdigits.append (AllDigits.replicate zeros)
  places := AllDigits.replicate 1
  isSome := List.append_ne_nil_of_left_ne_nil (List.ne_nil_of_length_pos hpos) _
  zero h := by
    rw [List.head?_append_of_ne_nil _ (List.ne_nil_of_length_pos hpos)] at h
    obtain ⟨rfl, rfl⟩ := hzero h
    rfl
  run := by
    rw [digitRun?_append (digitRun?_append hrun (digitRun?_replicate zeros))
      (show Decimal.digitRun? ['0'] = some 0 from rfl), List.length_replicate]
    rfl

end Shows

end Spelling

/-- Digits with a power of ten, and a point behind the first one, are the spelling of a number. -/
theorem exists_scientific {digits : List Char} {n : Nat} (hdigits : AllDigits digits)
    (hpos : 0 < digits.length) (hrun : Decimal.digitRun? digits = some n)
    (hhead : digits.head? = some '0' → digits = ['0']) (place : Int) :
    ∃ s : Spelling, (String.ofList (digits.take 1 ++
        if (digits.drop 1).isEmpty then [] else '.' :: digits.drop 1) ++ "e" ++
        (if place < 0 then "-" else "+") ++ padded 2 place.natAbs).toList = s.chars ∧
      s.Shows n ∧ s.shift.isSome ∧ s.exponent = place - (digits.length - 1 : Nat) := by
  have hzero : digits.head? = some '0' → digits.take 1 = ['0'] := by
    intro h
    rw [hhead h]
    rfl
  refine ⟨⟨digits.take 1, digits.drop 1, some place⟩, ?_,
    .split hdigits hpos hrun Nat.one_pos hzero (some place), rfl, ?_⟩
  · simp only [Spelling.chars, Spelling.fraction, Spelling.mark, String.toList_append,
      String.toList_ofList, List.append_assoc]
    rfl
  · rw [Spelling.exponent, Option.getD_some, List.length_drop]

/-- Digits behind a point, with zeros in front of them, are the spelling of a number. -/
theorem exists_fractional {digits : List Char} {n : Nat} (hdigits : AllDigits digits)
    (hpos : 0 < digits.length) (hrun : Decimal.digitRun? digits = some n) (zeros : Nat) :
    ∃ s : Spelling, ("0." ++ String.ofList (List.replicate zeros '0' ++ digits)).toList = s.chars ∧
      s.Shows n ∧ s.places ≠ [] ∧ s.exponent = -((zeros : Int) + digits.length) := by
  have hne : List.replicate zeros '0' ++ digits ≠ [] :=
    List.append_ne_nil_of_right_ne_nil _ (List.ne_nil_of_length_pos hpos)
  refine ⟨⟨['0'], List.replicate zeros '0' ++ digits, none⟩, ?_, .below hdigits hrun zeros, hne, ?_⟩
  · rw [Spelling.chars, Spelling.fraction, List.isEmpty_eq_false_iff.mpr hne,
      if_neg Bool.false_ne_true, String.toList_append, String.toList_ofList, String.toList_ofList,
      Spelling.mark, List.append_nil]
    rfl
  · simp only [Spelling.exponent, Option.getD_none, List.length_append, List.length_replicate]
    omega

/-- Digits around a point, filled with zeros in front of it, are the spelling of a number. -/
theorem exists_positional {digits : List Char} {n : Nat} (hdigits : AllDigits digits)
    (hpos : 0 < digits.length) (hrun : Decimal.digitRun? digits = some n) {whole : Nat}
    (hwhole : 0 < whole) (hhead : digits.head? = some '0' → digits = ['0'] ∧ whole = 1)
    {filled : List Char} (hfilled : filled = digits ++ List.replicate (whole - digits.length) '0') :
    ∃ (s : Spelling) (c : Nat), filled.take whole ++ '.' ::
        (if (filled.drop whole).isEmpty then ['0'] else filled.drop whole) = s.chars ∧
      s.Shows c ∧ s.places ≠ [] ∧ (s.exponent = whole - digits.length ∨ s.exponent = -1) ∧
      (c : ℚ) * 10 ^ s.exponent = n * 10 ^ ((whole : Int) - digits.length) := by
  by_cases hlong : whole < digits.length
  · rw [Nat.sub_eq_zero_of_le hlong.le, List.replicate_zero, List.append_nil] at hfilled
    subst hfilled
    have hfraction : filled.drop whole ≠ [] := by
      refine List.ne_nil_of_length_pos ?_
      rw [List.length_drop]
      omega
    have hexponent : Spelling.exponent ⟨filled.take whole, filled.drop whole, none⟩ =
        whole - filled.length := by
      simp only [Spelling.exponent, Option.getD_none, List.length_drop]
      omega
    have hzero : filled.head? = some '0' → filled.take whole = ['0'] := by
      intro h
      obtain ⟨hzero, rfl⟩ := hhead h
      rw [hzero]
      rfl
    refine ⟨⟨filled.take whole, filled.drop whole, none⟩, n, ?_,
      .split hdigits hpos hrun hwhole hzero none, hfraction, .inl hexponent, by rw [hexponent]⟩
    rw [Spelling.chars, Spelling.fraction, List.isEmpty_eq_false_iff.mpr hfraction,
      if_neg Bool.false_ne_true, if_neg Bool.false_ne_true]
    exact congrArg _ (List.append_nil _).symm
  · have hlength : filled.length = whole := by
      rw [hfilled, List.length_append, List.length_replicate]
      omega
    have hpower : (10 : ℚ) ^ ((whole : Int) - digits.length) = 10 ^ (whole - digits.length) := by
      rw [← zpow_natCast, Nat.cast_sub (by omega)]
    rw [List.drop_of_length_le hlength.le, List.take_of_length_le hlength.le, hfilled]
    refine ⟨⟨digits ++ List.replicate (whole - digits.length) '0', ['0'], none⟩,
      n * 10 ^ (whole - digits.length) * 10, rfl, .filled hdigits hpos hrun fun h => ?_,
      List.cons_ne_nil _ _, .inr rfl, ?_⟩
    · obtain ⟨hzero, rfl⟩ := hhead h
      exact ⟨hzero, by omega⟩
    · rw [hpower, show Spelling.exponent
        ⟨digits ++ List.replicate (whole - digits.length) '0', ['0'], none⟩ = -1 from rfl, zpow_neg_one]
      push_cast
      field_simp

/-- Digits in a layout are the spelling of a number of the same value, with a point or a power of
ten. -/
theorem exists_spelling (layout : Binary64.Layout) (n : Nat) (k : Int) :
    ∃ (s : Spelling) (c : Nat), (layout.write n k).toList = s.chars ∧ s.Shows c ∧
      (s.places ≠ [] ∨ s.shift.isSome) ∧
      (s.exponent = k ∨ s.exponent = 0 ∨ s.exponent = -1) ∧
      (c : ℚ) * 10 ^ s.exponent = n * 10 ^ k := by
  have hall := AllDigits.toDigits n
  have hrun := digitRun?_toDigits n
  have hhead := @toDigits_eq_of_head n
  have hpos := @Nat.length_toDigits_pos 10 n
  have hlength : n = 0 → (Nat.toDigits 10 n).length = 1 := by
    rintro rfl
    rw [Nat.toDigits_zero, List.length_singleton]
  rw [Binary64.Layout.write]
  generalize Nat.toDigits 10 n = digits at hall hrun hhead hpos hlength ⊢
  simp only
  generalize hplace : (if n = 0 then 0 else k + (digits.length : Int) - 1) = place
  have hplace : n = 0 ∧ place = 0 ∨ n ≠ 0 ∧ place = k + digits.length - 1 := by
    split_ifs at hplace with hn
    · exact Or.inl ⟨hn, hplace.symm⟩
    · exact Or.inr ⟨hn, hplace.symm⟩
  have hsame {c : Nat} {e : Int} (he : n = 0 ∨ e = k) (hc : (c : ℚ) * 10 ^ e = n * 10 ^ e) :
      (c : ℚ) * 10 ^ e = n * 10 ^ k := by
    rw [hc]
    rcases he with hn | rfl
    · rw [hn, Nat.cast_zero, zero_mul, zero_mul]
    · rfl
  by_cases hform : place < layout.lowestPlace ∨ place ≥ layout.highestPlace
  · rw [if_pos hform]
    obtain ⟨s, hchars, hshows, hshift, hexponent⟩ := exists_scientific hall hpos hrun hhead place
    exact ⟨s, n, hchars, hshows, .inr hshift, by omega, hsame (by omega) rfl⟩
  rw [if_neg hform]
  by_cases hsmall : place < 0
  · rw [if_pos hsmall]
    obtain ⟨s, hchars, hshows, hplaces, hexponent⟩ :=
      exists_fractional hall hpos hrun (place.natAbs - 1)
    exact ⟨s, n, hchars, hshows, .inl hplaces, by omega, hsame (by omega) rfl⟩
  · rw [if_neg hsmall]
    have hzero : digits = ['0'] → n = 0 := by
      rintro rfl
      exact (Option.some.inj hrun).symm
    have hwhole : digits.head? = some '0' → digits = ['0'] ∧ place.toNat + 1 = 1 := by
      intro h
      have := hzero (hhead h)
      exact ⟨hhead h, by omega⟩
    obtain ⟨s, c, hchars, hshows, hplaces, hexponent, hvalue⟩ :=
      exists_positional hall hpos hrun (Nat.succ_pos _) hwhole rfl
    refine ⟨s, c, ?_, hshows, .inl hplaces, by omega, ?_⟩
    · simp only [String.toList_append, apply_ite String.toList, String.toList_ofList,
        List.append_assoc]
      exact hchars
    · rw [hvalue]
      refine hsame ?_ rfl
      omega

/-- Digits in a layout begin with a digit. -/
theorem exists_write_eq (layout : Binary64.Layout) (n : Nat) (k : Int) :
    ∃ d cs, (layout.write n k).toList = Nat.digitChar d :: cs ∧ d < 10 := by
  obtain ⟨s, c, hchars, hshows, -⟩ := exists_spelling layout n k
  obtain ⟨ch, cs, hcons⟩ := List.exists_cons_of_ne_nil hshows.isSome
  obtain ⟨d, hd, rfl⟩ := hshows.whole ch (hcons ▸ List.mem_cons_self)
  exact ⟨d, cs ++ (s.fraction ++ s.mark), by rw [hchars, Spelling.chars, hcons, List.cons_append], hd⟩

end TwinStore.Number
