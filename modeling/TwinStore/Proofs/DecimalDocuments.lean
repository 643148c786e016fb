import Mathlib.Data.List.TakeWhile
import TwinStore.Cache.Member
import TwinStore.Proofs.DecimalValues
import TwinStore.Proofs.JsonDocuments
import TwinStore.Proofs.Outcome

/-!
# Decimal numbers in documents

Documents have integers and doubles, but no decimal numbers.  An integral number becomes an integer,
any other one the nearest double, so that its document depends on its value alone.  Integers come
back with the same value unless they have too many digits; other numbers do if the shortest digits of
the double are theirs.

Main definitions:

- `Decimal.Survives`: numbers that come back from their nearest double.
- `Decimal.IsKept`: numbers that come back from their document.

Main results:

- Theorem `decimalDocument_of_integral`, `decimalDocument_of_fraction`: which document is written.
- Theorem `decimalDocument_congr`: numbers of one value have one document.
- Theorem `restore_decimalDocument`: a number that is kept comes back with the same value.
-/

namespace TwinStore.Number.Decimal

/-! ## Numbers that come back -/

/-- Whether a number comes back from the shortest digits of its nearest double. -/
def Survives (d : Decimal) : Prop :=
  ∃ d', parse? (Value.float d.toFloat).display = some d' ∧ d'.value? = d.value?

/-- Whether a number comes back from its document: it is integral and not too long, or it is not and
survives as a double. -/
def IsKept (d : Decimal) : Prop :=
  ∃ q, d.value? = some q ∧
    ((∃ n : ℤ, q = n ∧ decimalLength n.natAbs ≤ Json.integerDigits) ∨
      ((∀ n : ℤ, q ≠ n) ∧ d.Survives))

/-! ## Integers read back -/

/-- A digit is no blank, no mark and no letter. -/
theorem isPlain_digitChar {d : ℕ} (hd : d < 10) : Text.isBlank (Nat.digitChar d) = false ∧
    (Nat.digitChar d != '_') = true ∧ 0 < (Nat.digitChar d).toNat ∧
    (Nat.digitChar d).toNat < 128 := by
  interval_cases d <;> decide

/-- The digits of a number and their sign are no blanks, no marks and no letters. -/
theorem isPlain_of_mem {negative : Bool} {n : ℕ} {c : Char}
    (hc : c ∈ (if negative then ['-'] else []) ++ Nat.toDigits 10 n) :
    Text.isBlank c = false ∧ (c != '_') = true ∧ 0 < c.toNat ∧ c.toNat < 128 := by
  rcases List.mem_append.mp hc with hc | hc
  · cases negative
    · cases hc
    · obtain rfl := List.mem_singleton.mp hc
      decide
  · obtain ⟨d, hd, rfl⟩ := AllDigits.toDigits n c hc
    exact isPlain_digitChar hd

/-- Plain characters are kept in a literal. -/
theorem asciiLiteral?_of_plain {s : String} (hs : ∀ c ∈ s.toList,
    Text.isBlank c = false ∧ (c != '_') = true ∧ 0 < c.toNat ∧ c.toNat < 128) :
    asciiLiteral? s = some s.toList := by
  have htrim : (Text.trim s).toList = s.toList := by
    simp only [Text.trim, String.toList_ofList,
      dropWhile_reverse_dropWhile fun c hc => (hs c hc).1]
  rw [asciiLiteral?, htrim, List.filter_eq_self.mpr fun c hc => (hs c hc).2.1]
  generalize s.toList = cs at hs
  induction cs with
  | nil => rfl
  | cons c cs ih =>
    rw [List.mapM_cons, if_pos (hs c List.mem_cons_self).2.2,
      ih fun c hc => hs c (List.mem_cons_of_mem _ hc)]
    rfl

/-- Digits alone are an integral number. -/
theorem unsigned?_toDigits (negative : Bool) {n : ℕ} (hn : decimalLength n ≤ Json.integerDigits) :
    unsigned? negative (Nat.toDigits 10 n) = some (finite negative n 0) := by
  have hplain : ∀ c ∈ Nat.toDigits 10 n,
      (!(c == 'e' || c == 'E')) = true ∧ (c != '.') = true := by
    intro c hc
    obtain ⟨d, hd, rfl⟩ := AllDigits.toDigits n c hc
    interval_cases d <;> decide
  have hmarks := fun c hc => (hplain c hc).1
  have hpoints := fun c hc => (hplain c hc).2
  have hne : (Nat.toDigits 10 n).isEmpty = false :=
    List.isEmpty_eq_false_iff.mpr (List.ne_nil_of_length_pos Nat.length_toDigits_pos)
  have hheld : isHeld n 0 = true := by
    have hplace : (decimalLength n : ℤ) - 1 ≤ greatestPlace :=
      le_trans (b := (Json.integerDigits : ℤ)) (by omega) (by decide)
    rw [isHeld, Bool.and_eq_true, decide_eq_true_eq, decide_eq_true_eq]
    refine ⟨by decide, ?_⟩
    split_ifs
    · decide
    · omega
  simp only [unsigned?, significand?, List.takeWhile_eq_self_iff.mpr hmarks,
    List.dropWhile_eq_nil_iff.mpr hmarks, List.takeWhile_eq_self_iff.mpr hpoints,
    List.dropWhile_eq_nil_iff.mpr hpoints, hne, List.drop_nil, List.append_nil,
    digitRun?_toDigits]
  simp [hheld]

/-- What begins with a digit, behind its sign, is read as a number. -/
theorem parse?_of_digit {s : String} {negative : Bool} {d : ℕ} {cs : List Char} (hd : d < 10)
    (hs : s.toList = (if negative then ['-'] else []) ++ Nat.digitChar d :: cs)
    (hplain : ∀ c ∈ s.toList,
      Text.isBlank c = false ∧ (c != '_') = true ∧ 0 < c.toNat ∧ c.toNat < 128) :
    parse? s = unsigned? negative (Nat.digitChar d :: cs) := by
  have hsplit : splitSign ((if negative then ['-'] else []) ++ Nat.digitChar d :: cs) =
      (negative, Nat.digitChar d :: cs) := by
    cases negative
    · interval_cases d <;> rfl
    · rfl
  have hfirst : (Nat.digitChar d).toLower ≠ 'i' ∧ (Nat.digitChar d).toLower ≠ 'n' ∧
      (Nat.digitChar d).toLower ≠ 's' := by
    interval_cases d <;> decide
  have hinfinity : ¬ ((Nat.digitChar d :: cs).map Char.toLower = "inf".toList ∨
      (Nat.digitChar d :: cs).map Char.toLower = "infinity".toList) := by
    rintro (h | h) <;> exact hfirst.1 (List.cons.inj h).1
  have hnan : ((Nat.digitChar d :: cs).map Char.toLower).take 3 ≠ "nan".toList := fun h =>
    hfirst.2.1 (List.cons.inj h).1
  have hsnan : ((Nat.digitChar d :: cs).map Char.toLower).take 4 ≠ "snan".toList := fun h =>
    hfirst.2.2 (List.cons.inj h).1
  rw [parse?, asciiLiteral?_of_plain hplain, hs]
  simp only [Option.bind_eq_bind, Option.bind_some, hsplit]
  rw [if_neg hinfinity, if_neg hnan, if_neg hsnan]

/-- An integer is read as a decimal number of its value. -/
theorem parse?_integerText {n : ℤ} (hn : decimalLength n.natAbs ≤ Json.integerDigits) :
    parse? (integerText n) = some (finite (decide (n < 0)) n.natAbs 0) := by
  obtain ⟨d, ds, hdigits, hd, _⟩ := exists_toDigits n.natAbs
  have htext := integerText_toList n
  have hread := parse?_of_digit hd (hdigits ▸ htext)
    (by rw [htext]; exact fun c hc => isPlain_of_mem hc)
  rw [hread, ← unsigned?_toDigits _ hn, hdigits]

end TwinStore.Number.Decimal

namespace TwinStore.Cache

open Number

/-! ## Documents -/

variable {d e : Decimal} {q : ℚ} {n : ℤ}

/-- An integral number is written as integer. -/
theorem decimalDocument_of_integral (h : d.value? = some (n : ℚ)) :
    decimalDocument d = Json.ofInteger n := by
  cases d with
  | finite negative coefficient exponent =>
    rw [decimalDocument]
    by_cases hhuge : coefficient ≠ 0 ∧ exponent > Json.integerDigits
    · have hlong : decimalLength n.natAbs > Json.integerDigits := by
        rw [gt_iff_lt, ← not_le, decimalLength,
          Nat.length_toDigits_le_iff (by decide) (by decide), not_lt]
        calc 10 ^ Json.integerDigits
            ≤ 10 ^ (Json.integerDigits + 1) := Nat.pow_le_pow_right (by decide) (by omega)
          _ ≤ n.natAbs := Decimal.pow_le_natAbs h hhuge
      rw [if_pos hhuge, Json.ofInteger, if_pos hlong]
    · rw [if_neg hhuge, Decimal.toInt?_of_integral h hhuge]
  | _ => cases h

/-- Any other number is written as its nearest double. -/
theorem decimalDocument_of_fraction (h : d.value? = some q) (hq : ∀ n : ℤ, q ≠ n) :
    decimalDocument d = .ok (.float d.toFloat) := by
  cases d with
  | finite negative coefficient exponent =>
    rw [decimalDocument]
    by_cases hhuge : coefficient ≠ 0 ∧ exponent > Json.integerDigits
    · have hscaled := @Decimal.scaled_eq coefficient exponent (by omega)
      exact absurd ((Option.some.inj h).symm.trans (Decimal.signed_eq hscaled)) (hq _)
    · rw [if_neg hhuge, Decimal.toInt?_of_fraction h hq]
  | _ => cases h

/-- Numbers of one value have one document. -/
theorem decimalDocument_congr (hd : d.value? = some q) (he : e.value? = some q) :
    decimalDocument d = decimalDocument e := by
  by_cases hq : ∃ n : ℤ, q = n
  · obtain ⟨n, rfl⟩ := hq
    rw [decimalDocument_of_integral hd, decimalDocument_of_integral he]
  · rw [not_exists] at hq
    rw [decimalDocument_of_fraction hd hq, decimalDocument_of_fraction he hq,
      Decimal.toFloat_congr (fun h => hq 0 (by rw [h, Int.cast_zero])) hd he]

/-! ## Restoring -/

/-- What reads as a decimal number is restored to it. -/
theorem restore_of_parse? {v : Value} (hv : v.isNull = false)
    (h : Decimal.parse? v.display = some d) : restore (some .decimal) v = .ok (.decimal d) := by
  cases v with
  | null => cases hv
  | _ => simp only [restore, h]

/-- A number that is kept has a document without parts, and comes back from it with the same
value. -/
theorem restore_decimalDocument (h : d.IsKept) : ∃ j d', decimalDocument d = .ok j ∧
    j.settled = j ∧ restore (some .decimal) j.toValue = .ok (.decimal d') ∧
      d'.value? = d.value? := by
  obtain ⟨q, hq, ⟨n, rfl, hn⟩ | ⟨hfraction, d', hread, hd'⟩⟩ := h
  · refine ⟨.int n, .finite (decide (n < 0)) n.natAbs 0, ?_, rfl,
      restore_of_parse? rfl (Decimal.parse?_integerText hn), ?_⟩
    · rw [decimalDocument_of_integral hq, Json.ofInteger, if_neg (not_lt.mpr hn)]
    · have hsize : (n.natAbs : ℚ) = n.natAbs * 10 ^ (0 : ℤ) := by simp
      rw [hq, Decimal.value?, Decimal.signed_eq hsize]
      congr 2
      simp only [decide_eq_true_eq]
      omega
  · exact ⟨.float d.toFloat, d', decimalDocument_of_fraction hq hfraction, rfl,
      restore_of_parse? rfl hread, hd'⟩

end TwinStore.Cache
