import Mathlib.Order.Compare
import Mathlib.Tactic.IntervalCases
import Mathlib.Tactic.Ring
import TwinStore.Calendar.StoredReader
import TwinStore.Text.Quoted

/-!
# Digits of fixed width

Numbers stand in stored texts with a fixed number of digits.  Digits of one width are ordered like
their numbers, and a reader that knows the width finds the number again.

Main results:

- Theorem `padded_toList`, `hexPadded_toList`: padding gives exactly the digits of that width.
- Theorem `fixedDigits_lt_fixedDigits`: digits of one width are ordered like their numbers.
- Theorem `append_lt_append_iff`: texts of several fields are ordered field by field.
- Theorem `digits?_fixedDigits`: reading the digits of one width gives the number.
-/

namespace TwinStore.Number

open Calendar

/-! ## Order of texts -/

/-- Lists with a common length in front are ordered by their fronts, then by what follows. -/
theorem append_lt_append_iff {a c : List Char} (b d : List Char) (hlength : a.length = c.length) :
    a ++ b < c ++ d ↔ a < c ∨ (a = c ∧ b < d) := by
  induction a generalizing c with
  | nil =>
    have hc : c = [] := List.length_eq_zero_iff.mp hlength.symm
    subst hc
    simp
  | cons x xs ih =>
    cases c with
    | nil => simp at hlength
    | cons y ys =>
      simp only [List.length_cons, Nat.add_right_cancel_iff] at hlength
      simp only [List.cons_append, List.cons_lt_cons_iff, ih hlength, List.cons.injEq]
      constructor
      · rintro (hxy | ⟨rfl, hlt | ⟨rfl, hbd⟩⟩)
        · exact Or.inl (Or.inl hxy)
        · exact Or.inl (Or.inr ⟨rfl, hlt⟩)
        · exact Or.inr ⟨⟨rfl, rfl⟩, hbd⟩
      · rintro ((hxy | ⟨rfl, hlt⟩) | ⟨⟨rfl, rfl⟩, hbd⟩)
        · exact Or.inl hxy
        · exact Or.inr ⟨rfl, Or.inl hlt⟩
        · exact Or.inr ⟨rfl, Or.inr ⟨rfl, hbd⟩⟩

/-- Texts made from numbers in a strictly increasing way compare like the numbers. -/
theorem compare_of_increasing {α : Type} [LinearOrder α] {a b : α} {s t : String}
    (hlt : a < b → s < t) (hgt : b < a → t < s) (heq : a = b → s = t) :
    compare s t = compare a b := by
  rcases lt_trichotomy a b with h | h | h
  · rw [compare_lt_iff_lt.mpr h]
    exact if_pos (hlt h)
  · rw [compare_eq_iff_eq.mpr h, heq h]
    exact Std.ReflOrd.compare_self
  · rw [compare_gt_iff_gt.mpr h]
    have hst : ¬ s < t := String.lt_asymm (hgt h)
    have hne : s ≠ t := (String.ne_of_lt (hgt h)).symm
    exact (if_neg hst).trans (if_neg hne)

/-! ## Digits -/

/-- The last digits of a number in a base, as many as the width says. -/
def fixedDigits (base : Nat) : (width : Nat) → Nat → List Char
  | 0, _ => []
  | width + 1, n => fixedDigits base width (n / base) ++ [Nat.digitChar (n % base)]

@[simp]
theorem length_fixedDigits (base width n : Nat) : (fixedDigits base width n).length = width := by
  induction width generalizing n with
  | zero => rfl
  | succ width ih => simp [fixedDigits, ih]

/-- Zero has only zeros as digits. -/
theorem fixedDigits_zero (base width : Nat) :
    fixedDigits base width 0 = List.replicate width '0' := by
  induction width with
  | zero => rfl
  | succ width ih =>
    rw [fixedDigits, Nat.zero_div, ih, Nat.zero_mod, List.replicate_succ']
    rfl

/-- The first digit of a given width, and the others. -/
theorem fixedDigits_succ (base width n : Nat) :
    fixedDigits base (width + 1) n =
      Nat.digitChar (n / base ^ width % base) :: fixedDigits base width n := by
  induction width generalizing n with
  | zero => simp [fixedDigits]
  | succ width ih =>
    have hquot : n / base / base ^ width = n / base ^ (width + 1) := by
      rw [Nat.div_div_eq_div_mul, Nat.pow_succ']
    calc
      fixedDigits base (width + 2) n
          = fixedDigits base (width + 1) (n / base) ++ [Nat.digitChar (n % base)] := rfl
      _ = Nat.digitChar (n / base ^ (width + 1) % base) ::
            (fixedDigits base width (n / base) ++ [Nat.digitChar (n % base)]) := by
          rw [ih, hquot, List.cons_append]

/-- The digits of a number, with zeros in front, are its digits of a sufficient width. -/
theorem replicate_append_toDigits {base width n : Nat} (hbase : 1 < base) (hwidth : 0 < width)
    (hn : n < base ^ width) :
    List.replicate (width - (Nat.toDigits base n).length) '0' ++ Nat.toDigits base n =
      fixedDigits base width n := by
  induction width generalizing n with
  | zero => omega
  | succ width ih =>
    rw [fixedDigits]
    by_cases hsmall : n < base
    · rw [Nat.toDigits_of_lt_base hsmall, Nat.div_eq_of_lt hsmall, Nat.mod_eq_of_lt hsmall,
        fixedDigits_zero]
      simp
    · have hwidth' : 0 < width := by
        rcases Nat.eq_zero_or_pos width with rfl | h
        · simp only [Nat.zero_add, Nat.pow_one] at hn
          omega
        · exact h
      have hquot : n / base < base ^ width := by
        rw [Nat.div_lt_iff_lt_mul (by omega), ← Nat.pow_succ]
        exact hn
      rw [Nat.toDigits_of_base_le hbase (by omega), ← ih hwidth' hquot, List.append_assoc]
      simp

/-- A number is below the power of ten that its length says. -/
theorem lt_pow_decimalLength (n : Nat) : n < 10 ^ decimalLength n :=
  (Nat.length_toDigits_le_iff (by decide) Nat.length_toDigits_pos).mp (Nat.le_refl _)

/-- A padded number has the digits of its width. -/
theorem padded_toList {width n : Nat} (hwidth : 0 < width) (hn : n < 10 ^ width) :
    (padded width n).toList = fixedDigits 10 width n := by
  rw [padded, String.toList_ofList, replicate_append_toDigits (by decide) hwidth hn]

/-- A padded hexadecimal number has the digits of its width. -/
theorem hexPadded_toList {width n : Nat} (hwidth : 0 < width) (hn : n < 16 ^ width) :
    (Text.hexPadded width n).toList = fixedDigits 16 width n := by
  rw [Text.hexPadded, String.toList_ofList, replicate_append_toDigits (by decide) hwidth hn]

/-! ## Order of digits -/

/-- The characters of digits are ordered like the digits. -/
theorem digitChar_lt_digitChar {a b : Nat} (hab : a < b) (hb : b < 16) :
    Nat.digitChar a < Nat.digitChar b := by
  interval_cases b <;> interval_cases a <;> decide

/-- Digits of one width are ordered like their numbers. -/
theorem fixedDigits_lt_fixedDigits {base width m n : Nat} (hbase : 0 < base) (hbase' : base ≤ 16)
    (hmn : m < n) (hn : n < base ^ width) :
    fixedDigits base width m < fixedDigits base width n := by
  induction width generalizing m n with
  | zero =>
    simp only [Nat.pow_zero] at hn
    omega
  | succ width ih =>
    rw [fixedDigits, fixedDigits, append_lt_append_iff _ _ (by simp)]
    have hquot : n / base < base ^ width := by
      rw [Nat.div_lt_iff_lt_mul hbase, ← Nat.pow_succ]
      exact hn
    rcases Nat.lt_or_ge (m / base) (n / base) with h | h
    · exact Or.inl (ih h hquot)
    · have hle : m / base ≤ n / base := Nat.div_le_div_right (by omega)
      have heq : m / base = n / base := Nat.le_antisymm hle h
      have hmod : m % base < n % base := by
        have h₁ := Nat.div_add_mod m base
        have h₂ := Nat.div_add_mod n base
        rw [heq] at h₁
        omega
      refine Or.inr ⟨by rw [heq], ?_⟩
      have hlt : n % base < 16 := Nat.lt_of_lt_of_le (Nat.mod_lt _ hbase) hbase'
      exact List.cons_lt_cons_iff.mpr (Or.inl (digitChar_lt_digitChar hmod hlt))

/-- Fields of digits with something behind them are ordered by number, then by what follows. -/
theorem fixedDigits_append_lt {base width m n : Nat} {b d : List Char} (hbase : 0 < base)
    (hbase' : base ≤ 16) (hn : n < base ^ width) (h : m < n ∨ (m = n ∧ b < d)) :
    fixedDigits base width m ++ b < fixedDigits base width n ++ d := by
  rw [append_lt_append_iff _ _ (by simp)]
  rcases h with hmn | ⟨rfl, hbd⟩
  · exact Or.inl (fixedDigits_lt_fixedDigits hbase hbase' hmn hn)
  · exact Or.inr ⟨rfl, hbd⟩

/-! ## Reading digits -/

/-- The character of a digit reads as the digit. -/
theorem asciiDigit?_digitChar {d : Nat} (hd : d < 10) :
    Text.asciiDigit? (Nat.digitChar d) = some d := by
  interval_cases d <;> decide

/-- Every digit of a fixed width is one of those of the base. -/
theorem exists_digit_of_mem_fixedDigits {base width n : Nat} {c : Char} (hbase : 0 < base)
    (hc : c ∈ fixedDigits base width n) : ∃ d < base, c = Nat.digitChar d := by
  induction width generalizing n with
  | zero => simp [fixedDigits] at hc
  | succ width ih =>
    rw [fixedDigits, List.mem_append, List.mem_singleton] at hc
    rcases hc with hc | rfl
    · exact ih hc
    · exact ⟨n % base, Nat.mod_lt _ hbase, rfl⟩

/-- A reader that takes one digit after another reads the digits of a number as the number, behind the
digits that it has taken before. -/
theorem read_fixedDigits {base : Nat} (hbase : 0 < base) {read : Bool → Nat → List Char → Option Nat}
    (hend : ∀ value, read true value [] = some value)
    (hdigit : ∀ flag value d rest, d < base →
      read flag value (Nat.digitChar d :: rest) = read true (base * value + d) rest)
    (flag : Bool) (value : Nat) {width n : Nat} (hn : n < base ^ (width + 1)) :
    read flag value (fixedDigits base (width + 1) n) = some (value * base ^ (width + 1) + n) := by
  suffices h : ∀ n, read flag value (fixedDigits base (width + 1) n) =
      some (value * base ^ (width + 1) + n % base ^ (width + 1)) by
    rw [h, Nat.mod_eq_of_lt hn]
  clear hn n
  induction width generalizing flag value with
  | zero =>
    intro n
    rw [fixedDigits_succ, hdigit _ _ _ _ (Nat.mod_lt _ hbase), fixedDigits, hend, Nat.pow_zero,
      Nat.div_one, Nat.zero_add, Nat.pow_one, Nat.mul_comm]
  | succ width ih =>
    intro n
    rw [fixedDigits_succ, hdigit _ _ _ _ (Nat.mod_lt _ hbase), ih, @Nat.mod_pow_succ n base (width + 1),
      Nat.pow_succ base (width + 1)]
    congr 1
    ring

/-- Nothing is dropped from the front where no character is to be dropped. -/
theorem dropWhile_eq_self {p : Char → Bool} {cs : List Char} (hcs : ∀ c ∈ cs, p c = false) :
    cs.dropWhile p = cs := by
  cases cs with
  | nil => rfl
  | cons c cs => rw [List.dropWhile_cons_of_neg (by simp [hcs c])]

/-- Nothing is dropped from both ends where no character is to be dropped. -/
theorem dropWhile_reverse_dropWhile {p : Char → Bool} {cs : List Char}
    (hcs : ∀ c ∈ cs, p c = false) : ((cs.dropWhile p).reverse.dropWhile p).reverse = cs := by
  rw [dropWhile_eq_self hcs, dropWhile_eq_self fun c hc => hcs c (List.mem_reverse.mp hc),
    List.reverse_reverse]

/-- Reading as many digits as a field has gives its number, and what follows the field. -/
theorem digits?_fixedDigits {width n : Nat} (value : Nat) (rest : List Char)
    (hn : n < 10 ^ width) :
    StoredReader.digits? width value (fixedDigits 10 width n ++ rest) =
      some (value * 10 ^ width + n, rest) := by
  suffices h : ∀ n, StoredReader.digits? width value (fixedDigits 10 width n ++ rest) =
      some (value * 10 ^ width + n % 10 ^ width, rest) by
    rw [h, Nat.mod_eq_of_lt hn]
  clear hn n
  induction width generalizing value with
  | zero => intro n; simp [fixedDigits, StoredReader.digits?, Nat.mod_one]
  | succ width ih =>
    intro n
    have hdigit : n / 10 ^ width % 10 < 10 := Nat.mod_lt _ (by decide)
    rw [fixedDigits_succ, List.cons_append, StoredReader.digits?, asciiDigit?_digitChar hdigit]
    simp only [ih]
    rw [Nat.mod_pow_succ, Nat.pow_succ]
    congr 2
    ring

end TwinStore.Number
