import TwinStore.Proofs.Digits
import TwinStore.Value.Uuid

/-!
# Texts of identifiers

An identifier is written as its 32 hexadecimal digits, with or without dashes between groups of
them.  Reading either form gives the identifier, and the digits are ordered like the numbers.

Main results:

- Theorem `Uuid.parse?_hex`, `Uuid.parse?_text`: both written forms read as the identifier.
- Theorem `Uuid.compare_hex`: the digits compare like the numbers.
- Theorem `Uuid.isValid_of_parse?`: what is read has 128 bits.
-/

namespace TwinStore.Uuid

open Number

/-- Whether the number has 128 bits. -/
def isValid (u : Uuid) : Bool := u.value < 2 ^ 128

/-- The number of an identifier fits into 32 hexadecimal digits. -/
theorem value_lt {u : Uuid} (hu : u.isValid = true) : u.value < 16 ^ 32 := by
  have h : u.value < 2 ^ 128 := of_decide_eq_true hu
  omega

/-- The digits of an identifier are those of its number. -/
theorem hex_toList {u : Uuid} (hu : u.isValid = true) :
    u.hex.toList = fixedDigits 16 32 u.value :=
  hexPadded_toList (by decide) (value_lt hu)

/-- The digits of identifiers compare like their numbers. -/
theorem compare_hex {u w : Uuid} (hu : u.isValid = true) (hw : w.isValid = true) :
    compare u.hex w.hex = compare u.value w.value := by
  have hlt {u w : Uuid} (hu : u.isValid = true) (hw : w.isValid = true)
      (h : u.value < w.value) : u.hex < w.hex := by
    change u.hex.toList < w.hex.toList
    rw [hex_toList hu, hex_toList hw]
    exact fixedDigits_lt_fixedDigits (by decide) (by decide) h (value_lt hw)
  refine compare_of_increasing (hlt hu hw) (hlt hw hu) fun h => ?_
  rw [hex, hex, h]

/-! ## Digits -/

/-- The character of a hexadecimal digit reads as the digit. -/
theorem hexDigit?_digitChar {d : Nat} (hd : d < 16) : hexDigit? (Nat.digitChar d) = some d := by
  interval_cases d <;> decide

/-- A hexadecimal digit is no blank, no mark and no letter of a scheme. -/
theorem digitChar_plain {d : Nat} (hd : d < 16) :
    Text.isBlank (Nat.digitChar d) = false ∧ Nat.digitChar d ≠ '+' ∧ Nat.digitChar d ≠ 'x' ∧
      Nat.digitChar d ≠ 'X' ∧ Nat.digitChar d ≠ '-' ∧ Nat.digitChar d ≠ 'u' ∧
      Nat.digitChar d ≠ '{' ∧ Nat.digitChar d ≠ '}' := by
  interval_cases d <;> decide

/-- Hexadecimal digits read as their number. -/
theorem digitsFrom?_fixedDigits (flag : Bool) (value : Nat) {width n : Nat}
    (hn : n < 16 ^ (width + 1)) :
    digitsFrom? flag value (fixedDigits 16 (width + 1) n) =
      some (value * 16 ^ (width + 1) + n) :=
  read_fixedDigits (by decide) (fun _ => rfl) (fun flag value d rest hd => by
    simp only [digitsFrom?, hexDigit?_digitChar hd]) flag value hn

/-- Digits with nothing around them are kept when blanks are dropped. -/
theorem trim_fixedDigits {width n : Nat} :
    (Text.trim (String.ofList (fixedDigits 16 width n))).toList = fixedDigits 16 width n := by
  have hplain : ∀ c ∈ fixedDigits 16 width n, Text.isBlank c = false := by
    intro c hc
    obtain ⟨d, hd, rfl⟩ := exists_digit_of_mem_fixedDigits (by decide) hc
    exact (digitChar_plain hd).1
  simp only [Text.trim, String.toList_ofList, dropWhile_reverse_dropWhile hplain]

/-- The 32 digits of an identifier read as its number. -/
theorem number?_fixedDigits {n : Nat} (hn : n < 16 ^ 32) :
    number? (String.ofList (fixedDigits 16 32 n)) = some n := by
  have hread := digitsFrom?_fixedDigits false 0 hn
  have hfirst : n / 16 ^ 31 % 16 < 16 := Nat.mod_lt _ (by decide)
  have hsecond : n / 16 ^ 30 % 16 < 16 := Nat.mod_lt _ (by decide)
  have hsplit : fixedDigits 16 32 n = Nat.digitChar (n / 16 ^ 31 % 16) ::
      Nat.digitChar (n / 16 ^ 30 % 16) :: fixedDigits 16 30 n := by
    rw [fixedDigits_succ, fixedDigits_succ]
  rw [hsplit] at hread
  obtain ⟨_, hplus, _⟩ := digitChar_plain hfirst
  obtain ⟨_, _, hx, hX, _⟩ := digitChar_plain hsecond
  rw [number?, trim_fixedDigits, hsplit]
  generalize n / 16 ^ 31 % 16 = a, n / 16 ^ 30 % 16 = b at *
  simp [withoutPlus, hplus, hx, hX, hread]

/-! ## Reading -/

/-- A text in which a word cannot begin has no occurrences of it. -/
theorem without_eq_self {first : Char} {word cs : List Char} (hcs : first ∉ cs) :
    without (first :: word) 0 cs = cs := by
  induction cs with
  | nil => rfl
  | cons c cs ih =>
    rw [List.mem_cons, not_or] at hcs
    have hno : ¬ (first :: word).isPrefixOf (c :: cs) = true := by
      simp [List.isPrefixOf, hcs.1]
    rw [without, if_neg hno, ih hcs.2]

/-- Digits and dashes of which the digits are those of an identifier read as it. -/
theorem parse?_of_filter {s : String} {u : Uuid} (hu : u.isValid = true)
    (hs : ∀ c ∈ s.toList, c ≠ 'u' ∧ c ≠ '{' ∧ c ≠ '}')
    (hdigits : s.toList.filter (· != '-') = fixedDigits 16 32 u.value) : parse? s = some u := by
  have hscheme : 'u' ∉ s.toList := fun h => (hs _ h).1 rfl
  have hbrace : ∀ c ∈ s.toList, (c == '{' || c == '}') = false := by
    intro c hc
    simp [hs c hc]
  simp only [parse?]
  rw [show "urn:".toList = 'u' :: ['r', 'n', ':'] from rfl, without_eq_self hscheme,
    show "uuid:".toList = 'u' :: ['u', 'i', 'd', ':'] from rfl, without_eq_self hscheme,
    dropWhile_reverse_dropWhile hbrace, hdigits, if_pos (length_fixedDigits 16 32 u.value),
    number?_fixedDigits (value_lt hu)]
  rfl

/-- The digits of an identifier read as it. -/
theorem parse?_hex {u : Uuid} (hu : u.isValid = true) : parse? u.hex = some u := by
  have hplain : ∀ c ∈ u.hex.toList, c ≠ '-' ∧ c ≠ 'u' ∧ c ≠ '{' ∧ c ≠ '}' := by
    intro c hc
    rw [hex_toList hu] at hc
    obtain ⟨d, hd, rfl⟩ := exists_digit_of_mem_fixedDigits (by decide) hc
    exact (digitChar_plain hd).2.2.2.2
  refine parse?_of_filter hu (fun c hc => (hplain c hc).2) ?_
  rw [hex_toList hu, List.filter_eq_self]
  intro c hc
  rw [← hex_toList hu] at hc
  simpa using (hplain c hc).1

/-- Digits in groups of 8, 4, 4, 4 and 12 with dashes between them. -/
def grouped (ds : List Char) : List Char :=
  ds.take 8 ++ '-' :: ((ds.drop 8).take 4 ++ '-' :: ((ds.drop 12).take 4 ++ '-' ::
    ((ds.drop 16).take 4 ++ '-' :: (ds.drop 20).take 12)))

/-- Groups hold dashes and the digits that were grouped. -/
theorem mem_grouped {ds : List Char} {c : Char} (hc : c ∈ grouped ds) : c = '-' ∨ c ∈ ds := by
  simp only [grouped, List.mem_append, List.mem_cons] at hc
  rcases hc with hc | rfl | hc | rfl | hc | rfl | hc | rfl | hc
  all_goals first
    | exact Or.inl rfl
    | exact Or.inr (List.mem_of_mem_drop (List.mem_of_mem_take hc))
    | exact Or.inr (List.mem_of_mem_take hc)

/-- Without the dashes the groups are the digits again. -/
theorem filter_grouped {ds : List Char} (hlength : ds.length = 32) (hds : ∀ c ∈ ds, c ≠ '-') :
    (grouped ds).filter (· != '-') = ds := by
  have hkeep (start length : Nat) :
      ((ds.drop start).take length).filter (· != '-') = (ds.drop start).take length := by
    refine List.filter_eq_self.mpr fun c hc => ?_
    simpa using hds c (List.mem_of_mem_drop (List.mem_of_mem_take hc))
  have hfirst := hkeep 0 8
  have hlast : (ds.drop 20).take 12 = ds.drop 20 := List.take_of_length_le (by simp [hlength])
  have hjoin (start length : Nat) :
      (ds.drop start).take length ++ ds.drop (start + length) = ds.drop start := by
    rw [← List.drop_drop, List.take_append_drop]
  rw [List.drop_zero] at hfirst
  simp only [grouped, List.filter_append, List.filter_cons, bne_self_eq_false, Bool.false_eq_true,
    if_false, hfirst, hkeep]
  rw [hlast, hjoin 16 4, hjoin 12 4, hjoin 8 4, List.take_append_drop]

/-- An identifier is written in groups of its digits. -/
theorem text_toList {u : Uuid} : u.text.toList = grouped u.hex.toList := by
  simp [text, grouped, String.intercalate_cons_cons]

/-- The groups of an identifier with dashes between them read as it. -/
theorem parse?_text {u : Uuid} (hu : u.isValid = true) : parse? u.text = some u := by
  have hplain : ∀ c ∈ fixedDigits 16 32 u.value, c ≠ '-' ∧ c ≠ 'u' ∧ c ≠ '{' ∧ c ≠ '}' := by
    intro c hc
    obtain ⟨d, hd, rfl⟩ := exists_digit_of_mem_fixedDigits (by decide) hc
    exact (digitChar_plain hd).2.2.2.2
  have hlength := length_fixedDigits 16 32 u.value
  refine parse?_of_filter hu (fun c hc => ?_) ?_
  · rw [text_toList, hex_toList hu] at hc
    rcases mem_grouped hc with rfl | hc
    · decide
    · exact (hplain c hc).2
  · rw [text_toList, hex_toList hu]
    exact filter_grouped hlength fun c hc => (hplain c hc).1

/-- Every decimal digit is less than ten. -/
theorem digitValue?_lt {c : Char} {d : Nat} (h : Text.digitValue? c = some d) : d < 10 := by
  unfold Text.digitValue? at h
  generalize Text.digitRanges = ranges at h
  induction ranges with
  | nil => cases h
  | cons range ranges ih =>
    rw [Text.digitIn] at h
    split_ifs at h
    · simp only [Option.some.injEq] at h
      omega
    · exact ih h

/-- Every hexadecimal digit is less than sixteen. -/
theorem hexDigit?_lt {c : Char} {d : Nat} (h : hexDigit? c = some d) : d < 16 := by
  unfold hexDigit? at h
  split_ifs at h with h₁ h₂
  · have hlast : c.toNat ≤ 102 := h₁.2
    simp only [Option.some.injEq] at h
    omega
  · have hlast : c.toNat ≤ 70 := h₂.2
    simp only [Option.some.injEq] at h
    omega
  · exact Nat.lt_trans (digitValue?_lt h) (by decide)

/-- Digits with underscores between them name a number of no more digits than characters. -/
theorem digitsFrom?_lt {flag : Bool} {value n : Nat} {cs : List Char}
    (h : digitsFrom? flag value cs = some n) : n < (value + 1) * 16 ^ cs.length := by
  induction cs generalizing flag value with
  | nil =>
    simp only [digitsFrom?, Option.ite_none_right_eq_some, Option.some.injEq] at h
    simp only [List.length_nil, Nat.pow_zero]
    omega
  | cons c cs ih =>
    rw [digitsFrom?] at h
    rw [List.length_cons, Nat.pow_succ']
    split at h
    · next d hd =>
      have hlt := hexDigit?_lt hd
      have hstep : (16 * value + d + 1) * 16 ^ cs.length ≤ (value + 1) * 16 * 16 ^ cs.length :=
        Nat.mul_le_mul_right _ (by omega)
      rw [← Nat.mul_assoc]
      exact Nat.lt_of_lt_of_le (ih h) hstep
    · simp only [Option.ite_none_right_eq_some] at h
      have hstep : (value + 1) * 16 ^ cs.length ≤ (value + 1) * 16 * 16 ^ cs.length :=
        Nat.mul_le_mul_right _ (by omega)
      rw [← Nat.mul_assoc]
      exact Nat.lt_of_lt_of_le (ih h.2) hstep

/-- Trimming makes no text longer. -/
theorem length_trim_le (s : String) : (Text.trim s).toList.length ≤ s.toList.length := by
  simp only [Text.trim, String.toList_ofList, List.length_reverse]
  refine Nat.le_trans (List.dropWhile_sublist _).length_le ?_
  rw [List.length_reverse]
  exact (List.dropWhile_sublist _).length_le

/-- A text without its plus sign is no longer than before. -/
theorem length_withoutPlus_le (cs : List Char) : (withoutPlus cs).length ≤ cs.length := by
  unfold withoutPlus
  split <;> simp

/-- A number has no more digits than its text has characters. -/
theorem number?_lt {s : String} {n : Nat} (h : number? s = some n) :
    n < 16 ^ s.toList.length := by
  have hbound {cs : List Char} (hcs : cs.length ≤ s.toList.length)
      (h : digitsFrom? false 0 cs = some n) : n < 16 ^ s.toList.length := by
    have hlt := digitsFrom?_lt h
    rw [Nat.zero_add, Nat.one_mul] at hlt
    exact Nat.lt_of_lt_of_le hlt (Nat.pow_le_pow_right (by decide) hcs)
  have hds : (withoutPlus (Text.trim s).toList).length ≤ s.toList.length :=
    Nat.le_trans (length_withoutPlus_le _) (length_trim_le s)
  simp only [number?] at h
  generalize withoutPlus (Text.trim s).toList = ds at h hds
  split at h
  · next z x rest =>
    simp only [List.length_cons] at hds
    split_ifs at h with hzero hunderscore
    · refine hbound ?_ h
      rw [List.length_drop]
      omega
    · exact hbound (by omega) h
    · exact hbound (by simpa using hds) h
  · exact hbound hds h

/-- What is read has 128 bits. -/
theorem isValid_of_parse? {s : String} {u : Uuid} (h : parse? s = some u) : u.isValid = true := by
  simp only [parse?] at h
  split at h
  · next hlength =>
    obtain ⟨n, hn, rfl⟩ := Option.map_eq_some_iff.mp h
    have hlt := number?_lt hn
    rw [String.toList_ofList, hlength] at hlt
    simp only [isValid, decide_eq_true_eq]
    omega
  · cases h

end TwinStore.Uuid
