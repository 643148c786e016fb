import TwinStore.Primary.Condition
import TwinStore.Proofs.Typing
import TwinStore.Value.Compare

/-!
# Cells of values

A value of an exact type is stored in one cell, from which it can be read again.  Cells are ordered
like the values in the form in which records compare: numbers by value, texts by code points, times
and identifiers by their fixed-width texts.

Main definitions:

- `Value.bound`: a value in the form in which it goes into a statement.
- `storedCell`: the cell of a value.
- `Reads`: what a column of a type gives for a cell.

Main results:

- Theorem `prepare_of_admits`, `cellOf_bound`, `store_storedCell`: a value of the type of a column
  is stored as its cell.
- Theorem `valueOf_storedCell`: the cell is read as the value.
- Theorem `Reads.of_valueOf`: all the ways in which a cell can be read.
- Theorem `compare_storedCell`: cells compare like values.
-/

namespace TwinStore.Number.Decimal

/-! ## Integers as exact numbers -/

/-- A number with fewer digits is less. -/
theorem lt_of_decimalLength_lt {a b : Nat} (h : decimalLength a < decimalLength b) : a < b := by
  by_contra hle
  have ha := lt_pow_decimalLength a
  have hb : decimalLength b ≤ decimalLength a :=
    (Nat.length_toDigits_le_iff (by decide) Nat.length_toDigits_pos).mpr
      (Nat.lt_of_le_of_lt (Nat.not_lt.mp hle) ha)
  omega

/-- Integral magnitudes compare like the numbers. -/
theorem compareMagnitude_zero (a b : Nat) : compareMagnitude a 0 b 0 = compare a b := by
  simp only [compareMagnitude, Int.zero_add]
  split_ifs with hlt hgt
  · exact (compare_lt_iff_lt.mpr (lt_of_decimalLength_lt (by omega))).symm
  · exact (compare_gt_iff_gt.mpr (lt_of_decimalLength_lt (by omega))).symm
  · simp
  · omega

/-- Integers compare by value. -/
theorem compare?_ofInt (m n : Int) : compare? (ofInt m) (ofInt n) = some (compare m n) := by
  simp only [ofInt, compare?, compareMagnitude_zero, ne_eq, decide_eq_decide, decide_eq_true_eq]
  rcases lt_trichotomy m n with h | h | h
  · rw [compare_lt_iff_lt.mpr h]
    split_ifs <;> first | rfl | omega | exact congrArg some (compare_lt_iff_lt.mpr (by omega))
  · rw [compare_eq_iff_eq.mpr h]
    split_ifs <;> first | rfl | omega | exact congrArg some (compare_eq_iff_eq.mpr (by omega))
  · rw [compare_gt_iff_gt.mpr h]
    split_ifs <;> first | rfl | omega | exact congrArg some (compare_gt_iff_gt.mpr (by omega))

@[simp]
theorem isSignaling_ofInt (n : Int) : (ofInt n).isSignaling = false := rfl

end TwinStore.Number.Decimal

namespace TwinStore

open Calendar Primary Number

/-! ## The cell of a value -/

/-- A value in the form in which it goes into a statement. -/
def Value.bound : Value → Value
  | .bool b => .int (if b then 1 else 0)
  | .date d => .text d.text
  | .instant t => .text (instantText t)
  | .uuid u => .text u.hex
  | v => v

/-- The cell of a value of an exact type. -/
def storedCell : Value → Cell
  | .bool b => .int (if b then 1 else 0)
  | .int n => .int n
  | .text s => .text s
  | .date d => .text d.text
  | .instant t => .text (instantText t)
  | .uuid u => .text u.hex
  | _ => .null

/-- A value of the type of a column takes the form of the column. -/
theorem prepare_of_admits {type : AttributeType} {v : Value} (hexact : type.isExact = true)
    (h : type.Admits v) : (Binding.ofType type).prepare v = .ok v.bound := by
  rcases h with rfl | h
  · cases type with
    | decimal | float | json => cases hexact
    | _ => rfl
  · cases h <;> rfl

/-- The kind of a value of the type is the kind that the column expects. -/
theorem ofOperand_of_admits {type : AttributeType} {v : Value} (h : type.Admits v) :
    (Binding.ofType type).ofOperand v = Binding.ofType type := by
  rcases h with rfl | h
  · rfl
  · cases h <;> rfl

/-- A prepared value becomes its cell. -/
theorem cellOf_bound {type : AttributeType} {v : Value} (h : type.Admits v) :
    cellOf v.bound = .ok (storedCell v) := by
  rcases h with rfl | h
  · rfl
  · cases h with
    | int hfits => exact if_pos hfits
    | bool b => cases b <;> rfl
    | _ => rfl

/-- Exactly null has the empty cell. -/
theorem isNull_storedCell {type : AttributeType} {v : Value} (h : type.Admits v) :
    (storedCell v).isNull = v.isNull := by
  rcases h with rfl | h
  · rfl
  · cases h <;> rfl

/-! ## Columns keep cells -/

/-- A run of digits is interrupted by anything else. -/
theorem digitRun?_eq_none {cs : List Char} {c : Char} (hc : c ∈ cs)
    (hdigit : Text.asciiDigit? c = none) : Decimal.digitRun? cs = none := by
  suffices h : ∀ n : Nat,
      cs.foldlM (fun n c => (Text.asciiDigit? c).map (10 * n + ·)) n = none from h 0
  induction cs with
  | nil => cases hc
  | cons c' cs ih =>
    intro n
    rw [List.foldlM_cons]
    rcases List.mem_cons.mp hc with rfl | hmem
    · rw [hdigit]
      rfl
    · cases Text.asciiDigit? c' with
      | none => rfl
      | some d => exact ih hmem _

/-- What stands in front of a character, and the character, are taken if they all pass. -/
theorem takeWhile_append_cons {p : Char → Bool} {front : List Char} {c : Char} (rest : List Char)
    (hfront : ∀ c ∈ front, p c = true) (hc : p c = true) :
    (front ++ c :: rest).takeWhile p = front ++ c :: rest.takeWhile p := by
  rw [List.takeWhile_append_of_pos hfront, List.takeWhile_cons_of_pos hc]

/-- A text with a dash behind its first digits, and a digit at its end, is no number. -/
theorem numberOfText?_eq_none {s : String} {n d : Nat} {rest : List Char} (hd : d < 10)
    (hs : s.toList = fixedDigits 10 4 n ++ '-' :: (rest ++ [Nat.digitChar d])) :
    numberOfText? s = none := by
  have hplain {d : Nat} (hd : d < 10) : isNumberBlank (Nat.digitChar d) = false ∧
      Nat.digitChar d ≠ '-' ∧ Nat.digitChar d ≠ '+' ∧ Nat.digitChar d ≠ 'e' ∧
      Nat.digitChar d ≠ 'E' ∧ Nat.digitChar d ≠ '.' := by
    interval_cases d <;> decide
  have hfirst : n / 10 ^ 3 % 10 < 10 := Nat.mod_lt _ (by decide)
  have hhead : s.toList = Nat.digitChar (n / 10 ^ 3 % 10) ::
      (fixedDigits 10 3 n ++ '-' :: (rest ++ [Nat.digitChar d])) := by
    rw [hs, fixedDigits_succ, List.cons_append]
  have hlast : s.toList = (fixedDigits 10 4 n ++ '-' :: rest) ++ [Nat.digitChar d] := by
    simp [hs]
  have hfront : s.toList.dropWhile isNumberBlank = s.toList := by
    rw [hhead, List.dropWhile_cons_of_neg (ne_true_of_eq_false (hplain hfirst).1)]
  have hback : (s.toList.reverse.dropWhile isNumberBlank).reverse = s.toList := by
    rw [hlast, List.reverse_append, List.reverse_singleton, List.singleton_append,
      List.dropWhile_cons_of_neg (ne_true_of_eq_false (hplain hd).1), List.reverse_cons, List.reverse_reverse]
  have hsign : Decimal.splitSign s.toList = (false, s.toList) := by
    rw [hhead]
    unfold Decimal.splitSign
    split
    · next heq => exact absurd (List.cons.inj heq).1 (hplain hfirst).2.1
    · next heq => exact absurd (List.cons.inj heq).1 (hplain hfirst).2.2.1
    · rfl
  have hdigits : ∀ c ∈ fixedDigits 10 4 n, c ≠ 'e' ∧ c ≠ 'E' ∧ c ≠ '.' := by
    intro c hc
    obtain ⟨d, hd, rfl⟩ := exists_digit_of_mem_fixedDigits (by decide) hc
    exact (hplain hd).2.2.2
  have hmantissa : Decimal.significand?
      (s.toList.takeWhile fun c => !(c == 'e' || c == 'E')) = none := by
    rw [hs, takeWhile_append_cons _ (fun c hc => by simp [hdigits c hc]) (by decide)]
    simp only [Decimal.significand?]
    rw [takeWhile_append_cons _ (fun c hc => by simp [hdigits c hc]) (by decide), if_neg (by simp),
      digitRun?_eq_none (show '-' ∈ _ by simp) (by decide)]
    rfl
  simp only [numberOfText?, hfront, hback, hsign, hmantissa]
  rfl

/-- The stored texts of times are no numbers. -/
theorem numberOfText?_times {t : DateTime} (ht : t.isValid = true) :
    numberOfText? t.date.text = none ∧ numberOfText? (instantText t) = none := by
  obtain ⟨hdate, _⟩ := DateTime.isValid_iff.mp ht
  constructor
  · refine @numberOfText?_eq_none _ t.date.year (t.date.day % 10)
      (fixedDigits 10 2 t.date.month ++ '-' :: fixedDigits 10 1 (t.date.day / 10))
      (Nat.mod_lt _ (by decide)) ?_
    rw [Date.text_toList hdate, dateFields]
    simp [fixedDigits]
  · refine @numberOfText?_eq_none _ t.date.year (t.micro % 10)
      (fixedDigits 10 2 t.date.month ++ '-' :: (fixedDigits 10 2 t.date.day ++ ' ' ::
        (clockFields t ++ '.' :: fixedDigits 10 5 (t.micro / 10))))
      (Nat.mod_lt _ (by decide)) ?_
    rw [instantText_toList ht, dateFields]
    simp [fixedDigits]

/-- A column keeps the cells of the values of its type as they are. -/
theorem store_storedCell {type : AttributeType} {v : Value} (h : type.Admits v) :
    (Affinity.ofType type).store (storedCell v) = storedCell v := by
  have htext {s : String} (hs : numberOfText? s = none) :
      Affinity.numeric.store (.text s) = .text s := by
    simp only [Affinity.store, hs]
  rcases h with rfl | h
  · cases type <;> rfl
  · cases h with
    | int | str | text | uuid | bool => rfl
    | date hd => exact htext (numberOfText?_times (DateTime.isValid_ofDate hd)).1
    | datetime ht _ => exact htext (numberOfText?_times ht).2

/-- The cell of a value of the type of its column is read as the value. -/
theorem valueOf_storedCell {type : AttributeType} {v : Value} (h : type.Admits v) :
    valueOf type (storedCell v) = .ok v := by
  rcases h with rfl | h
  · rfl
  · cases h with
    | int | str | text => rfl
    | bool b => cases b <;> rfl
    | date hd => simp only [storedCell, valueOf, Primary.readText, StoredReader.date?_text hd]
    | datetime ht hnaive =>
      simp only [storedCell, valueOf, Primary.readText, StoredReader.dateTime?_instantText ht hnaive]
    | uuid hu => simp only [storedCell, valueOf, Primary.readText, Uuid.parse?_hex hu]

/-! ## Values of cells -/

/-- What a column of a type gives for a cell, by what it makes of the cell. -/
inductive Reads : AttributeType → Cell → Value → Prop
  | null (type : AttributeType) : Reads type .null .null
  | str (cell : Cell) : Reads .str cell (rawValue cell)
  | text (cell : Cell) : Reads .text cell (rawValue cell)
  | int (cell : Cell) : Reads .int cell (rawValue cell)
  | float (cell : Cell) : Reads .float cell (rawValue cell)
  | bool (cell : Cell) : Reads .bool cell (.bool (rawValue cell).isTruthy)
  | integer (n : Int) :
    Reads .decimal (.int n) (.decimal (decimalOfReal (Binary64.ofSignedRatio n 1)))
  | real (x : Float) : Reads .decimal (.real x) (.decimal (decimalOfReal x))
  | date {s : String} {d : Date} (h : StoredReader.date? s = some d) :
    Reads .date (.text s) (.date d)
  | instant {s : String} {t : DateTime} (h : StoredReader.dateTime? s = some t) :
    Reads .datetime (.text s) (.instant t)
  | uuid {s : String} {u : Uuid} (h : Uuid.parse? s = some u) : Reads .uuid (.text s) (.uuid u)
  | document {s : String} {j : Json} (h : Json.read s = .ok j) : Reads .json (.text s) j.toValue
  | json {cell : Cell} (h : ∀ s, cell ≠ .text s) : Reads .json cell (rawValue cell)

/-- A text with a meaning was read from a text. -/
theorem exists_of_readText {α : Type} {read : String → Option α} {wrap : α → Value} {cell : Cell}
    {v : Value} (h : Primary.readText read wrap cell = .ok v) :
    ∃ s a, cell = .text s ∧ read s = some a ∧ v = wrap a := by
  cases cell with
  | text s =>
    simp only [Primary.readText] at h
    split at h
    · next hread => exact ⟨s, _, rfl, hread, (Except.ok.inj h).symm⟩
    · cases h
  | _ => cases h

/-- What is read from a cell is read in one of these ways. -/
theorem Reads.of_valueOf {type : AttributeType} {cell : Cell} {v : Value}
    (h : valueOf type cell = .ok v) : Reads type cell v := by
  unfold valueOf at h
  split at h
  · exact Except.ok.inj h ▸ .null type
  · cases type with
    | str => exact Except.ok.inj h ▸ .str _
    | text => exact Except.ok.inj h ▸ .text _
    | int => exact Except.ok.inj h ▸ .int _
    | float => exact Except.ok.inj h ▸ .float _
    | bool => exact Except.ok.inj h ▸ .bool _
    | decimal =>
      simp only at h
      split at h
      · exact Except.ok.inj h ▸ .integer _
      · exact Except.ok.inj h ▸ .real _
      · cases h
    | date =>
      obtain ⟨s, d, rfl, hread, rfl⟩ := exists_of_readText h
      exact .date hread
    | datetime =>
      obtain ⟨s, t, rfl, hread, rfl⟩ := exists_of_readText h
      exact .instant hread
    | uuid =>
      obtain ⟨s, u, rfl, hread, rfl⟩ := exists_of_readText h
      exact .uuid hread
    | json =>
      simp only at h
      split at h
      · obtain ⟨j, hread, rfl⟩ := Outcome.map_eq_ok.mp h
        exact .document hread
      · next hcell => exact Except.ok.inj h ▸ .json hcell

/-! ## Order -/

/-- Texts compare as equal exactly if they are the same. -/
theorem compare_text_eq (s t : String) : (s == t) = (compare s t == .eq) := by
  rw [Bool.eq_iff_iff, beq_iff_eq, beq_iff_eq]
  constructor
  · rintro rfl
    exact Std.ReflOrd.compare_self
  · intro h
    exact Std.LawfulEqOrd.eq_of_compare h

/-- Times count microseconds in the order of their days. -/
theorem compare_epochMicros_ofDate (d e : Date) :
    compare (DateTime.ofDate d).epochMicros (DateTime.ofDate e).epochMicros =
      compare d.toOrdinal e.toOrdinal := by
  have hmicros (d : Date) : (DateTime.ofDate d).epochMicros =
      ((d.toOrdinal : Int) - 1) * 86400000000 - epochOrigin := by
    simp [DateTime.epochMicros, DateTime.universalMicros, DateTime.toMicros, DateTime.ofDate,
      DateTime.secondOfDay, microsPerDay, microsPerSecond]
  rw [hmicros, hmicros]
  rcases lt_trichotomy d.toOrdinal e.toOrdinal with h | h | h
  · rw [compare_lt_iff_lt.mpr h, compare_lt_iff_lt]
    omega
  · rw [compare_eq_iff_eq.mpr h, compare_eq_iff_eq]
    omega
  · rw [compare_gt_iff_gt.mpr h, compare_gt_iff_gt]
    omega

/-- Cells of integers are ordered by value. -/
theorem order_int (m n : Int) : (Cell.int m).order (.int n) = compare m n := by
  simp [Cell.order, Cell.number?, Decimal.compare?_ofInt]

/-- Integers compare by number. -/
theorem Value.compare_ints (m n : Int) : (Value.int m).order? (.int n) = some (compare m n) ∧
    (Value.int m).equal? (.int n) = some (compare m n == .eq) := by
  simp [Value.order?, Value.orderAtoms?, Value.equal?, Value.equalAtoms?, Value.number?,
    Value.equalNumbers?, Decimal.compare?_ofInt]

/-- Texts compare character by character. -/
theorem Value.compare_texts (s t : String) : (Value.text s).order? (.text t) = some (compare s t) ∧
    (Value.text s).equal? (.text t) = some (compare s t == .eq) := by
  simp [Value.order?, Value.orderAtoms?, Value.equal?, Value.equalAtoms?, Value.number?,
    compare_text_eq]

/-- Cells of values of one type compare like the values in the form in which records compare. -/
theorem compare_storedCell {type : AttributeType} {v w : Value} (hv : type.Holds v)
    (hw : type.Holds w) :
    ∃ o, (storedCell v).compare? (storedCell w) = some o ∧
      v.measure.order? w.measure = some o ∧ v.measure.equal? w.measure = some (o == .eq) := by
  cases hv with
  | @int m _ =>
    cases hw with
    | @int n _ => exact ⟨compare m n, congrArg some (order_int m n), Value.compare_ints m n⟩
  | str s =>
    cases hw with
    | str t => exact ⟨compare s t, rfl, Value.compare_texts s t⟩
  | text s =>
    cases hw with
    | text t => exact ⟨compare s t, rfl, Value.compare_texts s t⟩
  | bool b =>
    cases hw with
    | bool c =>
      refine ⟨_, congrArg some (order_int _ _), ?_⟩
      simp [Value.measure, Value.order?, Value.orderAtoms?, Value.equal?, Value.equalAtoms?,
        Value.number?, Value.equalNumbers?, Decimal.compare?_ofInt]
  | @date d hd =>
    cases hw with
    | @date e he =>
      have horder := (compare_dateText hd he).trans (compare_epochMicros_ofDate d e).symm
      exact ⟨_, congrArg some horder, Value.compare_ints _ _⟩
  | @datetime t ht htn =>
    cases hw with
    | @datetime u hu hun =>
      exact ⟨_, congrArg some (compare_instantText ht hu htn hun), Value.compare_ints _ _⟩
  | @uuid u hu =>
    cases hw with
    | @uuid w hw =>
      refine ⟨_, congrArg some (Uuid.compare_hex hu hw), ?_⟩
      have heq : (u == w) = (compare u.value w.value == .eq) := by
        rw [Bool.eq_iff_iff, beq_iff_eq, beq_iff_eq, compare_eq_iff_eq]
        cases u
        cases w
        exact Uuid.mk.injEq _ _ ▸ Iff.rfl
      simp [Value.measure, Value.order?, Value.orderAtoms?, Value.equal?, Value.equalAtoms?,
        Value.number?, heq]

end TwinStore
