import Mathlib.Data.List.TakeWhile
import TwinStore.Primary.Binding
import TwinStore.Proofs.Calendar
import TwinStore.Proofs.Digits

/-!
# Texts of days and points of time

Days and points of time are written in fields of fixed width, the greatest unit first.  So their
texts are ordered like the times they name, and both readers find the time again.

Main results:

- Theorem `compare_dateText`, `compare_instantText`: stored texts compare like what they name.
- Theorem `date?_text`, `dateTime?_instantText`, `dateTime?_text`: the reader of stored records reads
  stored texts.
- Theorem `parse?_dateText`, `parse?_text`: the reader of operands reads what documents hold.
-/

namespace TwinStore.Calendar

open Number

/-! ## Fields -/

/-- The fields of a day, as they stand in every text of it. -/
def dateFields (d : Date) : List Char :=
  fixedDigits 10 4 d.year ++ '-' :: (fixedDigits 10 2 d.month ++ '-' :: fixedDigits 10 2 d.day)

/-- The fields of a clock reading. -/
def clockFields (t : DateTime) : List Char :=
  fixedDigits 10 2 t.hour ++ ':' ::
    (fixedDigits 10 2 t.minute ++ ':' :: fixedDigits 10 2 t.second)

@[simp]
theorem length_dateFields (d : Date) : (dateFields d).length = 10 := by
  simp [dateFields]

@[simp]
theorem length_clockFields (t : DateTime) : (clockFields t).length = 8 := by
  simp [clockFields]

/-- The parts of a day fit into its fields. -/
theorem Date.parts_lt {d : Date} (hd : d.isValid = true) :
    d.year < 10 ^ 4 ∧ d.month < 10 ^ 2 ∧ d.day < 10 ^ 2 := by
  have hday := day_lt hd
  have hparts := isValid_iff.mp hd
  omega

/-- The text of a day consists of its fields. -/
theorem Date.text_toList {d : Date} (hd : d.isValid = true) : d.text.toList = dateFields d := by
  obtain ⟨hyear, hmonth, hday⟩ := d.parts_lt hd
  simp only [text, dateFields, String.toList_append, padded_toList (by decide : 0 < 4) hyear,
    padded_toList (by decide : 0 < 2) hmonth, padded_toList (by decide : 0 < 2) hday]
  simp

/-- The text of a clock reading consists of its fields. -/
theorem DateTime.clockText_toList {t : DateTime} (ht : t.isValid = true) :
    t.clockText.toList = clockFields t := by
  obtain ⟨_, hh, hm, hs, _⟩ := isValid_iff.mp ht
  simp only [clockText, clockFields, String.toList_append,
    padded_toList (by decide : 0 < 2) (show t.hour < 10 ^ 2 by omega),
    padded_toList (by decide : 0 < 2) (show t.minute < 10 ^ 2 by omega),
    padded_toList (by decide : 0 < 2) (show t.second < 10 ^ 2 by omega)]
  simp

/-- Microseconds fill six places behind a point. -/
theorem DateTime.microText_toList {n : Nat} (hn : n ≤ 999999) :
    (microText n).toList = '.' :: fixedDigits 10 6 n := by
  simp only [microText, String.toList_append,
    padded_toList (by decide : 0 < 6) (show n < 10 ^ 6 by omega)]
  simp

/-- A stored point of time consists of its fields. -/
theorem instantText_toList {t : DateTime} (ht : t.isValid = true) :
    (Primary.instantText t).toList =
      dateFields t.date ++ ' ' :: (clockFields t ++ '.' :: fixedDigits 10 6 t.micro) := by
  obtain ⟨hdate, _, _, _, hmicro⟩ := DateTime.isValid_iff.mp ht
  simp only [Primary.instantText, String.toList_append, Date.text_toList hdate,
    DateTime.clockText_toList ht, DateTime.microText_toList hmicro]
  simp

/-- A naive point of time in a document consists of its fields, microseconds only if there are
any. -/
theorem DateTime.text_toList {t : DateTime} (ht : t.isValid = true) (hnaive : t.offset = none) :
    t.text.toList = dateFields t.date ++ 'T' :: (clockFields t ++
      if t.micro = 0 then [] else '.' :: fixedDigits 10 6 t.micro) := by
  obtain ⟨hdate, _, _, _, hmicro⟩ := isValid_iff.mp ht
  simp only [text, textWith, String.toList_append, Date.text_toList hdate, clockText_toList ht,
    hnaive]
  split_ifs <;> simp [microText_toList hmicro]

/-! ## Order -/

/-- Fields parted by a common mark are ordered by number, then by what follows the mark. -/
theorem field_lt {width m n : Nat} {mark : Char} {b c : List Char} (hn : n < 10 ^ width)
    (h : m < n ∨ (m = n ∧ b < c)) :
    fixedDigits 10 width m ++ mark :: b < fixedDigits 10 width n ++ mark :: c := by
  refine fixedDigits_append_lt (by decide) (by decide) hn (h.imp_right (And.imp_right ?_))
  intro hbc
  exact List.cons_lt_cons_iff.mpr (Or.inr ⟨rfl, hbc⟩)

/-- Fields of a day are ordered like days. -/
theorem dateFields_append_lt {d e : Date} (he : e.isValid = true) {b c : List Char}
    (h : d.Before e ∨ (d = e ∧ b < c)) : dateFields d ++ b < dateFields e ++ c := by
  obtain ⟨hyear, hmonth, hday⟩ := e.parts_lt he
  have hlast {m n : Nat} (hn : n < 10 ^ 2) (h : m < n ∨ (m = n ∧ b < c)) :
      fixedDigits 10 2 m ++ b < fixedDigits 10 2 n ++ c :=
    fixedDigits_append_lt (by decide) (by decide) hn h
  simp only [dateFields, List.append_assoc, List.cons_append]
  rcases h with (h | ⟨h, h' | ⟨h', h''⟩⟩) | ⟨rfl, h⟩
  · exact field_lt hyear (Or.inl h)
  · exact field_lt hyear (Or.inr ⟨h, field_lt hmonth (Or.inl h')⟩)
  · exact field_lt hyear (Or.inr ⟨h, field_lt hmonth (Or.inr ⟨h', hlast hday (Or.inl h'')⟩)⟩)
  · exact field_lt hyear (Or.inr ⟨rfl, field_lt hmonth (Or.inr ⟨rfl, hlast hday
      (Or.inr ⟨rfl, h⟩)⟩)⟩)

/-- Stored texts of days are ordered like the days. -/
theorem dateText_lt {d e : Date} (hd : d.isValid = true) (he : e.isValid = true)
    (hde : d.Before e) : d.text < e.text := by
  change d.text.toList < e.text.toList
  rw [Date.text_toList hd, Date.text_toList he,
    ← List.append_nil (dateFields d), ← List.append_nil (dateFields e)]
  exact dateFields_append_lt he (Or.inl hde)

/-- Stored texts of points of time are ordered like the points of time. -/
theorem instantText_lt {t u : DateTime} (ht : t.isValid = true) (hu : u.isValid = true)
    (htu : t.Before u) : Primary.instantText t < Primary.instantText u := by
  obtain ⟨hdate, hh, hm, hs, hn⟩ := DateTime.isValid_iff.mp hu
  have hmicro (h : t.micro < u.micro) : fixedDigits 10 6 t.micro < fixedDigits 10 6 u.micro :=
    fixedDigits_lt_fixedDigits (by decide) (by decide) h (by omega)
  have hlast (h : t.second < u.second ∨ (t.second = u.second ∧ t.micro < u.micro)) :
      fixedDigits 10 2 t.second ++ '.' :: fixedDigits 10 6 t.micro <
        fixedDigits 10 2 u.second ++ '.' :: fixedDigits 10 6 u.micro :=
    field_lt (by omega) (h.imp_right (And.imp_right hmicro))
  change (Primary.instantText t).toList < (Primary.instantText u).toList
  rw [instantText_toList ht, instantText_toList hu]
  rcases htu with hbefore | ⟨hsame, hclock⟩
  · exact dateFields_append_lt hdate (Or.inl hbefore)
  · refine dateFields_append_lt hdate (Or.inr ⟨hsame, ?_⟩)
    refine List.cons_lt_cons_iff.mpr (Or.inr ⟨rfl, ?_⟩)
    simp only [clockFields, List.append_assoc, List.cons_append]
    rcases hclock with h | ⟨h, h' | ⟨h', h''⟩⟩
    · exact field_lt (by omega) (Or.inl h)
    · exact field_lt (by omega) (Or.inr ⟨h, field_lt (by omega) (Or.inl h')⟩)
    · exact field_lt (by omega) (Or.inr ⟨h, field_lt (by omega) (Or.inr ⟨h', hlast h''⟩)⟩)

/-- Stored texts of days compare like the numbers of the days. -/
theorem compare_dateText {d e : Date} (hd : d.isValid = true) (he : e.isValid = true) :
    compare d.text e.text = compare d.toOrdinal e.toOrdinal := by
  have hlt {d e : Date} (hd : d.isValid = true) (he : e.isValid = true)
      (h : d.toOrdinal < e.toOrdinal) : d.text < e.text := by
    rcases Date.before_or_eq_or_before d e with hde | rfl | hed
    · exact dateText_lt hd he hde
    · omega
    · have := Date.toOrdinal_lt he hd hed
      omega
  refine compare_of_increasing (hlt hd he) (hlt he hd) fun h => ?_
  rw [(Date.toOrdinal_inj hd he).mp h]

/-- Naive points of time at the same microsecond are the same. -/
theorem DateTime.epochMicros_inj {t u : DateTime} (ht : t.isValid = true) (hu : u.isValid = true)
    (htn : t.offset = none) (hun : u.offset = none) :
    t.epochMicros = u.epochMicros ↔ t = u := by
  constructor
  · intro heq
    rcases before_or_eq_or_before (htn.trans hun.symm) with h | h | h
    · exact absurd heq (epochMicros_lt ht hu htn hun h).ne
    · exact h
    · exact absurd heq (epochMicros_lt hu ht hun htn h).ne'
  · rintro rfl
    rfl

/-- Stored texts of naive points of time compare like the microseconds since 1970. -/
theorem compare_instantText {t u : DateTime} (ht : t.isValid = true) (hu : u.isValid = true)
    (htn : t.offset = none) (hun : u.offset = none) :
    compare (Primary.instantText t) (Primary.instantText u) =
      compare t.epochMicros u.epochMicros := by
  have hlt {t u : DateTime} (ht : t.isValid = true) (hu : u.isValid = true)
      (htn : t.offset = none) (hun : u.offset = none) (h : t.epochMicros < u.epochMicros) :
      Primary.instantText t < Primary.instantText u := by
    rcases DateTime.before_or_eq_or_before (htn.trans hun.symm) with htu | rfl | hut
    · exact instantText_lt ht hu htu
    · omega
    · have := DateTime.epochMicros_lt hu ht hun htn hut
      omega
  refine compare_of_increasing (hlt ht hu htn hun) (hlt hu ht hun htn) fun h => ?_
  rw [(DateTime.epochMicros_inj ht hu htn hun).mp h]

/-! ## Reading fields -/

/-- A text of ASCII characters has one byte for each of them. -/
theorem StoredReader.bytesOf_ascii {s : String} (hs : ∀ c ∈ s.toList, c.toNat < 128) :
    bytesOf s = s.toList := by
  rw [bytesOf, String.toUTF8_eq_toByteArray, ← String.utf8Encode_toList, List.utf8Encode,
    List.toList_data_toByteArray]
  generalize s.toList = cs at hs
  induction cs with
  | nil => rfl
  | cons c cs ih =>
    have hc : c.toNat < 128 := hs c (by simp)
    have hsize : c.utf8Size = 1 := by
      rw [Char.utf8Size_eq_one_iff]
      exact Nat.le_of_lt_succ hc
    have hbyte : c.toUInt8.toNat = c.toNat := by
      rw [Char.toUInt8, UInt32.toNat_toUInt8]
      exact Nat.mod_eq_of_lt (Nat.lt_trans hc (by decide))
    rw [List.flatMap_cons, String.utf8EncodeChar_eq_singleton hsize, List.map_append,
      ih fun c hc => hs c (List.mem_cons_of_mem _ hc)]
    change Char.ofNat c.toUInt8.toNat :: cs = c :: cs
    rw [hbyte, Char.ofNat_toNat]

/-- Digits are ASCII characters. -/
theorem ascii_of_mem_fixedDigits {width n : Nat} {c : Char}
    (hc : c ∈ fixedDigits 10 width n) : c.toNat < 128 := by
  obtain ⟨d, hd, rfl⟩ := exists_digit_of_mem_fixedDigits (by decide) hc
  interval_cases d <;> decide

@[simp]
theorem take_fixedDigits_append (base width n : Nat) (rest : List Char) :
    (fixedDigits base width n ++ rest).take width = fixedDigits base width n := by
  rw [List.take_append_of_le_length (by simp), List.take_of_length_le (by simp)]

@[simp]
theorem drop_fixedDigits_append (base width n : Nat) (rest : List Char) :
    (fixedDigits base width n ++ rest).drop width = rest := by
  rw [List.drop_append_of_le_length (by simp), List.drop_of_length_le (by simp), List.nil_append]

namespace IsoReader

/-- A field of digits is read as its number. -/
theorem groupedDigits?_fixedDigits (flag : Bool) (value : Nat) {width n : Nat}
    (hn : n < 10 ^ (width + 1)) :
    groupedDigits? flag value (fixedDigits 10 (width + 1) n) =
      some (value * 10 ^ (width + 1) + n) :=
  read_fixedDigits (by decide) (fun _ => rfl) (fun flag value d rest hd => by
    simp only [groupedDigits?, asciiDigit?_digitChar hd]) flag value hn

/-- No digit is a blank or a sign. -/
theorem digitChar_plain {d : Nat} (hd : d < 10) :
    isPadding (Nat.digitChar d) = false ∧ Nat.digitChar d ≠ '-' ∧ Nat.digitChar d ≠ '+' := by
  interval_cases d <;> decide

/-- A field of digits is an integer without blanks or sign. -/
theorem field?_fixedDigits {width n : Nat} (hwidth : 0 < width) (hn : n < 10 ^ width) :
    field? (fixedDigits 10 width n) = some (n : Int) := by
  obtain ⟨width, rfl⟩ := Nat.exists_eq_add_of_lt hwidth
  rw [Nat.zero_add] at hn ⊢
  have hplain : ∀ c ∈ fixedDigits 10 (width + 1) n, isPadding c = false := by
    intro c hc
    obtain ⟨d, hd, rfl⟩ := exists_digit_of_mem_fixedDigits (by decide) hc
    exact (digitChar_plain hd).1
  have hread := groupedDigits?_fixedDigits false 0 hn
  rw [field?, dropWhile_reverse_dropWhile hplain]
  have hdigit : n / 10 ^ width % 10 < 10 := Nat.mod_lt _ (by decide)
  rw [fixedDigits_succ] at hread ⊢
  generalize n / 10 ^ width % 10 = d at hread hdigit
  split
  · next heq => exact absurd (List.cons.inj heq).1 (digitChar_plain hdigit).2.1
  · next heq => exact absurd (List.cons.inj heq).1 (digitChar_plain hdigit).2.2
  · rw [hread]
    simp

/-- The date at the beginning of a text is read, and the rest is left. -/
theorem date?_dateFields {d : Date} (hd : d.isValid = true) (rest : List Char) :
    date? (dateFields d ++ rest) =
      some (((d.year : Int), (d.month : Int), (d.day : Int)), rest) := by
  obtain ⟨hyear, hmonth, hday⟩ := d.parts_lt hd
  have hyear := field?_fixedDigits (by decide) hyear
  have hmonth := field?_fixedDigits (by decide) hmonth
  have hday := field?_fixedDigits (by decide) hday
  rw [date?, calendarDate?]
  simp +arith [dateFields, hyear, hmonth, hday]

/-- A digit opens no offset. -/
theorem opensZone_digitChar {d : Nat} (hd : d < 10) : opensZone (Nat.digitChar d) = false := by
  interval_cases d <;> decide

/-- A time begins with its hour. -/
theorem timeFrom?_hour (colons : Bool) (time : RawTime) (steps : Nat) {n : Nat} (hn : n < 10 ^ 2)
    (rest : List Char) :
    timeFrom? colons time (steps + 1) 0 (fixedDigits 10 2 n ++ rest) =
      timeFrom? colons { time with hour := n } steps 1 rest := by
  have hfield := field?_fixedDigits (by decide) hn
  have htake := take_fixedDigits_append 10 2 n rest
  have hdrop := drop_fixedDigits_append 10 2 n rest
  rw [← htake] at hfield
  rw [fixedDigits_succ, List.cons_append] at hfield hdrop ⊢
  rw [timeFrom?, opensZone_digitChar (Nat.mod_lt _ (by decide))]
  simp only [Bool.false_eq_true, if_false]
  rw [hfield, hdrop]
  rfl

/-- Behind a colon there are the minutes. -/
theorem timeFrom?_minute (colons : Bool) (time : RawTime) (steps : Nat) {n : Nat}
    (hn : n < 10 ^ 2) (rest : List Char) :
    timeFrom? colons time (steps + 1) 1 (':' :: (fixedDigits 10 2 n ++ rest)) =
      timeFrom? true { time with minute := n } steps 2 rest := by
  rw [timeFrom?]
  simp [opensZone, field?_fixedDigits (by decide) hn]

/-- Behind a second colon there are the seconds. -/
theorem timeFrom?_second (time : RawTime) (steps : Nat) {n : Nat} (hn : n < 10 ^ 2)
    (rest : List Char) :
    timeFrom? true time (steps + 1) 2 (':' :: (fixedDigits 10 2 n ++ rest)) =
      timeFrom? true { time with second := n } steps 3 rest := by
  rw [timeFrom?]
  simp [opensZone, field?_fixedDigits (by decide) hn]

/-- Six digits behind a point are microseconds. -/
theorem fraction?_fixedDigits {n : Nat} (hn : n < 10 ^ 6) {rest : List Char}
    (hrest : rest.takeWhile (fun c => (Text.asciiDigit? c).isSome) = []) :
    fraction? ('.' :: (fixedDigits 10 6 n ++ rest)) = some (n, rest) := by
  have hall : (fixedDigits 10 6 n ++ rest).takeWhile (fun c => (Text.asciiDigit? c).isSome) =
      fixedDigits 10 6 n := by
    rw [List.takeWhile_append_of_pos, hrest, List.append_nil]
    intro c hc
    obtain ⟨d, hd, rfl⟩ := exists_digit_of_mem_fixedDigits (by decide) hc
    rw [asciiDigit?_digitChar hd]
    rfl
  have hlen := length_fixedDigits 10 6 n
  have hne : (fixedDigits 10 6 n).isEmpty = false := by
    rw [List.isEmpty_eq_false_iff, ← List.length_pos_iff, hlen]
    decide
  have htake : (fixedDigits 10 6 n).take 6 = fixedDigits 10 6 n := List.take_of_length_le hlen.le
  have hread := groupedDigits?_fixedDigits false 0 hn
  simp [fraction?, hall, hne, htake, hread, hlen]

/-- Whether a text behind a clock reading is read as an offset. -/
structure IsZone (zone : List Char) (offset : Option Int) : Prop where
  read : ∀ (time : RawTime) (steps part : Nat), time.offset = none →
    timeFrom? true time (steps + 1) part zone = some { time with offset }
  /-- It does not go on with the digits of a fraction. -/
  digits : zone.takeWhile (fun c => (Text.asciiDigit? c).isSome) = []
  ascii : ∀ c ∈ zone, c.toNat < 128

/-- Nothing is read as no offset. -/
theorem isZone_nil : IsZone [] none where
  read time _ _ hnone := by rw [timeFrom?, ← hnone]
  digits := rfl
  ascii _ hc := nomatch hc

/-- A clock reading with or without microseconds is read, with the offset behind it. -/
theorem time?_clockFields {t : DateTime} (ht : t.isValid = true) {zone : List Char}
    (hzone : IsZone zone t.offset) :
    time? (clockFields t ++ (if t.micro = 0 then [] else '.' :: fixedDigits 10 6 t.micro) ++ zone) =
      some ⟨t.hour, t.minute, t.second, t.micro, t.offset⟩ := by
  obtain ⟨_, hh, hm, hs, hn⟩ := DateTime.isValid_iff.mp ht
  have hfraction : timeFrom? true ⟨t.hour, t.minute, t.second, 0, none⟩ 2 3
      ((if t.micro = 0 then [] else '.' :: fixedDigits 10 6 t.micro) ++ zone) =
      some ⟨t.hour, t.minute, t.second, t.micro, t.offset⟩ := by
    split_ifs with hzero
    · rw [List.nil_append, hzone.read _ _ _ rfl, hzero]
      rfl
    · rw [List.cons_append, timeFrom?, fraction?_fixedDigits (by omega) hzone.digits]
      simp [opensZone, hzone.read]
  rw [time?, if_neg (by simp only [List.length_append, length_clockFields]; omega), clockFields]
  simp only [List.append_assoc, List.cons_append]
  rw [timeFrom?_hour _ _ _ (by omega), timeFrom?_minute _ _ _ (by omega),
    timeFrom?_second _ _ (by omega), hfraction]
  have hnot : ¬ ((t.hour : Int) = 24) := by omega
  simp [hnot]

end IsoReader

/-- Every character of the fields of a day or of a clock reading is ASCII. -/
theorem ascii_fields {t : DateTime} {c : Char} (hc : c ∈ dateFields t.date ∨ c ∈ clockFields t) :
    c.toNat < 128 := by
  simp only [dateFields, clockFields, List.mem_append, List.mem_cons] at hc
  rcases hc with (hc | rfl | hc | rfl | hc) | (hc | rfl | hc | rfl | hc)
  all_goals first | exact ascii_of_mem_fixedDigits hc | decide

/-- The fields of a point of time, microseconds only if there are any, and an offset behind them read as
that point of time. -/
theorem IsoReader.parse?_of_fields {s : String} {t : DateTime} {zone : List Char} (ht : t.isValid = true)
    (hzone : IsZone zone t.offset)
    (hs : s.toList = dateFields t.date ++ 'T' :: (clockFields t ++
      (if t.micro = 0 then [] else '.' :: fixedDigits 10 6 t.micro) ++ zone)) :
    parse? s = some t := by
  obtain ⟨hdate, hh, _, _, _⟩ := DateTime.isValid_iff.mp ht
  have hascii : s.toList.any (·.toNat ≥ 128) = false := by
    rw [hs, List.any_eq_false]
    intro c hc
    rw [decide_eq_true_eq, Nat.not_le]
    simp only [List.mem_append, List.mem_cons] at hc
    rcases hc with hc | rfl | (hc | hc) | hc
    · exact ascii_fields (Or.inl hc)
    · decide
    · exact ascii_fields (Or.inr hc)
    · split_ifs at hc
      · cases hc
      · rcases List.mem_cons.mp hc with rfl | hc
        · decide
        · exact ascii_of_mem_fixedDigits hc
    · exact hzone.ascii c hc
  have hnot : ¬ ((t.hour : Int) = 24) := by omega
  have hparts := DateTime.ofParts?_self ht
  rw [parse?, if_neg (by simp [hascii]), hs, date?_dateFields hdate]
  simp only [Option.bind_eq_bind, Option.bind_some, time?_clockFields ht hzone]
  simp [hnot, hparts]

/-- The text of a naive point of time in a document reads as that point of time. -/
theorem IsoReader.parse?_text {t : DateTime} (ht : t.isValid = true) (hnaive : t.offset = none) :
    parse? t.text = some t := by
  refine parse?_of_fields ht (hnaive ▸ isZone_nil) ?_
  rw [DateTime.text_toList ht hnaive, List.append_nil]

/-- The text of a day reads as midnight of that day. -/
theorem IsoReader.parse?_dateText {d : Date} (hd : d.isValid = true) :
    parse? d.text = some (DateTime.ofDate d) := by
  have hascii : d.text.toList.any (·.toNat ≥ 128) = false := by
    rw [Date.text_toList hd, List.any_eq_false]
    intro c hc
    rw [decide_eq_true_eq, Nat.not_le]
    exact @ascii_fields (DateTime.ofDate d) c (Or.inl hc)
  have hparts := DateTime.ofParts?_self (DateTime.isValid_ofDate hd)
  have hfields := date?_dateFields hd []
  rw [List.append_nil] at hfields
  rw [parse?, if_neg (by simp [hascii]), Date.text_toList hd, hfields]
  simpa [DateTime.ofDate] using hparts

namespace StoredReader

/-- No digit marks a week. -/
theorem digitChar_ne_mark {d : Nat} (hd : d < 10) : Nat.digitChar d ≠ 'W' := by
  interval_cases d <;> decide

/-- The date at the beginning of a stored text is read. -/
theorem datePrefix?_dateFields {d : Date} (hd : d.isValid = true) :
    datePrefix? (dateFields d) = some ((d.year : Int), (d.month : Int), (d.day : Int)) := by
  obtain ⟨hyear, hmonth, hday⟩ := d.parts_lt hd
  have hweek := digitChar_ne_mark (show d.month / 10 ^ 1 % 10 < 10 from Nat.mod_lt _ (by decide))
  have hlast : digits? 2 0 (fixedDigits 10 2 d.day) = some (d.day, []) := by
    simpa using digits?_fixedDigits 0 [] hday
  rw [datePrefix?, dateFields, digits?_fixedDigits 0 _ hyear]
  simp only [Option.bind_eq_bind, Option.bind_some, List.head?_cons, BEq.rfl, if_true,
    List.drop_one, List.tail_cons]
  split
  · next rest heq =>
    rw [fixedDigits_succ, List.cons_append] at heq
    exact absurd (List.cons.inj heq).1 hweek
  · rw [digits?_fixedDigits 0 _ hmonth]
    simp [hlast]

/-- The bytes of the text of a day are its fields. -/
theorem bytesOf_dateText {d : Date} (hd : d.isValid = true) : bytesOf d.text = dateFields d := by
  rw [bytesOf_ascii, Date.text_toList hd]
  intro c hc
  rw [Date.text_toList hd] at hc
  exact @ascii_fields (DateTime.ofDate d) c (Or.inl hc)

/-- The stored text of a day reads as that day. -/
theorem date?_text {d : Date} (hd : d.isValid = true) : date? d.text = some d := by
  simp [date?, bytesOf_dateText hd, datePrefix?_dateFields hd, Date.ofParts?_self hd]

/-- The stored text of a day reads as its midnight. -/
theorem dateTime?_dateText {d : Date} (hd : d.isValid = true) :
    dateTime? d.text = some (DateTime.ofDate d) := by
  have hlength : dateLength? (dateFields d) = some 10 := by
    have hweek := digitChar_ne_mark (show d.month / 10 % 10 < 10 by omega)
    simp [dateLength?, dateFields, fixedDigits, hweek]
  have hparts := DateTime.ofParts?_self (DateTime.isValid_ofDate hd)
  have htake : (dateFields d).take 10 = dateFields d := List.take_of_length_le (by simp)
  have hdrop : (dateFields d).drop 10 = [] := List.drop_of_length_le (by simp)
  simp only [dateTime?, bytesOf_dateText hd, hlength, length_dateFields]
  simpa [htake, hdrop, datePrefix?_dateFields hd, DateTime.ofDate] using hparts

/-- The microseconds of a clock reading behind its seconds: six digits behind a point, or nothing if
there are none. -/
def IsFraction (micro : Nat) (tail : List Char) : Prop :=
  tail = '.' :: fixedDigits 10 6 micro ∨ (micro = 0 ∧ tail = [])

/-- The characters of a fraction are digits and a point. -/
theorem IsFraction.mem {micro : Nat} {tail : List Char} (htail : IsFraction micro tail) {c : Char}
    (hc : c ∈ tail) : c = '.' ∨ c ∈ fixedDigits 10 6 micro := by
  rcases htail with rfl | ⟨_, rfl⟩
  · exact List.mem_cons.mp hc
  · cases hc

/-- A clock reading ends with its seconds and their fraction. -/
theorem clockFrom?_second {clock : Clock} {second micro : Nat} {tail : List Char}
    (hsecond : second < 10 ^ 2) (hmicro : micro < 10 ^ 6) (htail : IsFraction micro tail)
    (hclock : clock.micro = 0) :
    clockFrom? clock true 0 (fixedDigits 10 2 second ++ tail) =
      some ({ clock with second, micro }, false) := by
  rw [clockFrom?, digits?_fixedDigits 0 _ hsecond]
  rcases htail with rfl | ⟨rfl, rfl⟩
  · have hread : digits? 6 0 (fixedDigits 10 6 micro) = some (micro, []) := by
      simpa using digits?_fixedDigits 0 [] hmicro
    obtain ⟨c, rest, hc, hlen⟩ : ∃ c rest, fixedDigits 10 6 micro = c :: rest ∧
        rest.length = 5 := ⟨_, _, fixedDigits_succ 10 5 micro, by simp⟩
    rw [hc] at hread ⊢
    simp [fraction?, hread, hlen]
  · simp [hclock]

/-- A clock reading with colons is read. -/
theorem clock?_clockFields {t : DateTime} (ht : t.isValid = true) {tail : List Char}
    (htail : IsFraction t.micro tail) :
    clock? (clockFields t ++ tail) = some (⟨t.hour, t.minute, t.second, t.micro⟩, false) := by
  obtain ⟨_, hh, hm, hs, hn⟩ := DateTime.isValid_iff.mp ht
  have hcons : ∀ (n : Nat) (rest : List Char),
      ∃ c tail, fixedDigits 10 2 n ++ rest = c :: tail := by
    intro n rest
    exact ⟨_, _, by rw [fixedDigits_succ, List.cons_append]⟩
  rw [clock?, clockFields, List.append_assoc, List.cons_append, List.append_assoc,
    List.cons_append, clockFrom?, digits?_fixedDigits 0 _ (show t.hour < 10 ^ 2 by omega)]
  obtain ⟨c, rest, hc⟩ := hcons t.minute (':' :: (fixedDigits 10 2 t.second ++ tail))
  rw [hc]
  simp only [ge_iff_le, Nat.le_refl, if_true, BEq.rfl, Bool.and_self]
  rw [← hc, clockFrom?, digits?_fixedDigits 0 _ (show t.minute < 10 ^ 2 by omega)]
  obtain ⟨c, rest, hc⟩ := hcons t.second tail
  rw [hc]
  simp only [BEq.rfl, Bool.and_self, if_true, show ¬ (1 ≥ 2) by decide, if_false]
  rw [← hc, clockFrom?_second (by omega) (by omega) htail rfl]
  simp

/-- A clock reading has no character that opens an offset. -/
theorem closed_of_mem_clock {t : DateTime} {tail : List Char} (htail : IsFraction t.micro tail)
    {c : Char} (hc : c ∈ clockFields t ++ tail) : (!(c == '+' || c == '-' || c == 'Z')) = true := by
  have hdigits : ∀ {width n : Nat} {c : Char}, c ∈ fixedDigits 10 width n →
      (!(c == '+' || c == '-' || c == 'Z')) = true := by
    intro width n c hc
    obtain ⟨d, hd, rfl⟩ := exists_digit_of_mem_fixedDigits (by decide) hc
    interval_cases d <;> decide
  simp only [clockFields, List.mem_append, List.mem_cons] at hc
  rcases hc with (hc | rfl | hc | rfl | hc) | hc
  · exact hdigits hc
  · decide
  · exact hdigits hc
  · decide
  · exact hdigits hc
  · rcases htail.mem hc with rfl | hc
    · decide
    · exact hdigits hc

/-- A time without an offset is read up to its end. -/
theorem time?_clockFields {t : DateTime} (ht : t.isValid = true) {tail : List Char}
    (htail : IsFraction t.micro tail) :
    time? (clockFields t ++ tail) = some (⟨t.hour, t.minute, t.second, t.micro⟩, none) := by
  have hall : ∀ c ∈ clockFields t ++ tail, (!(c == '+' || c == '-' || c == 'Z')) = true :=
    fun c hc => closed_of_mem_clock htail hc
  simp only [time?]
  rw [List.takeWhile_eq_self_iff.mpr hall, List.dropWhile_eq_nil_iff.mpr hall,
    clock?_clockFields ht htail]
  rfl

/-- The characters of a clock reading are ASCII. -/
theorem ascii_of_mem_clock {t : DateTime} {tail : List Char} (htail : IsFraction t.micro tail)
    {c : Char} (hc : c ∈ clockFields t ++ tail) : c.toNat < 128 := by
  rcases List.mem_append.mp hc with hc | hc
  · exact ascii_fields (Or.inr hc)
  · rcases htail.mem hc with rfl | hc
    · decide
    · exact ascii_of_mem_fixedDigits hc

/-- A text of the fields of a day and a time, with some character between them, reads as the point of
time. -/
theorem dateTime?_of_fields {s : String} {t : DateTime} {mark : Char} {time : List Char}
    (ht : t.isValid = true) (hmark : mark.toNat < 128)
    (htime : time? time = some (⟨t.hour, t.minute, t.second, t.micro⟩, t.offset))
    (hascii : ∀ c ∈ time, c.toNat < 128) (hs : s.toList = dateFields t.date ++ mark :: time) :
    dateTime? s = some t := by
  obtain ⟨hdate, _⟩ := DateTime.isValid_iff.mp ht
  have hbytes : bytesOf s = dateFields t.date ++ mark :: time := by
    rw [bytesOf_ascii, hs]
    intro c hc
    rw [hs] at hc
    rcases List.mem_append.mp hc with hc | hc
    · exact ascii_fields (Or.inl hc)
    · rcases List.mem_cons.mp hc with rfl | hc
      · exact hmark
      · exact hascii c hc
  have hlength : ¬ (bytesOf s).length < 7 := by
    simp only [hbytes, List.length_append, length_dateFields]
    omega
  have hsplit : dateLength? (bytesOf s) = some 10 := by
    have hweek := digitChar_ne_mark (show t.date.month / 10 % 10 < 10 by omega)
    rw [hbytes]
    simp [dateLength?, dateFields, fixedDigits, hweek]
  have hdrop : List.drop 11 (dateFields t.date ++ mark :: time) = time := by
    rw [List.drop_append, List.drop_of_length_le (by simp)]
    simp
  rw [dateTime?, if_neg hlength, hsplit, hbytes]
  simp [datePrefix?_dateFields hdate, hdrop, hmark, htime, DateTime.ofParts?_self ht]

/-- A text of the fields of a naive point of time reads as that point of time. -/
theorem dateTime?_of_naive {s : String} {t : DateTime} {mark : Char} {tail : List Char}
    (ht : t.isValid = true) (hnaive : t.offset = none) (hmark : mark.toNat < 128)
    (htail : IsFraction t.micro tail)
    (hs : s.toList = dateFields t.date ++ mark :: (clockFields t ++ tail)) :
    dateTime? s = some t :=
  dateTime?_of_fields ht hmark (hnaive ▸ time?_clockFields ht htail)
    (fun _ hc => ascii_of_mem_clock htail hc) hs

/-- A point of time as a table stores it reads as that point of time. -/
theorem dateTime?_instantText {t : DateTime} (ht : t.isValid = true) (hnaive : t.offset = none) :
    dateTime? (Primary.instantText t) = some t :=
  dateTime?_of_naive ht hnaive (by decide) (Or.inl rfl) (instantText_toList ht)

/-- Microseconds are written as a fraction if there are any. -/
theorem isFraction_text (micro : Nat) :
    IsFraction micro (if micro = 0 then [] else '.' :: fixedDigits 10 6 micro) := by
  split_ifs with hmicro
  · exact Or.inr ⟨hmicro, rfl⟩
  · exact Or.inl rfl

/-- A point of time as a document holds it reads as that point of time. -/
theorem dateTime?_text {t : DateTime} (ht : t.isValid = true) (hnaive : t.offset = none) :
    dateTime? t.text = some t :=
  dateTime?_of_naive ht hnaive (by decide) (isFraction_text t.micro) (DateTime.text_toList ht hnaive)

end StoredReader

end TwinStore.Calendar
