import TwinStore.Proofs.CalendarText

/-!
# Points of time with an offset

An offset is written behind the clock reading, in hours and minutes, with seconds and microseconds
if it has any.  The reader of stored records finds it again, but for offsets of less than a second,
which it takes for none at all.

Main definitions:

- `DateTime.HasReadableOffset`: points of time without offset, or with one that is found again.
- `DateTime.HasShortOffset`: points of time without offset, or with one of less than a day.

Main results:

- Theorem `clock?_zoneFields`: an offset without its sign is read like a clock.
- Theorem `dateTime?_text_of_shortOffset`: a point of time is read back, up to an offset below a second.
- Theorem `dateTime?_text_of_offset`: a point of time with a readable offset is read back.
- Theorem `hasShortOffset_of_dateTime?`: what is read has an offset of less than a day.
-/

namespace TwinStore.Calendar

open Number

/-- Whether the offset of a point of time, if it has one, is none at all or one of at least a
second, and less than a day. -/
def DateTime.HasReadableOffset (t : DateTime) : Prop :=
  ∀ offset, t.offset = some offset →
    (offset = 0 ∨ microsPerSecond ≤ offset.natAbs) ∧ offset.natAbs < microsPerDay

/-- Whether the offset of a point of time, if it has one, is less than a day. -/
def DateTime.HasShortOffset (t : DateTime) : Prop :=
  ∀ offset, t.offset = some offset → offset.natAbs < microsPerDay

/-- The offset that is found again: one below a second is none at all. -/
def foundOffset (offset : Int) : Int := if offset.natAbs < 1000000 then 0 else offset

/-! ## Writing -/

/-- The clock that shows an offset of some microseconds. -/
def zoneClock (n : Nat) : DateTime :=
  ⟨⟨1, 1, 1⟩, n / 1000000 / 3600, n / 1000000 / 60 % 60, n / 1000000 % 60, n % 1000000, none⟩

/-- The fields of an offset of some microseconds. -/
def zoneFields (n : Nat) : List Char :=
  if n / 1000000 % 60 = 0 ∧ n % 1000000 = 0 then
    fixedDigits 10 2 (n / 1000000 / 3600) ++ ':' :: fixedDigits 10 2 (n / 1000000 / 60 % 60)
  else clockFields (zoneClock n) ++
    if n % 1000000 = 0 then [] else '.' :: fixedDigits 10 6 (n % 1000000)

/-- An offset of less than a day fits a clock. -/
theorem isValid_zoneClock {n : Nat} (hn : n < 86400000000) : (zoneClock n).isValid = true := by
  have hdate : (⟨1, 1, 1⟩ : Date).isValid = true := by decide
  refine DateTime.isValid_iff.mpr ⟨hdate, ?_⟩
  simp only [zoneClock]
  omega

/-- The fields of a short offset. -/
theorem zoneFields_of_short {n : Nat} (hshort : n / 1000000 % 60 = 0 ∧ n % 1000000 = 0) :
    zoneFields n =
      fixedDigits 10 2 (n / 1000000 / 3600) ++ ':' :: fixedDigits 10 2 (n / 1000000 / 60 % 60) :=
  if_pos hshort

/-- The fields of an offset with seconds or microseconds are those of a clock. -/
theorem zoneFields_of_long {n : Nat} (hlong : ¬ (n / 1000000 % 60 = 0 ∧ n % 1000000 = 0)) :
    ∃ tail, StoredReader.IsFraction (zoneClock n).micro tail ∧
      zoneFields n = clockFields (zoneClock n) ++ tail := by
  refine ⟨_, StoredReader.isFraction_text (n % 1000000), ?_⟩
  rw [zoneFields, if_neg hlong]

/-- An offset consists of its sign and its fields. -/
theorem offsetText_toList {offset : Int} (h : offset.natAbs < 86400000000) :
    (DateTime.offsetText offset).toList =
      (if offset < 0 then '-' else '+') :: zoneFields offset.natAbs := by
  have hsign : (if offset < 0 then "-" else "+").toList = [if offset < 0 then '-' else '+'] := by
    split_ifs <;> rfl
  have hhour := padded_toList (by decide : 0 < 2)
    (show offset.natAbs / 1000000 / 3600 < 10 ^ 2 by omega)
  have hminute := padded_toList (by decide : 0 < 2)
    (show offset.natAbs / 1000000 / 60 % 60 < 10 ^ 2 by omega)
  have hsecond := padded_toList (by decide : 0 < 2)
    (show offset.natAbs / 1000000 % 60 < 10 ^ 2 by omega)
  have hmicro := DateTime.microText_toList (show offset.natAbs % 1000000 ≤ 999999 by omega)
  rw [DateTime.offsetText]
  by_cases hshort : offset.natAbs / 1000000 % 60 = 0 ∧ offset.natAbs % 1000000 = 0
  · rw [zoneFields_of_short hshort]
    simp [hsign, hhour, hminute, hshort]
  · rw [zoneFields, if_neg hshort, if_neg hshort]
    by_cases hnone : offset.natAbs % 1000000 = 0
    · simp [hsign, hhour, hminute, hsecond, hnone, clockFields, zoneClock]
    · simp [hsign, hhour, hminute, hsecond, hmicro, hnone, clockFields, zoneClock]

/-- A point of time with an offset consists of its fields, microseconds only if there are any, and
those of the offset. -/
theorem DateTime.text_toList_of_offset {t : DateTime} {offset : Int} (ht : t.isValid = true)
    (hoffset : t.offset = some offset) (hday : offset.natAbs < 86400000000) :
    t.text.toList = dateFields t.date ++ 'T' :: (clockFields t ++
      (if t.micro = 0 then [] else '.' :: fixedDigits 10 6 t.micro) ++
        (if offset < 0 then '-' else '+') :: zoneFields offset.natAbs) := by
  obtain ⟨hdate, _, _, _, hmicro⟩ := isValid_iff.mp ht
  simp only [text, textWith, String.toList_append, Date.text_toList hdate, clockText_toList ht,
    hoffset, offsetText_toList hday]
  by_cases hnone : t.micro = 0
  · simp [hnone]
  · simp [hnone, microText_toList hmicro]

/-! ## Reading -/

namespace StoredReader

/-- Hours and minutes alone are a clock reading. -/
theorem clock?_minutes {hour minute : Nat} (hhour : hour < 10 ^ 2) (hminute : minute < 10 ^ 2) :
    clock? (fixedDigits 10 2 hour ++ ':' :: fixedDigits 10 2 minute) =
      some (⟨hour, minute, 0, 0⟩, false) := by
  have hread : digits? 2 0 (fixedDigits 10 2 minute) = some (minute, []) := by
    simpa using digits?_fixedDigits 0 [] hminute
  obtain ⟨c, rest, hc⟩ : ∃ c rest, fixedDigits 10 2 minute = c :: rest :=
    ⟨_, _, fixedDigits_succ 10 1 minute⟩
  have hlast (clock : Clock) : clockFrom? clock true 1 (c :: rest) =
      some ({ clock with minute }, false) := by
    rw [clockFrom?, ← hc, hread]
    rfl
  rw [clock?, clockFrom?, digits?_fixedDigits 0 _ hhour, hc]
  simp [hlast]

/-- An offset without its sign is read like a clock. -/
theorem clock?_zoneFields {n : Nat} (hn : n < 86400000000) :
    clock? (zoneFields n) = some (⟨n / 1000000 / 3600, n / 1000000 / 60 % 60, n / 1000000 % 60,
      n % 1000000⟩, false) := by
  by_cases hshort : n / 1000000 % 60 = 0 ∧ n % 1000000 = 0
  · rw [zoneFields_of_short hshort, clock?_minutes (by omega) (by omega), hshort.1, hshort.2]
  · obtain ⟨tail, htail, hfields⟩ := zoneFields_of_long hshort
    rw [hfields, clock?_clockFields (isValid_zoneClock hn) htail]
    rfl

/-- The fields of an offset are ASCII. -/
theorem ascii_of_mem_zoneFields {n : Nat} {c : Char} (hc : c ∈ zoneFields n) : c.toNat < 128 := by
  by_cases hshort : n / 1000000 % 60 = 0 ∧ n % 1000000 = 0
  · rw [zoneFields_of_short hshort, List.mem_append, List.mem_cons] at hc
    rcases hc with hc | rfl | hc
    · exact ascii_of_mem_fixedDigits hc
    · decide
    · exact ascii_of_mem_fixedDigits hc
  · obtain ⟨tail, htail, hfields⟩ := zoneFields_of_long hshort
    exact ascii_of_mem_clock htail (hfields ▸ hc)

/-- The microseconds that an offset of some clock reading stands for, none if it has no second. -/
def Clock.zoneSize (zone : Clock) : Int :=
  if (zone.hour * 60 + zone.minute) * 60 + zone.second = 0 then 0
  else ((zone.hour * 60 + zone.minute) * 60 + zone.second : Nat) * microsPerSecond + zone.micro

/-- Behind a clock reading, a sign and the fields of an offset are read. -/
theorem time?_of_zone {cs rest : List Char} {sign : Char} {clock zone : Clock}
    (hcs : ∀ c ∈ cs, (!(c == '+' || c == '-' || c == 'Z')) = true) (hsign : sign = '+' ∨ sign = '-')
    (hclock : clock? cs = some (clock, false)) (hzone : clock? rest = some (zone, false))
    (hday : zone.zoneSize < microsPerDay) :
    time? (cs ++ sign :: rest) =
      some (clock, some (if sign = '-' then -zone.zoneSize else zone.zoneSize)) := by
  have hopens : ¬ (!(sign == '+' || sign == '-' || sign == 'Z')) = true := by
    rcases hsign with rfl | rfl <;> decide
  have htake : (cs ++ sign :: rest).takeWhile (fun c => !(c == '+' || c == '-' || c == 'Z')) =
      cs := by
    rw [List.takeWhile_append_of_pos hcs, List.takeWhile_cons, if_neg hopens, List.append_nil]
  have hdrop : (cs ++ sign :: rest).dropWhile (fun c => !(c == '+' || c == '-' || c == 'Z')) =
      sign :: rest := by
    rw [List.dropWhile_append_of_pos hcs, List.dropWhile_cons, if_neg hopens]
  rw [Clock.zoneSize] at hday ⊢
  simp only [time?, htake, hdrop, hclock, Option.bind_eq_bind, Option.bind_some]
  rcases hsign with rfl | rfl
  all_goals
    change (clock? rest).bind _ = _
    rw [hzone]
    simp only [Option.bind_some, Bool.false_eq_true, if_false, if_neg hday.not_ge]

/-- The fields of an offset stand for its size, or for none if it is below a second. -/
theorem zoneSize_fields (n : Nat) :
    Clock.zoneSize ⟨n / 1000000 / 3600, n / 1000000 / 60 % 60, n / 1000000 % 60, n % 1000000⟩ =
      if n < 1000000 then 0 else (n : Int) := by
  have hparts : (n / 1000000 / 3600 * 60 + n / 1000000 / 60 % 60) * 60 + n / 1000000 % 60 =
      n / 1000000 := by
    omega
  simp only [Clock.zoneSize, hparts, microsPerSecond]
  split_ifs <;> omega

/-- A time with an offset is read up to its end. -/
theorem time?_zoneFields {t : DateTime} {offset : Int} {tail : List Char} (ht : t.isValid = true)
    (htail : IsFraction t.micro tail) (hday : offset.natAbs < 86400000000) :
    time? (clockFields t ++ tail ++ (if offset < 0 then '-' else '+') :: zoneFields offset.natAbs) =
      some (⟨t.hour, t.minute, t.second, t.micro⟩, some (foundOffset offset)) := by
  have hfields := zoneSize_fields offset.natAbs
  have hsign : (if offset < 0 then '-' else '+') = '+' ∨ (if offset < 0 then '-' else '+') = '-' := by
    split_ifs <;> simp
  have hread := time?_of_zone (fun c hc => closed_of_mem_clock htail hc) hsign
    (clock?_clockFields ht htail) (clock?_zoneFields hday)
    (by rw [hfields, microsPerDay, microsPerSecond]; split_ifs <;> omega)
  have hsigned : (if (if offset < 0 then '-' else '+') = '-'
      then -(if offset.natAbs < 1000000 then 0 else (offset.natAbs : Int))
      else if offset.natAbs < 1000000 then 0 else (offset.natAbs : Int)) = foundOffset offset := by
    rw [foundOffset]
    by_cases hneg : offset < 0
    · rw [if_pos hneg, if_pos rfl]
      split_ifs <;> omega
    · rw [if_neg hneg, if_neg (by decide)]
      split_ifs <;> omega
  rw [hread, hfields, hsigned]

/-- A point of time reads as that point of time, without an offset below a second. -/
theorem dateTime?_text_of_shortOffset {t : DateTime} (ht : t.isValid = true)
    (hshort : t.HasShortOffset) :
    dateTime? t.text = some { t with offset := t.offset.map foundOffset } := by
  cases hoffset : t.offset with
  | none =>
    rw [dateTime?_text ht hoffset, Option.map_none, ← hoffset]
  | some offset =>
    have hday : offset.natAbs < 86400000000 := by
      have hlt := hshort offset hoffset
      simp only [microsPerDay, microsPerSecond] at hlt
      omega
    have htail := isFraction_text t.micro
    have hfields := DateTime.text_toList_of_offset ht hoffset hday
    refine dateTime?_of_fields (t := { t with offset := some (foundOffset offset) }) ht (by decide)
      (time?_zoneFields ht htail hday) ?_ hfields
    intro c hc
    rcases List.mem_append.mp hc with hc | hc
    · exact ascii_of_mem_clock htail hc
    · rcases List.mem_cons.mp hc with rfl | hc
      · split_ifs <;> decide
      · exact ascii_of_mem_zoneFields hc

/-- A point of time with a readable offset reads as that point of time. -/
theorem dateTime?_text_of_offset {t : DateTime} (ht : t.isValid = true)
    (hreadable : t.HasReadableOffset) : dateTime? t.text = some t := by
  have hfound : t.offset.map foundOffset = t.offset := by
    cases hoffset : t.offset with
    | none => rfl
    | some offset =>
      have hseconds := (hreadable offset hoffset).1
      simp only [microsPerSecond] at hseconds
      rw [Option.map_some, foundOffset]
      refine congrArg some ?_
      split_ifs <;> omega
  rw [dateTime?_text_of_shortOffset ht fun offset hoffset => (hreadable offset hoffset).2, hfound]

/-- The offset of a time that is read is less than a day. -/
theorem natAbs_lt_of_time? {cs : List Char} {clock : Clock} {offset : Int}
    (h : time? cs = some (clock, some offset)) : offset.natAbs < microsPerDay := by
  simp only [time?, Option.bind_eq_bind] at h
  obtain ⟨_, _, h⟩ := Option.bind_eq_some_iff.mp h
  split at h
  · split_ifs at h
    cases h
  · split_ifs at h
    cases h
    decide
  · obtain ⟨⟨zone, left⟩, _, h⟩ := Option.bind_eq_some_iff.mp h
    simp only at h
    split_ifs at h with hleft hseconds hday hneg
    all_goals
      simp only [Option.some.injEq, Prod.mk.injEq] at h
      obtain ⟨-, rfl⟩ := h
      simp only [microsPerSecond, microsPerDay] at *
      omega

/-- What is read has an offset of less than a day. -/
theorem hasShortOffset_of_dateTime? {s : String} {t : DateTime} (h : dateTime? s = some t) :
    t.HasShortOffset := by
  intro offset hoffset
  unfold dateTime? at h
  simp only at h
  split_ifs at h
  simp only [Option.bind_eq_bind, Option.bind_eq_some_iff] at h
  obtain ⟨_, _, ⟨year, month, day⟩, _, h⟩ := h
  split at h
  all_goals
    obtain ⟨⟨clock, zone⟩, htime, h⟩ := Option.bind_eq_some_iff.mp h
    simp only [DateTime.ofParts?] at h
    split_ifs at h
    obtain ⟨d, _, rfl⟩ := Option.map_eq_some_iff.mp h
  · cases htime
    cases hoffset
  · obtain rfl : zone = some offset := hoffset
    exact natAbs_lt_of_time? htime

end StoredReader

end TwinStore.Calendar
