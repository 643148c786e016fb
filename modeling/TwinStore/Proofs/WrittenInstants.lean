import TwinStore.Proofs.OffsetText
import TwinStore.Proofs.OperatorLaws
import TwinStore.Proofs.WholeShifts

/-!
# Points of time in any writing

A filter may name a point of time as a value of universal time or with an offset, and each of the two as
a text.  The text is read back to the value, the offset is taken off, and what remains is the same point
of universal time: a date is cut from that, not from what was written.

Main definitions:

- `DateTime.shownAt?`: a point of universal time on the clock at an offset of some minutes.
- `NamesInstant`: values that coercion makes a given point of time.
- `MeansInstant`: operands that mean the same as a point of time in every filter on one field.
- `writings`: the ways to write a point of time.

Main results:

- Theorem `IsoReader.parse?_text_of_minutes`: the reader of operands reads a text with an offset.
- Theorem `DateTime.toUniversal?_shownAt`: universal time is found from the clock at an offset.
- Theorem `writings_mean_instant`: operands mean the same in each writing.
-/

namespace TwinStore

open Calendar Number

namespace Calendar

/-! ## Texts with an offset -/

/-- Microseconds in a minute. -/
def microsPerMinute : Int := 60 * microsPerSecond

/-- Whether the offset of a point of time, if it has one, is a whole number of minutes below a day. -/
def DateTime.HasMinuteOffset (t : DateTime) : Prop :=
  ∀ offset, t.offset = some offset → ∃ minutes : Int, minutes.natAbs < 1440 ∧
    offset = minutes * microsPerMinute

namespace IsoReader

/-- The fields of an offset of whole minutes. -/
theorem zoneFields_minutes (n : Nat) : zoneFields (n * 60000000) =
    fixedDigits 10 2 (n / 60) ++ ':' :: fixedDigits 10 2 (n % 60) := by
  have hhour : n * 60000000 / 1000000 / 3600 = n / 60 := by omega
  have hminute : n * 60000000 / 1000000 / 60 % 60 = n % 60 := by omega
  rw [zoneFields_of_short (by omega), hhour, hminute]

/-- An offset of whole minutes is read. -/
theorem zone?_minutes {n : Nat} (hn : n < 1440) :
    zone? ('+' :: zoneFields (n * 60000000)) = some (n * microsPerMinute) ∧
      zone? ('-' :: zoneFields (n * 60000000)) = some (-(n * microsPerMinute)) := by
  have hhour : field? (fixedDigits 10 2 (n / 60)) = some ((n / 60 : Nat) : Int) :=
    field?_fixedDigits (by decide) (by omega)
  have hminute : field? (fixedDigits 10 2 (n % 60)) = some ((n % 60 : Nat) : Int) :=
    field?_fixedDigits (by decide) (by omega)
  obtain ⟨rest, hrest⟩ : ∃ rest, zoneFields (n * 60000000) = rest := ⟨_, rfl⟩
  have hlength : rest.length = 5 := by simp [← hrest, zoneFields_minutes]
  have htake : rest.take 2 = fixedDigits 10 2 (n / 60) := by simp [← hrest, zoneFields_minutes]
  have hmark : rest.drop 2 = ':' :: fixedDigits 10 2 (n % 60) := by simp [← hrest, zoneFields_minutes]
  have hlast : rest.drop 3 = fixedDigits 10 2 (n % 60) := by
    rw [← List.drop_drop (i := 1) (j := 2), hmark]
    rfl
  have hnonempty : rest ≠ [] := by
    rintro rfl
    cases hlength
  rw [hrest, zone?, zone?]
  simp only [microsPerMinute]
  constructor
  all_goals
    simp only [List.length_cons, hlength, List.cons.injEq, hnonempty, and_false, or_self, if_false,
      Nat.reduceAdd, Nat.reduceEqDiff, ne_eq, not_true_eq_false, List.head?_cons, Option.bind_eq_bind,
      Option.bind_some, List.drop_succ_cons, List.drop_zero, htake, hmark, hlast, hhour, hminute, if_true]
    split_ifs
    all_goals first | omega | (refine congrArg some ?_; simp only [microsPerSecond]; omega)

/-- An offset of whole minutes behind a clock reading is read. -/
theorem isZone_minutes {minutes : Int} (hminutes : minutes.natAbs < 1440) :
    IsZone ((if minutes < 0 then '-' else '+') :: zoneFields (minutes * microsPerMinute).natAbs)
      (some (minutes * microsPerMinute)) where
  read time steps part _ := by
    obtain ⟨hplus, hminus⟩ := zone?_minutes hminutes
    have hsize : (minutes * microsPerMinute).natAbs = minutes.natAbs * 60000000 := by
      rw [Int.natAbs_mul]
      rfl
    rw [hsize]
    by_cases hneg : minutes < 0
    · have hsigned : -((minutes.natAbs : Int) * microsPerMinute) = minutes * microsPerMinute := by
        rw [Int.ofNat_natAbs_of_nonpos hneg.le, Int.neg_mul, Int.neg_neg]
      rw [if_pos hneg, timeFrom?.eq_def]
      simp only [opensZone, hminus, hsigned]
      rfl
    · rw [if_neg hneg, timeFrom?.eq_def]
      simp only [opensZone, hplus, Int.natAbs_of_nonneg (not_lt.mp hneg)]
      rfl
  digits := by split_ifs <;> rfl
  ascii c hc := by
    rcases List.mem_cons.mp hc with rfl | hc
    · split_ifs <;> decide
    · exact StoredReader.ascii_of_mem_zoneFields hc

/-- The text of a point of time with an offset of whole minutes reads as that point of time. -/
theorem parse?_text_of_minutes {t : DateTime} (ht : t.isValid = true) (hoffset : t.HasMinuteOffset) :
    parse? t.text = some t := by
  cases hzone : t.offset with
  | none => exact parse?_text ht hzone
  | some offset =>
    obtain ⟨minutes, hminutes, rfl⟩ := hoffset offset hzone
    have hday : (minutes * microsPerMinute).natAbs < 86400000000 := by
      simp only [microsPerMinute, microsPerSecond]
      omega
    have hsign : minutes * microsPerMinute < 0 ↔ minutes < 0 := by
      simp only [microsPerMinute, microsPerSecond]
      omega
    refine parse?_of_fields ht (hzone ▸ isZone_minutes hminutes) ?_
    rw [DateTime.text_toList_of_offset ht hzone hday]
    simp only [hsign]

end IsoReader

/-! ## The clock at an offset -/

namespace DateTime

/-- A point of universal time as the clock at an offset of some minutes shows it; none if it shows a time
outside the calendar. -/
def shownAt? (d : DateTime) (minutes : Int) : Option DateTime :=
  ofMicros? (d.toMicros + minutes * microsPerMinute) (some (minutes * microsPerMinute))

variable {d t : DateTime} {minutes : Int}

/-- What the clock at an offset shows is a point of time with that offset. -/
theorem isValid_shownAt (ht : d.shownAt? minutes = some t) :
    t.isValid = true ∧ t.offset = some (minutes * microsPerMinute) :=
  isValid_of_ofMicros? ht

/-- Universal time is found from what the clock at an offset shows. -/
theorem toUniversal?_shownAt (hd : d.isValid = true) (hnaive : d.offset = none)
    (ht : d.shownAt? minutes = some t) : t.toUniversal? = some d := by
  obtain ⟨-, hoffset⟩ := isValid_shownAt ht
  have huniversal : t.universalMicros = d.toMicros := by
    rw [universalMicros, hoffset, toMicros_of_ofMicros? ht, Option.getD_some, Int.add_sub_cancel]
  rw [toUniversal?, hoffset, huniversal, ← hnaive]
  exact ofMicros?_toMicros hd

end DateTime

end Calendar

/-! ## Operands -/

namespace Filter

section

variable {types : Entries AttributeType} {field : String} {type : AttributeType} {record : Record}
  {op : Operator} {x y : Value}

/-- A key with a dollar sign names no field: what is said of it counts only as a group. -/
theorem answer_of_dollar (hfield : field.startsWith "$" = true)
    (hgroup : ((recordReading (some types)).group field x).outcome =
      ((recordReading (some types)).group field y).outcome) :
    answer types field record x = answer types field record y := by
  show (Predicate.ofFilter _ _).outcome >>= _ = (Predicate.ofFilter _ _).outcome >>= _
  rw [Predicate.ofFilter, Predicate.ofFilter, outcome_map_filter, outcome_map_filter,
    Reading.outcome_filter_map, Reading.outcome_filter_map, Reading.outcome_entries_cons,
    Reading.outcome_entries_cons, Reading.part, Reading.part]
  split_ifs
  · rfl
  · rw [hgroup]

/-- Under such a key an operator is unknown, and its operand does not matter. -/
theorem outcome_group_operator (reading : Reading Check) :
    (reading.group field (.map [(op.key, x)])).outcome = (reading.group field (.map [])).outcome := by
  have hkey : op.key.startsWith "$" = true := by
    cases op <;> exact String.startsWith_string_iff.mpr ⟨_, rfl⟩
  have hunknown : (Connective.ofKey? op.key).isSome = false := by
    cases op <;> decide
  rw [← reading.outcome_group_clean field]
  simp [clean, cleanEntries, hkey, hunknown]

/-- Operands that compare alike, and whose members do, are answered alike. -/
theorem satisfies_congr (htype : Entries.get? types field = some type)
    (htruthy : x.isTruthy = y.isTruthy)
    (hcompare : comparable (some type) x = comparable (some type) y)
    (hmembers : (Operator.candidates (operandList x)).mapM (comparable (some type)) =
      (Operator.candidates (operandList y)).mapM (comparable (some type))) :
    satisfies types field record op x = satisfies types field record op y := by
  cases hfield : field.startsWith "$" with
  | true =>
    refine answer_of_dollar hfield ?_
    rw [outcome_group_operator, outcome_group_operator]
  | false =>
    rw [satisfies_eq_check htype hfield, satisfies_eq_check htype hfield]
    cases op with
    | isIn | notIn => simp only [recordReading, Operator.takesList, if_true, hmembers]
    | present =>
      have htruth (value : Value) : Operator.present.holds value x = Operator.present.holds value y := by
        rw [Operator.holds, Operator.holds, htruthy]
      show Check.holdsFor ⟨field, _, .present, x⟩ record = Check.holdsFor ⟨field, _, .present, y⟩ record
      simp only [Check.holdsFor, htruth]
    | eq | gt | gte | lt | lte =>
      simp only [recordReading, Operator.takesList, Bool.false_eq_true, if_false, hcompare, reduceCtorEq]

end

/-- Operands that mean the same as a point of universal time for a temporal attribute: coercion makes
them that point of time or its date, and each filter on one field is answered alike, whether it gives the
operand as it is, behind an operator, or as a member of a list. -/
structure MeansInstant (d : DateTime) (x : Value) : Prop where
  instant : coerce (some .datetime) x = .ok (.instant d)
  date : coerce (some .date) x = .ok (.date d.date)
  plain : ∀ types field type, Entries.get? types field = some type → type.isTemporal = true →
    ∀ record, answer types field record x = answer types field record (.instant d)
  operand : ∀ types field type, Entries.get? types field = some type → type.isTemporal = true →
    ∀ record op, satisfies types field record op x = satisfies types field record op (.instant d)
  member : ∀ types field type, Entries.get? types field = some type → type.isTemporal = true →
    ∀ record op before after, satisfies types field record op (.list (before ++ x :: after)) =
      satisfies types field record op (.list (before ++ .instant d :: after))

/-- Values that stand for one operand, for the point of time that they name. -/
structure NamesInstant (d : DateTime) (x : Value) : Prop where
  instant : coerceInstant x = .ok (.instant d)
  date : coerceDate x = .ok (.date d.date)
  isTruthy : x.isTruthy = true
  list : operandList x = .list [x]
  conditions : ∀ field, conditionsIn field x = [⟨field, .eq, x⟩]
  members : ∀ key, groupMembers key x = Outcome.filterError (.malformedGroup key)

/-- A point of time names its universal time. -/
theorem namesInstant_instant {d t : DateTime} (huniversal : universal t = .ok d) :
    NamesInstant d (.instant t) := by
  have hinstant : coerceInstant (.instant t) = .ok (.instant d) := by
    rw [coerceInstant, huniversal]
    rfl
  exact ⟨hinstant, by rw [coerceDate, hinstant]; rfl, rfl, rfl, fun _ => rfl, fun _ => rfl⟩

/-- A text names the universal time of the point of time that it is read as. -/
theorem namesInstant_text {d t : DateTime} {s : String} (hread : IsoReader.parse? s = some t)
    (huniversal : universal t = .ok d) : NamesInstant d (.text s) := by
  have hinstant : coerceInstant (.text s) = .ok (.instant d) := by
    rw [coerceInstant, instantOfText, hread, Outcome.ok_bind, huniversal]
    rfl
  have htruthy : (Value.text s).isTruthy = true := by
    cases hempty : s.isEmpty with
    | true =>
      obtain rfl := String.isEmpty_iff.mp hempty
      cases hread
    | false => rw [Value.isTruthy, hempty]; rfl
  exact ⟨hinstant, by rw [coerceDate, hinstant]; rfl, htruthy, rfl, fun _ => rfl, fun _ => rfl⟩

namespace NamesInstant

variable {d : DateTime} {x y : Value} {types : Entries AttributeType} {field : String}
  {type : AttributeType} {record : Record}

/-- Values that name the same point of time compare alike for a temporal attribute. -/
theorem comparable_eq (hx : NamesInstant d x) (hy : NamesInstant d y) (htemporal : type.isTemporal = true) :
    comparable (some type) x = comparable (some type) y := by
  cases type with
  | datetime => simp only [comparable, coerce, hx.instant, hy.instant]
  | date => simp only [comparable, coerce, hx.date, hy.date]
  | _ => cases htemporal

/-- As plain operands they are answered alike. -/
theorem answer_eq (hx : NamesInstant d x) (hy : NamesInstant d y)
    (htype : Entries.get? types field = some type) (htemporal : type.isTemporal = true) :
    answer types field record x = answer types field record y := by
  cases hfield : field.startsWith "$" with
  | true =>
    refine answer_of_dollar hfield ?_
    cases hkey : Connective.ofKey? field with
    | none => rw [Reading.outcome_group_of_unknown _ hkey, Reading.outcome_group_of_unknown _ hkey]
    | some connective =>
      rw [Reading.outcome_group _ hkey, Reading.outcome_group _ hkey, hx.members, hy.members]
      rfl
  | false =>
    rw [answer_eq_check htype hfield record (hx.conditions field),
      answer_eq_check htype hfield record (hy.conditions field)]
    simp only [recordReading, Operator.takesList, Bool.false_eq_true, if_false, reduceCtorEq,
      hx.comparable_eq hy htemporal]

/-- What names a naive point of time means it. -/
theorem meansInstant (hx : NamesInstant d x) (hnaive : d.offset = none) : MeansInstant d x := by
  have hd : NamesInstant d (.instant d) := namesInstant_instant (universal_of_naive hnaive)
  refine ⟨hx.instant, hx.date, fun types field type htype htemporal record => ?_,
    fun types field type htype htemporal record op => ?_,
    fun types field type htype htemporal record op before after => ?_⟩
  · exact hx.answer_eq hd htype htemporal
  · refine satisfies_congr htype (hx.isTruthy.trans hd.isTruthy.symm) (hx.comparable_eq hd htemporal) ?_
    rw [hx.list, hd.list]
    simp only [Operator.candidates, Outcome.mapM_cons, hx.comparable_eq hd htemporal]
  · refine satisfies_congr htype ?_ ?_ ?_
    · cases before <;> rfl
    · cases type <;> first | rfl | cases htemporal
    · simp only [operandList, Operator.candidates, List.mapM_append, List.mapM_cons,
        hx.comparable_eq hd htemporal]

end NamesInstant

/-- The ways to write a point of universal time: as it is, as the clock shows it at an offset, and each
of the two as a text. -/
def writings (d t : DateTime) : List Value := [.instant d, .instant t, .text d.text, .text t.text]

/-- Operands mean the same in each writing, at every offset of whole minutes below a day. -/
theorem writings_mean_instant {d t : DateTime} {minutes : Int} (hd : d.isValid = true)
    (hnaive : d.offset = none) (hminutes : minutes.natAbs < 1440) (ht : d.shownAt? minutes = some t) :
    ∀ x ∈ writings d t, MeansInstant d x := by
  obtain ⟨hvalid, hoffset⟩ := DateTime.isValid_shownAt ht
  have huniversal : universal t = .ok d := by
    rw [universal, DateTime.toUniversal?_shownAt hd hnaive ht]
  have hself : universal d = .ok d := universal_of_naive hnaive
  have hwhole : t.HasMinuteOffset := fun offset h =>
    ⟨minutes, hminutes, Option.some.inj (h.symm.trans hoffset)⟩
  intro x hx
  simp only [writings, List.mem_cons, List.not_mem_nil, or_false] at hx
  refine NamesInstant.meansInstant ?_ hnaive
  rcases hx with rfl | rfl | rfl | rfl
  · exact namesInstant_instant hself
  · exact namesInstant_instant huniversal
  · exact namesInstant_text (IsoReader.parse?_text hd hnaive) hself
  · exact namesInstant_text (IsoReader.parse?_text_of_minutes hvalid hwhole) huniversal

/-- The last half hour of a year begins in the next year by the clock east of it. -/
def lastHalfHour : DateTime := ⟨⟨2024, 12, 31⟩, 23, 30, 0, 500, none⟩

/-- It means the same in each writing; its date is in the old year. -/
theorem last_half_hour_means_old_year : lastHalfHour.isValid = true ∧ lastHalfHour.offset = none ∧
    (345 : Int).natAbs < 1440 ∧
    lastHalfHour.shownAt? 345 = some ⟨⟨2025, 1, 1⟩, 5, 15, 0, 500, some 20700000000⟩ ∧
    MeansInstant lastHalfHour (.text "2025-01-01T05:15:00.000500+05:45") := by
  have hshown : lastHalfHour.shownAt? 345 =
      some ⟨⟨2025, 1, 1⟩, 5, 15, 0, 500, some 20700000000⟩ := by
    decide +kernel
  refine ⟨by decide +kernel, rfl, by decide, hshown, ?_⟩
  refine writings_mean_instant (by decide +kernel) rfl (by decide) hshown _ ?_
  simp only [writings, List.mem_cons]
  exact .inr (.inr (.inr (.inl (congrArg Value.text (by cbv)))))

end Filter

end TwinStore
