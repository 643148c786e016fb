import TwinStore.Proofs.SameRecords
import TwinStore.Proofs.StoredMembers

/-!
# Updates of records that are the same

An update makes records that agree of records that agree, and plain records of plain ones, as long as
its new values are plain: null, values of the types of their attributes, or sums of dates for
temporal ones.

Main definitions:

- `AttributeType.Gains`: the new values of an attribute that are plain.

Main results:

- Theorem `addUnits_congr`: decimal numbers of one value are added alike.
- Theorem `newValue_congr`: records that agree have the same new values.
- Theorem `IsPlain.revise`: an update of plain records that agree makes such records.
-/

namespace TwinStore

open Number Calendar

/-! ## Numbers of units -/

namespace Shift

variable {d : Decimal} {n : ℤ}

/-- A decimal number that is taken for a whole number has it as its value. -/
theorem value?_of_wholeNumber (h : wholeNumber (.decimal d) = .ok n) : d.value? = some (n : ℚ) := by
  cases d with
  | finite negative coefficient exponent =>
    simp only [wholeNumber] at h
    split_ifs at h with hhuge
    obtain ⟨q, hq⟩ : ∃ q, (Decimal.finite negative coefficient exponent).value? = some q := ⟨_, rfl⟩
    by_cases hwhole : ∃ m : ℤ, q = m
    · obtain ⟨m, rfl⟩ := hwhole
      rw [Decimal.toInt?_of_integral hq hhuge] at h
      rw [hq, Except.ok.inj h]
    · rw [not_exists] at hwhole
      rw [Decimal.toInt?_of_fraction hq hwhole] at h
      cases h
  | _ => cases h

/-- A decimal number whose value is whole, and has no more than so many digits, is taken for it. -/
theorem wholeNumber_of_value? (h : d.value? = some (n : ℚ)) (hn : n.natAbs < 10 ^ (wholeLimit + 1)) :
    wholeNumber (.decimal d) = .ok n := by
  cases d with
  | finite negative coefficient exponent =>
    have hhuge : ¬ (coefficient ≠ 0 ∧ exponent > wholeLimit) := fun hhuge =>
      absurd (Decimal.pow_le_natAbs h hhuge) (not_le.mpr hn)
    simp only [wholeNumber]
    rw [if_neg hhuge, Decimal.toInt?_of_integral h hhuge]
    rfl
  | _ => cases h

/-- A point of time is moved by no more years than the calendar has. -/
theorem years_le_of_apply {s : Shift} {t u : DateTime} (ht : t.isValid = true)
    (h : s.apply t = .ok u) : s.years.natAbs ≤ 10000 := by
  obtain ⟨_, hyear, _⟩ := Date.isValid_iff.mp (DateTime.isValid_iff.mp ht).1
  unfold apply at h
  cases hdate : moveDate t.date s.years s.months with
  | error _ =>
    rw [hdate] at h
    cases h
  | ok date =>
    simp only [moveDate] at hdate
    split_ifs at hdate <;> simp only [lastYear] at * <;> omega

/-- Decimal numbers of one value make one shift, unless it leaves the calendar. -/
theorem ofUnits_congr {d e : Decimal} {q : ℚ} (hd : d.value? = some q) (he : e.value? = some q)
    {unit : DateUnit} {s : Shift} (h : ofUnits unit (.decimal d) = .ok s)
    (hyears : s.years.natAbs ≤ 10000) : ofUnits unit (.decimal e) = .ok s := by
  have hwhole {n : ℤ} (hn : wholeNumber (.decimal d) = .ok n) (hsmall : n.natAbs < 10 ^ 6) :
      wholeNumber (.decimal e) = .ok n := by
    refine wholeNumber_of_value? ?_ (hsmall.trans_le (Nat.pow_le_pow_right (by decide) (by decide)))
    rw [he, ← hd, value?_of_wholeNumber hn]
  cases unit with
  | year =>
    simp only [ofUnits] at h ⊢
    cases hn : wholeNumber (.decimal d) with
    | error _ =>
      rw [hn] at h
      cases h
    | ok n =>
      rw [hn] at h
      cases h
      have hyears : n.natAbs ≤ 10000 := hyears
      rw [hwhole hn (by omega)]
      rfl
  | month =>
    simp only [ofUnits] at h ⊢
    cases hn : wholeNumber (.decimal d) with
    | error _ =>
      rw [hn] at h
      cases h
    | ok n =>
      rw [hn] at h
      cases h
      have hyears : n.natAbs / 12 ≤ 10000 := by
        have hyears : (n.tdiv 12).natAbs ≤ 10000 := hyears
        rwa [Int.natAbs_tdiv] at hyears
      rw [hwhole hn (by omega)]
      rfl
  | _ => cases h

end Shift

/-! ## Sums of dates -/

section

variable {t : DateTime} {unit : DateUnit} {m n v w : Value} {field : String}

/-- A sum is the point of time after a shift. -/
theorem addUnits_eq_ok : addUnits (.instant t) unit n = .ok v ↔
    ∃ s u, Shift.ofUnits unit n = .ok s ∧ s.apply t = .ok u ∧ v = .instant u := by
  rw [addUnits]
  cases Shift.ofUnits unit n with
  | error _ =>
    constructor
    · intro h
      cases h
    · rintro ⟨s, u, hs, _⟩
      cases hs
  | ok s =>
    show (s.apply t).map Value.instant = .ok v ↔ _
    generalize hmoved : s.apply t = moved
    constructor
    · intro h
      cases moved with
      | error _ => cases h
      | ok u => exact ⟨s, u, rfl, hmoved, (Except.ok.inj h).symm⟩
    · rintro ⟨s', u, hs, hu, rfl⟩
      rw [← Except.ok.inj hs, hmoved] at hu
      rw [hu]
      rfl

/-- Numbers that agree are added alike to a point of time of the calendar. -/
theorem addUnits_congr (ht : t.isValid = true) (hmn : m.Agrees n)
    (h : addUnits (.instant t) unit m = .ok v) : addUnits (.instant t) unit n = .ok v := by
  cases hmn with
  | refl => exact h
  | decimal hd he =>
    obtain ⟨s, u, hs, hu, rfl⟩ := addUnits_eq_ok.mp h
    exact addUnits_eq_ok.mpr ⟨s, u, Shift.ofUnits_congr hd he hs (Shift.years_le_of_apply ht hu), hu, rfl⟩

/-- A sum with a point of time is one, with the same offset. -/
theorem isValid_of_addUnits (h : addUnits (.instant t) unit n = .ok v) :
    ∃ u, v = .instant u ∧ u.isValid = true ∧ u.offset = t.offset := by
  obtain ⟨s, u, _, hu, rfl⟩ := addUnits_eq_ok.mp h
  refine ⟨u, rfl, ?_⟩
  unfold Shift.apply at hu
  cases hdate : Shift.moveDate t.date s.years s.months with
  | error _ =>
    rw [hdate] at hu
    cases hu
  | ok date =>
    rw [hdate] at hu
    cases hduration : s.duration with
    | error _ =>
      rw [hduration] at hu
      cases hu
    | ok micros =>
      rw [hduration] at hu
      simp only [bind, Except.bind] at hu
      split at hu
      · next later hlater =>
        obtain rfl := Except.ok.inj hu
        exact DateTime.isValid_of_ofMicros? hlater
      · cases hu

/-- A coercion in an update has the result of the coercion. -/
theorem coerceFor_eq_ok {type : Option AttributeType} :
    coerceFor field type v = .ok w ↔ coerce type v = .ok w := by
  unfold coerceFor
  split
  · next h =>
    rw [h]
    exact ⟨nofun, nofun⟩
  · exact Iff.rfl

/-- A sum of dates is null, or a sum with a point of time of the calendar. -/
theorem sumDate_eq_ok (hm : m.IsOfCalendar) (h : sumDate field m n unit = .ok v) :
    ((m.isNull || n.isNull) = true ∧ v = .null) ∨ ((m.isNull || n.isNull) = false ∧
      ∃ t, coerceFor field (some .datetime) m = .ok (.instant t) ∧ t.isValid = true ∧ t.offset = none ∧
        addUnits (.instant t) unit n = .ok v) := by
  unfold sumDate at h
  split_ifs at h with hnull
  · exact .inl ⟨hnull, (Except.ok.inj h).symm⟩
  · refine .inr ⟨Bool.eq_false_iff.mpr hnull, ?_⟩
    obtain ⟨start, hstart, h⟩ := Outcome.bind_eq_ok.mp h
    split at h
    · next w hsum =>
      obtain rfl := Except.ok.inj h
      cases start with
      | instant t =>
        obtain ⟨hvalid, hnaive⟩ := isValid_of_coerceInstant hm (coerceFor_eq_ok.mp hstart)
        exact ⟨t, hstart, hvalid, hnaive, hsum⟩
      | _ =>
        exfalso
        unfold addUnits at hsum
        cases hshift : Shift.ofUnits unit n <;> rw [hshift] at hsum <;> cases hsum
    · cases h
    · cases h

/-- A sum of dates depends on what its parts agree with. -/
theorem sumDate_congr {m' n' : Value} (hm : m.IsOfCalendar) (hmm : m.Agrees m') (hnn : n.Agrees n')
    (h : sumDate field m n unit = .ok v) : sumDate field m' n' unit = .ok v := by
  rcases sumDate_eq_ok hm h with ⟨hnull, rfl⟩ | ⟨hnull, t, hstart, hvalid, _, hsum⟩
  · rw [hmm.isNull_eq, hnn.isNull_eq] at hnull
    rw [sumDate, if_pos hnull]
  · rw [hmm.isNull_eq, hnn.isNull_eq] at hnull
    have hstart' : coerceFor field (some .datetime) m' = .ok (.instant t) := by
      cases hmm with
      | refl => exact hstart
      | decimal => cases hstart
    rw [sumDate, if_neg (Bool.eq_false_iff.mp hnull), hstart', Outcome.ok_bind,
      addUnits_congr hvalid hnn hsum]
    rfl

end

/-! ## New values -/

/-- Whether a new value of an attribute is plain: null, a value of its type that comes back from
members, or for a temporal attribute a sum of dates, which names no time outside the calendar. -/
def AttributeType.Gains (type : AttributeType) (v : Value) : Prop :=
  type.Retains v ∨ type.isTemporal = true ∧ ∃ body, directive? v = some body ∧
    ∀ field d, Directive.read field body = .ok d → d.date.IsOfCalendar

/-- Whether an update sets attributes to plain new values. -/
def SetsPlainly (types : Entries AttributeType) (spec : Entries Value) : Prop :=
  ∀ e ∈ spec, ∃ type, Entries.get? types e.1 = some type ∧ type.Gains e.2

section

variable {types : Entries AttributeType} {type : AttributeType} {x y : Record} {field : String}
  {v w : Value}

/-- Values of the plain types are of the calendar. -/
theorem AttributeType.Spans.isOfCalendar (h : type.Spans v) : v.IsOfCalendar := by
  rcases h with rfl | h
  · trivial
  · cases h <;> trivial

/-- The new value by a directive is a sum of dates. -/
theorem newValue_eq_sumDate {body date number : Value} {d : Directive}
    (hbody : directive? v = some body) (hread : Directive.read field body = .ok d)
    (hdate : resolveReference x field d.date = .ok date)
    (hnumber : resolveReference x field d.number = .ok number) :
    newValue x field v = sumDate field date number d.unit := by
  unfold newValue
  simp only [hbody, hread, ofUpdate, Outcome.ok_bind, hdate, hnumber]

/-- What is retained is no directive. -/
theorem AttributeType.Spans.directive? (h : type.Spans v) : directive? v = none := by
  rcases h with rfl | h
  · rfl
  · cases h <;> rfl

/-- Coercion leaves plain values of the type alone. -/
theorem AttributeType.Spans.coerce (h : type.Spans v) : coerce (some type) v = .ok v := by
  rcases h with rfl | h
  · cases type <;> rfl
  · cases h with
    | datetime _ hnaive =>
      rw [TwinStore.coerce, coerceInstant, universal_of_naive hnaive]
      rfl
    | _ => rfl

/-- A reference reads fields that agree of records that agree. -/
theorem resolveReference_congr (hxy : x.Agrees y) (h : resolveReference x field v = .ok w) :
    ∃ w', resolveReference y field v = .ok w' ∧ w.Agrees w' := by
  unfold resolveReference at h ⊢
  split at h
  · next name =>
    split at h
    · next value hvalue =>
      obtain rfl := Except.ok.inj h
      have hkey := hxy.keys.mem_iff.mp (Entries.mem_keys_of_mem (Entries.mem_of_get? hvalue))
      obtain ⟨value', hvalue'⟩ := Entries.exists_get? hkey
      have hfield := hxy.fields name
      rw [Record.field, Record.field, hvalue, hvalue'] at hfield
      exact ⟨value', by simp only [hvalue'], hfield⟩
    · cases h
  · exact ⟨w, h, .refl w⟩

/-- A reference reads a value of the calendar of a record whose fields are of the calendar. -/
theorem isOfCalendar_of_resolveReference (hx : ∀ e ∈ x, e.2.IsOfCalendar) (hv : v.IsOfCalendar)
    (h : resolveReference x field v = .ok w) : w.IsOfCalendar := by
  unfold resolveReference at h
  split at h
  · split at h
    · next value hvalue =>
      obtain rfl := Except.ok.inj h
      exact hx _ (Entries.mem_of_get? hvalue)
    · cases h
  · obtain rfl := Except.ok.inj h
    exact hv

/-- A reading of part of an update that succeeds is the part. -/
theorem ofUpdate_eq_ok {α : Type} {x : Except UpdateError α} {a : α} (h : ofUpdate x = .ok a) :
    x = .ok a := by
  cases x with
  | ok b => rw [show b = a from Except.ok.inj h]
  | error e => cases h

/-- A sum of dates of the calendar is null or a naive point of time. -/
theorem newValue_of_sum {body : Value} (hx : ∀ e ∈ x, e.2.IsOfCalendar)
    (hbody : directive? v = some body)
    (hcalendar : ∀ field d, Directive.read field body = .ok d → d.date.IsOfCalendar)
    (h : newValue x field v = .ok w) :
    w = .null ∨ ∃ t, w = .instant t ∧ t.isValid = true ∧ t.offset = none := by
  unfold newValue at h
  simp only [hbody] at h
  obtain ⟨d, hd, h⟩ := Outcome.bind_eq_ok.mp h
  obtain ⟨date, hdate, h⟩ := Outcome.bind_eq_ok.mp h
  obtain ⟨number, _, h⟩ := Outcome.bind_eq_ok.mp h
  have hof := isOfCalendar_of_resolveReference hx (hcalendar field d (ofUpdate_eq_ok hd)) hdate
  rcases sumDate_eq_ok hof h with ⟨_, hnull⟩ | ⟨_, t, _, _, hnaive, hsum⟩
  · exact .inl hnull
  · obtain ⟨later, hw, hvalid, hoffset⟩ := isValid_of_addUnits hsum
    exact .inr ⟨later, hw, hvalid, hoffset.trans hnaive⟩

/-- What a temporal attribute makes of null or of a naive point of time is retained. -/
theorem retains_of_instant (htype : type.isTemporal = true)
    (hw : w = .null ∨ ∃ t, w = .instant t ∧ t.isValid = true ∧ t.offset = none)
    (h : coerce (some type) w = .ok v) : type.Retains v := by
  rcases hw with rfl | ⟨t, rfl, hvalid, hnaive⟩
  · have hnull : coerce (some type) .null = .ok .null := by cases type <;> rfl
    rw [hnull] at h
    exact .inl (Except.ok.inj h).symm
  · cases type with
    | datetime =>
      rw [AttributeType.Spans.coerce (.inr (.datetime hvalid hnaive))] at h
      rw [← Except.ok.inj h]
      refine .inr ⟨.datetime hvalid hnaive, .datetime hvalid fun offset hoffset => ?_⟩
      rw [hnaive] at hoffset
      cases hoffset
    | date =>
      rw [coerce, coerceDate, coerceInstant, universal_of_naive hnaive] at h
      rw [← Except.ok.inj h]
      have hdate : t.date.isValid = true := (DateTime.isValid_iff.mp hvalid).1
      exact .inr ⟨.date hdate, .date hdate⟩
    | _ => cases htype

/-- Plain records that agree have the same new values, and what their attributes make of those is
retained. -/
theorem newValue_congr (hx : Cache.IsPlain types x) (hxy : x.Agrees y) (hv : type.Gains v)
    (h : newValue x field v = .ok w) : newValue y field v = .ok w ∧
      ∀ u, coerceFor field (some type) w = .ok u → type.Retains u := by
  rcases hv with hretains | ⟨htype, body, hbody, hcalendar⟩
  · unfold newValue at h ⊢
    simp only [hretains.spans.directive?] at h ⊢
    obtain rfl := Except.ok.inj h
    refine ⟨rfl, fun u hu => ?_⟩
    rw [coerceFor_eq_ok, hretains.spans.coerce] at hu
    rwa [← Except.ok.inj hu]
  · have hfields : ∀ e ∈ x, e.2.IsOfCalendar := fun e he => by
      obtain ⟨type, _, hretains⟩ := hx.retains e he
      exact hretains.spans.isOfCalendar
    refine ⟨?_, fun u hu => retains_of_instant htype
      (newValue_of_sum hfields hbody hcalendar h) (coerceFor_eq_ok.mp hu)⟩
    unfold newValue at h ⊢
    simp only [hbody] at h ⊢
    obtain ⟨d, hd, h⟩ := Outcome.bind_eq_ok.mp h
    obtain ⟨date, hdate, h⟩ := Outcome.bind_eq_ok.mp h
    obtain ⟨number, hnumber, h⟩ := Outcome.bind_eq_ok.mp h
    obtain ⟨date', hdate', hdates⟩ := resolveReference_congr hxy hdate
    obtain ⟨number', hnumber', hnumbers⟩ := resolveReference_congr hxy hnumber
    have hof := isOfCalendar_of_resolveReference hfields
      (hcalendar field d (ofUpdate_eq_ok hd)) hdate
    rw [hd, Outcome.ok_bind, hdate', Outcome.ok_bind, hnumber', Outcome.ok_bind]
    exact sumDate_congr hof hdates hnumbers h

/-! ## Updates -/

/-- An update of plain records that agree makes such records. -/
theorem Cache.IsPlain.revise {spec : Entries Value} {x' : Record} (hspec : SetsPlainly types spec)
    (hx : IsPlain types x) (hxy : x.Agrees y) (h : revise spec x types = .ok x') :
    IsPlain types x' ∧ ∃ y', TwinStore.revise spec y types = .ok y' ∧ x'.Agrees y' := by
  rw [revise_eq_foldlM] at h ⊢
  suffices hfold : ∀ {before before' : Record}, IsPlain types before → before.Agrees before' →
      spec.foldlM (fun before e => (revised types x e.1 e.2).map (Entries.set before e.1)) before =
        .ok x' →
      IsPlain types x' ∧ ∃ y', spec.foldlM (fun before e =>
        (revised types y e.1 e.2).map (Entries.set before e.1)) before' = .ok y' ∧ x'.Agrees y' from
    hfold hx hxy h
  clear h
  induction spec with
  | nil =>
    intro before before' hbefore hagrees h
    obtain rfl := Except.ok.inj h
    exact ⟨hbefore, before', rfl, hagrees⟩
  | cons e spec ih =>
    intro before before' hbefore hagrees h
    obtain ⟨type, htype, hgains⟩ := hspec e List.mem_cons_self
    rw [List.foldlM_cons] at h ⊢
    obtain ⟨after, hafter, h⟩ := Outcome.bind_eq_ok.mp h
    obtain ⟨u, hu, rfl⟩ := Outcome.map_eq_ok.mp hafter
    obtain ⟨w, hw, hu⟩ := revised_eq_ok.mp hu
    obtain ⟨hw', hretains⟩ := newValue_congr hx hxy hgains hw
    rw [revised_eq_ok.mpr ⟨w, hw', hu⟩]
    rw [htype] at hu
    exact ih (fun e he => hspec e (List.mem_cons_of_mem _ he))
      (hbefore.set htype (hretains u hu)) (hagrees.set e.1 (.refl u)) h

end

end TwinStore
