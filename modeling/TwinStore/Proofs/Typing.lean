import TwinStore.Filter.Clause
import TwinStore.Primary.Cell
import TwinStore.Proofs.CalendarText
import TwinStore.Proofs.Outcome
import TwinStore.Proofs.Uuid

/-!
# Values of the attribute types

An attribute holds values of its type, or null.  Operands and new values may be written in other
forms, from which coercion makes values of the type.  Coercion leaves a value of the type alone, and
so does the form in which records compare, except that it counts the microseconds of times.

Main definitions:

- `AttributeType.isExact`: the types of which both stores hold the values exactly.
- `AttributeType.Holds`, `AttributeType.Admits`: the values of a type, without and with null.
- `AttributeType.Accepts`: the values from which coercion makes such a value.
- `Value.measure`: the form in which values of the exact types compare.

Main results:

- Theorem `coerce_of_admits`: coercion leaves the values of the type alone.
- Theorem `comparable_of_coerce`: whatever form a value was written in, it compares as the value
  that coercion makes of it.
- Theorem `accepts_dateText`, `accepts_instantText`, `accepts_uuidText`: texts of times and
  identifiers are accepted.
-/

namespace TwinStore

open Calendar Primary

/-! ## Types -/

namespace AttributeType

/-- The types of which both stores hold the values exactly. -/
def isExact : AttributeType → Bool
  | decimal | float | json => false
  | _ => true

/-- The values of the exact types: integers have 64 bits, times are naive times of the calendar,
identifiers have 128 bits. -/
inductive Holds : AttributeType → Value → Prop
  | int {n : Int} (h : fitsWord n = true) : Holds int (.int n)
  | str (s : String) : Holds str (.text s)
  | text (s : String) : Holds text (.text s)
  | bool (b : Bool) : Holds bool (.bool b)
  | date {d : Date} (h : d.isValid = true) : Holds date (.date d)
  | datetime {t : DateTime} (h : t.isValid = true) (hnaive : t.offset = none) :
      Holds datetime (.instant t)
  | uuid {u : Uuid} (h : u.isValid = true) : Holds uuid (.uuid u)

/-- A value that an attribute may hold: null, or a value of its type. -/
def Admits (type : AttributeType) (v : Value) : Prop := v = .null ∨ type.Holds v

/-- A value from which coercion makes one that an attribute may hold. -/
def Accepts (type : AttributeType) (v : Value) : Prop :=
  ∃ w, coerce (some type) v = .ok w ∧ type.Admits w

/-- Null belongs to every type. -/
theorem admits_null (type : AttributeType) : type.Admits .null := Or.inl rfl

/-- Only exact types have values. -/
theorem isExact_of_holds {type : AttributeType} {v : Value} (h : type.Holds v) :
    type.isExact = true := by
  cases h <;> rfl

/-- No value of a type is null. -/
theorem isNull_of_holds {type : AttributeType} {v : Value} (h : type.Holds v) :
    v.isNull = false := by
  cases h <;> rfl

end AttributeType

/-! ## Coercion -/

/-- A naive time is universal time already. -/
theorem universal_of_naive {t : DateTime} (h : t.offset = none) : universal t = .ok t := by
  simp [universal, DateTime.toUniversal?, h]

/-- Coercion leaves the values of the type alone. -/
theorem coerce_of_admits {type : AttributeType} {v : Value} (h : type.Admits v) :
    coerce (some type) v = .ok v := by
  rcases h with rfl | h
  · cases type <;> rfl
  · cases h with
    | int | str | text | bool | date | uuid => rfl
    | datetime _ hnaive =>
      rw [coerce, coerceInstant, universal_of_naive hnaive]
      rfl

/-- A value of the type is accepted. -/
theorem AttributeType.Admits.accepts {type : AttributeType} {v : Value} (h : type.Admits v) :
    type.Accepts v :=
  ⟨v, coerce_of_admits h, h⟩

/-- Coercion to a point of time makes a point of time, or leaves the value alone. -/
theorem coerceInstant_cases {v w : Value} (h : coerceInstant v = .ok w) :
    w = v ∨ (∃ t, w = .instant t) ∧ Filter.isUnordered v = false := by
  unfold coerceInstant at h
  split at h
  · obtain ⟨_, _, h⟩ := Outcome.bind_eq_ok.mp h
    obtain ⟨t, _, h⟩ := Outcome.bind_eq_ok.mp h
    exact Or.inr ⟨⟨t, (Except.ok.inj h).symm⟩, rfl⟩
  · obtain ⟨t, _, h⟩ := Outcome.bind_eq_ok.mp h
    exact Or.inr ⟨⟨t, (Except.ok.inj h).symm⟩, rfl⟩
  · obtain ⟨_, _, h⟩ := Outcome.bind_eq_ok.mp h
    obtain ⟨t, _, h⟩ := Outcome.bind_eq_ok.mp h
    exact Or.inr ⟨⟨t, (Except.ok.inj h).symm⟩, rfl⟩
  · obtain ⟨t, _, h⟩ := Outcome.bind_eq_ok.mp h
    exact Or.inr ⟨⟨t, (Except.ok.inj h).symm⟩, rfl⟩
  · exact Or.inr ⟨⟨_, (Except.ok.inj h).symm⟩, rfl⟩
  · exact Or.inl (Except.ok.inj h).symm

/-- The date of a point of time, and any other value as it is. -/
def Value.dated : Value → Value
  | .instant t => .date t.date
  | v => v

/-- Coercion to a date is coercion to a point of time, of which the date is taken. -/
theorem coerceDate_eq (v : Value) : coerceDate v = (coerceInstant v).map Value.dated := by
  cases v with
  | int | float | text | instant =>
    simp only [coerceDate]
    generalize coerceInstant _ = x
    cases x with
    | error fault => rfl
    | ok u => cases u <;> rfl
  | _ => rfl

/-- Coercion to an exact type leaves null and truth values alone and makes neither of them. -/
theorem coerce_cases {type : AttributeType} {v w : Value} (hexact : type.isExact = true)
    (h : coerce (some type) v = .ok w) :
    w = v ∨ Filter.isUnordered w = false ∧ Filter.isUnordered v = false := by
  cases type with
  | int | str | text | bool => exact Or.inl (Except.ok.inj h).symm
  | decimal | float | json => cases hexact
  | datetime =>
    rcases coerceInstant_cases h with rfl | ⟨⟨t, rfl⟩, hv⟩
    · exact Or.inl rfl
    · exact Or.inr ⟨rfl, hv⟩
  | date =>
    obtain ⟨u, hu, rfl⟩ := Outcome.map_eq_ok.mp ((coerceDate_eq v).symm.trans h)
    rcases coerceInstant_cases hu with rfl | ⟨⟨t, rfl⟩, hv⟩
    · cases u with
      | instant t => exact Or.inr ⟨rfl, rfl⟩
      | _ => exact Or.inl rfl
    · exact Or.inr ⟨rfl, hv⟩
  | uuid =>
    simp only [coerce, coerceUuid] at h
    split at h
    · split at h
      · rw [← Except.ok.inj h]
        exact Or.inr ⟨rfl, rfl⟩
      · cases h
    · exact Or.inl (Except.ok.inj h).symm

/-- What has an order has one after coercion, and the other way round. -/
theorem isUnordered_of_coerce {type : AttributeType} {v w : Value} (hexact : type.isExact = true)
    (h : coerce (some type) v = .ok w) : Filter.isUnordered w = Filter.isUnordered v := by
  rcases coerce_cases hexact h with rfl | ⟨hw, hv⟩
  · rfl
  · rw [hw, hv]

/-! ## The form in which values compare -/

/-- The form in which values of the exact types compare: times are counts of microseconds. -/
def Value.measure : Value → Value
  | .date d => .int (DateTime.ofDate d).epochMicros
  | .instant t => .int t.epochMicros
  | v => v

@[simp]
theorem Value.isNull_measure (v : Value) : v.measure.isNull = v.isNull := by
  cases v <;> rfl

/-- Whatever form a value was written in, it compares as the value that coercion makes of it. -/
theorem comparable_of_coerce {type : AttributeType} {v w : Value}
    (h : coerce (some type) v = .ok w) (hw : type.Admits w) :
    comparable (some type) v = .ok w.measure := by
  rw [comparable, h, Outcome.ok_bind]
  rcases hw with rfl | hw
  · cases type <;> rfl
  · cases hw with
    | int | str | text | bool | uuid | date => rfl
    | datetime _ hnaive =>
      simp only [Option.any_some, AttributeType.isTemporal, if_true, epochMicros,
        universal_of_naive hnaive]
      rfl

/-- A value of the type compares as itself. -/
theorem comparable_of_admits {type : AttributeType} {v : Value} (h : type.Admits v) :
    comparable (some type) v = .ok v.measure :=
  comparable_of_coerce (coerce_of_admits h) h

/-! ## Texts -/

/-- The text of a day is accepted for a date. -/
theorem accepts_dateText {d : Date} (hd : d.isValid = true) :
    AttributeType.date.Accepts (.text d.text) := by
  refine ⟨.date d, ?_, Or.inr (.date hd)⟩
  simp only [coerce, coerceDate, coerceInstant, instantOfText, IsoReader.parse?_dateText hd,
    universal_of_naive (show (DateTime.ofDate d).offset = none from rfl), Outcome.ok_bind]
  rfl

/-- The text of a naive point of time is accepted for a point of time. -/
theorem accepts_instantText {t : DateTime} (ht : t.isValid = true) (hnaive : t.offset = none) :
    AttributeType.datetime.Accepts (.text t.text) := by
  refine ⟨.instant t, ?_, Or.inr (.datetime ht hnaive)⟩
  simp only [coerce, coerceInstant, instantOfText, IsoReader.parse?_text ht hnaive,
    universal_of_naive hnaive, Outcome.ok_bind]
  rfl

/-- A point of time with an offset is accepted if its instant lies within the calendar. -/
theorem accepts_aware {t u : DateTime} (ht : t.isValid = true) (hu : t.toUniversal? = some u) :
    AttributeType.datetime.Accepts (.instant t) := by
  obtain ⟨hvalid, hnaive⟩ := DateTime.isValid_of_toUniversal? hu ht
  refine ⟨.instant u, ?_, Or.inr (.datetime hvalid hnaive)⟩
  simp only [coerce, coerceInstant, universal, hu, Outcome.ok_bind]
  rfl

/-- A text that reads as an identifier is accepted for one. -/
theorem accepts_uuidText {s : String} {u : Uuid} (hs : Uuid.parse? s = some u) :
    AttributeType.uuid.Accepts (.text s) := by
  refine ⟨.uuid u, ?_, Or.inr (.uuid (Uuid.isValid_of_parse? hs))⟩
  simp only [coerce, coerceUuid, hs]

end TwinStore
