import TwinStore.Cache.Change
import TwinStore.Proofs.QuietFilters
import TwinStore.Proofs.ReadDocuments
import TwinStore.Proofs.Typing

/-!
# Members that raise no alarm

A search skips members that it cannot read, and compares the fields of those that it can.  Members
that are read with naive points of time never make it fail, and they stay so: what is read from them
can be written again, with new values of the types of the fields in it.

Main definitions:

- `Cache.IsTame`: members that are read with naive points of time, or skipped.
- `Cache.Suits`: the values that a field of a type holds when it is read.
- `Cache.IsHeld`: such values, if they can be written and compared.
- `AttributeType.Takes`: the new values of a type that are held.

Main results:

- Theorem `isHeld_of_decode`: what is read from a tame member is held.
- Theorem `areTestable_of_isHeld`: held fields can be compared.
- Theorem `isTame_of_encode`: the member of suitable fields is tame.
- Theorem `exists_revise`: held fields with new values are held.
-/

namespace TwinStore

open Number Calendar Filter

/-! ## Coercion -/

/-- What a quiet value is coerced to is quiet, decimal numbers apart. -/
theorem isQuiet_of_coerce {type : AttributeType} {v w : Value} (htype : type ≠ .decimal)
    (hv : v.IsQuiet) (h : coerce (some type) v = .ok w) : w.IsQuiet := by
  have hinstant {v w : Value} (hv : v.IsQuiet) (h : coerceInstant v = .ok w) : w.IsQuiet := by
    rcases coerceInstant_cases h with rfl | ⟨⟨t, rfl⟩, _⟩
    · exact hv
    · trivial
  cases type with
  | decimal => exact absurd rfl htype
  | datetime => exact hinstant hv h
  | date =>
    obtain ⟨u, hu, rfl⟩ := Outcome.map_eq_ok.mp ((coerceDate_eq v).symm.trans h)
    have hquiet := hinstant hv hu
    cases u with
    | instant t => trivial
    | _ => exact hquiet
  | uuid =>
    simp only [coerce, coerceUuid] at h
    split at h
    · split at h
      · exact Except.ok.inj h ▸ trivial
      · cases h
    · exact Except.ok.inj h ▸ hv
  | _ => exact Except.ok.inj h ▸ hv

/-- Counts of microseconds are quiet. -/
theorem isQuiet_of_epochMicros {v w : Value} (h : epochMicros v = .ok w) : w.IsQuiet := by
  unfold epochMicros at h
  split at h
  · exact Except.ok.inj h ▸ trivial
  · cases h
  · exact Except.ok.inj h ▸ trivial
  · simp only at h
    split at h
    · exact Except.ok.inj h ▸ trivial
    · split_ifs at h
  · obtain ⟨_, _, h⟩ := Outcome.bind_eq_ok.mp h
    obtain ⟨_, _, h⟩ := Outcome.bind_eq_ok.mp h
    exact Except.ok.inj h ▸ trivial
  · obtain ⟨_, _, h⟩ := Outcome.bind_eq_ok.mp h
    exact Except.ok.inj h ▸ trivial
  · exact Except.ok.inj h ▸ trivial
  · cases h

/-- A quiet value compares as a quiet value, decimal numbers apart. -/
theorem isQuiet_of_comparable {type : AttributeType} {v w : Value} (htype : type ≠ .decimal)
    (hv : v.IsQuiet) (h : comparable (some type) v = .ok w) : w.IsQuiet := by
  obtain ⟨u, hu, h⟩ := Outcome.bind_eq_ok.mp h
  split_ifs at h
  · exact isQuiet_of_epochMicros h
  · exact Except.ok.inj h ▸ isQuiet_of_coerce htype hv hu

namespace Value

mutual

/-- What is a document by itself is quiet. -/
theorem IsDocument.isQuiet : ∀ {v : Value}, v.IsDocument → v.IsQuiet
  | .null, _ | .bool _, _ | .int _, _ | .float _, _ | .text _, _ => trivial
  | .list _, h => AreDocuments.areQuiet h
  | .map _, h => HoldDocuments.holdQuiet h.2

theorem AreDocuments.areQuiet : ∀ {vs : List Value}, AreDocuments vs → AreQuiet vs
  | [], _ => trivial
  | _ :: _, h => ⟨IsDocument.isQuiet h.1, AreDocuments.areQuiet h.2⟩

theorem HoldDocuments.holdQuiet : ∀ {es : Entries Value}, HoldDocuments es → HoldQuiet es
  | [], _ => trivial
  | _ :: _, h => ⟨IsDocument.isQuiet h.1, HoldDocuments.holdQuiet h.2⟩

end

end Value

namespace Cache

variable {types : Entries AttributeType} {type : Option AttributeType} {v w : Value}
  {raw : String} {record : Record}

/-! ## Fields -/

/-- The values that a field of a type holds when it is read with a naive point of time. -/
def Suits (type : Option AttributeType) (v : Value) : Prop :=
  match type with
  | some .datetime => v = .null ∨ ∃ t, v = .instant t ∧ t.isValid = true ∧ t.offset = none
  | some .date => v = .null ∨ ∃ d, v = .date d
  | some .uuid => v = .null ∨ ∃ u, v = .uuid u
  | some .decimal => False
  | _ => True

/-- Whether a field of a type holds a value that can be written and compared. -/
structure IsHeld (type : Option AttributeType) (v : Value) : Prop where
  suits : Suits type v
  hasDocument : HasDocument v
  isQuiet : v.IsQuiet

/-- Whether a member is read with naive points of time, or skipped. -/
def IsTame (types : Entries AttributeType) (raw : String) : Prop :=
  Either (fun record : Record => ∀ e ∈ record, ∀ t, e.2 = .instant t → t.offset = none)
    (fun fault => isUndecodable fault = true) (decode raw types)

/-- A held value can be compared. -/
theorem IsHeld.isTestable {type : AttributeType} (h : IsHeld (some type) v) : IsTestable type v := by
  have hsuits := h.suits
  unfold IsTestable
  cases type with
  | datetime =>
    rcases hsuits with rfl | ⟨t, rfl, _, hnaive⟩
    · trivial
    · simp only [comparable, coerce, coerceInstant, universal_of_naive hnaive, Outcome.ok_bind]
      show Either Value.IsQuiet IsMistake (epochMicros (.instant t))
      simp only [epochMicros, universal_of_naive hnaive]
      trivial
  | date =>
    rcases hsuits with rfl | ⟨d, rfl⟩ <;> trivial
  | uuid =>
    rcases hsuits with rfl | ⟨u, rfl⟩ <;> trivial
  | decimal => exact hsuits.elim
  | _ => exact h.isQuiet

/-- Points of time that are read are valid. -/
theorem isValid_of_dateTime? {s : String} {t : DateTime} (h : StoredReader.dateTime? s = some t) :
    t.isValid = true := by
  unfold StoredReader.dateTime? at h
  simp only at h
  split_ifs at h
  simp only [Option.bind_eq_bind, Option.bind_eq_some_iff] at h
  obtain ⟨_, _, ⟨year, month, day⟩, _, h⟩ := h
  split at h
  all_goals
    obtain ⟨⟨clock, offset⟩, _, h⟩ := Option.bind_eq_some_iff.mp h
    exact DateTime.isValid_of_ofParts? h

theorem suits_null (htype : type ≠ some .decimal) : Suits type .null := by
  rcases type with _ | type
  · trivial
  · cases type with
    | decimal => exact htype rfl
    | datetime | date | uuid => exact .inl rfl
    | _ => trivial

/-- A value that is read is held, if it is no point of time with an offset. -/
theorem isHeld_of_restore (htype : type ≠ some .decimal) (hv : v.IsDocument)
    (h : restore type v = .ok w) (hnaive : ∀ t, w = .instant t → t.offset = none) :
    IsHeld type w := by
  cases restores_of_restore h with
  | null => exact ⟨suits_null htype, ⟨_, rfl⟩, trivial⟩
  | @instant s t hread =>
    exact ⟨.inr ⟨t, rfl, isValid_of_dateTime? hread, hnaive t rfl⟩, ⟨_, rfl⟩, trivial⟩
  | @date s d hread => exact ⟨.inr ⟨d, rfl⟩, ⟨_, rfl⟩, trivial⟩
  | @uuid s u hread => exact ⟨.inr ⟨u, rfl⟩, ⟨_, rfl⟩, trivial⟩
  | decimal => exact absurd rfl htype
  | undeclared => exact ⟨trivial, hasDocument_of_isDocument hv, hv.isQuiet⟩
  | @unparsed type hparsed =>
    refine ⟨?_, hasDocument_of_isDocument hv, hv.isQuiet⟩
    cases type with
    | datetime | date | uuid | decimal => cases hparsed
    | _ => trivial

/-- What is read from a tame member is held. -/
theorem isHeld_of_decode (htypes : ∀ e ∈ types, e.2 ≠ .decimal) (htame : IsTame types raw)
    (h : decode raw types = .ok record) : ∀ e ∈ record, IsHeld (Entries.get? types e.1) e.2 := by
  intro e he
  rw [IsTame, h] at htame
  obtain ⟨v, hv, hrestore⟩ := exists_restored h e he
  refine isHeld_of_restore (fun hdecimal => ?_) hv hrestore (htame e he)
  exact htypes _ (Entries.mem_of_get? hdecimal) rfl

/-- Held fields can be compared. -/
theorem areTestable_of_isHeld (h : ∀ e ∈ record, IsHeld (Entries.get? types e.1) e.2) :
    AreTestable types record := by
  intro field type hfield
  rw [Record.field]
  cases hget : Entries.get? record field with
  | none =>
    show IsTestable type .null
    cases type <;> trivial
  | some v =>
    have hheld := h _ (Entries.mem_of_get? hget)
    simp only [hfield] at hheld
    exact hheld.isTestable

/-! ## Writing -/

/-- What is read from a member has distinct fields. -/
theorem nodup_keys_of_decode (h : decode raw types = .ok record) : (Entries.keys record).Nodup := by
  obtain ⟨j, hj, h⟩ := Outcome.bind_eq_ok.mp h
  have hdocument := Json.isDocument_of_read hj
  split at h
  · next ms =>
    rw [Json.toValue, Json.toEntries_eq_map] at hdocument
    have hkeys : record.map (·.1) = ms.map (·.1) := Outcome.map_eq_of_mapM h fun m e hm => by
      obtain ⟨w, _, heq⟩ := Outcome.bind_eq_ok.mp hm
      obtain rfl := Except.ok.inj heq
      rfl
    rw [Entries.keys, hkeys]
    have hnodup := hdocument.1
    rwa [Entries.keys, List.map_map] at hnodup
  · cases h

theorem either_meaning {α : Type} (wrap : α → Value) (hwrap : ∀ a t, wrap a ≠ .instant t)
    (read : Option α) : Either (fun w : Value => ∀ t, w = .instant t → t.offset = none)
      (fun fault => isUndecodable fault = true) (meaning wrap read) := by
  cases read with
  | none => rfl
  | some a => exact fun t ht => absurd ht (hwrap a t)

/-- What is written of a suitable value is read as a naive point of time, as something else, or
skipped. -/
theorem restore_document (hv : Suits type v) {j : Json} (hj : document v = .ok j) :
    Either (fun w : Value => ∀ t, w = .instant t → t.offset = none)
      (fun fault => isUndecodable fault = true) (restore type j.settled.toValue) := by
  have hplain (hrestore : restore type j.settled.toValue = .ok j.settled.toValue) :
      Either (fun w : Value => ∀ t, w = .instant t → t.offset = none)
        (fun fault => isUndecodable fault = true) (restore type j.settled.toValue) := by
    rw [hrestore]
    intro t ht
    cases hsettled : j.settled <;> rw [hsettled] at ht <;> cases ht
  rcases type with _ | type
  · exact hplain (by cases j.settled.toValue <;> rfl)
  · cases type with
    | decimal => exact hv.elim
    | datetime =>
      rcases hv with rfl | ⟨t, rfl, hvalid, hnaive⟩ <;> obtain rfl := Except.ok.inj hj
      · exact hplain rfl
      · show Either _ _ (meaning .instant (StoredReader.dateTime? t.text))
        rw [StoredReader.dateTime?_text hvalid hnaive]
        rintro _ ⟨rfl⟩
        exact hnaive
    | date =>
      cases j.settled.toValue with
      | null => nofun
      | text s => exact either_meaning _ nofun _
      | _ => rfl
    | uuid =>
      rcases hv with rfl | ⟨u, rfl⟩ <;> obtain rfl := Except.ok.inj hj
      · exact hplain rfl
      · show Either _ _ (meaning .uuid (Uuid.parse? u.text))
        generalize Uuid.parse? u.text = read
        exact either_meaning _ nofun read
    | _ => exact hplain (by cases j.settled.toValue <;> rfl)

/-- The member of suitable fields is tame. -/
theorem isTame_of_encode (hkeys : (Entries.keys record).Nodup)
    (hfields : ∀ e ∈ record, Suits (Entries.get? types e.1) e.2) (h : encode record = .ok raw) :
    IsTame types raw := by
  obtain ⟨ms, hms, rfl, hshort⟩ := exists_document h
  rw [ofEntries_sortedEntries] at hms
  have hnames : (Entries.keys ms).Nodup := by
    rw [keys_mapM_entryDocument hms, (Entries.keys_inOrder record).nodup_iff]
    exact hkeys
  have hmember : ∀ m ∈ ms, Either (fun w : Value => ∀ t, w = .instant t → t.offset = none)
      (fun fault => isUndecodable fault = true)
      (restore (Entries.get? types m.1) m.2.settled.toValue) := by
    intro m hm
    obtain ⟨e, he, hdocument⟩ := Outcome.exists_of_mem_mapM hms hm
    obtain ⟨j, hj, rfl⟩ := Outcome.map_eq_ok.mp hdocument
    exact restore_document (hfields e ((Entries.inOrder_perm record).mem_iff.mp he)) hj
  rw [IsTame, decode_eq_restored hshort hnames]
  cases hrestored : (ms.mapM fun e => do
      return (e.1, ← restore (Entries.get? types e.1) e.2.settled.toValue) : Outcome Record) with
  | ok read =>
    intro e he
    obtain ⟨m, hm, hrestore⟩ := Outcome.exists_of_mem_mapM hrestored he
    obtain ⟨w, hw, heq⟩ := Outcome.bind_eq_ok.mp hrestore
    obtain rfl := Except.ok.inj heq
    have hnaive := hmember m hm
    rwa [hw] at hnaive
  | error fault =>
    obtain ⟨m, hm, hfault⟩ := Outcome.exists_error_of_mapM hrestored
    rcases Outcome.bind_eq_error.mp hfault with hfault | ⟨w, _, hfault⟩
    · have hskipped := hmember m hm
      rwa [hfault] at hskipped
    · cases hfault

end Cache

/-! ## New values -/

/-- The new values of the types that members hold exactly: integers are not too long to be read, and
points of time have a universal time. -/
inductive AttributeType.Takes : AttributeType → Value → Prop
  | null (type : AttributeType) : Takes type .null
  | int {n : Int} (h : decimalLength n.natAbs ≤ Json.integerDigits) : Takes int (.int n)
  | str (s : String) : Takes str (.text s)
  | text (s : String) : Takes text (.text s)
  | bool (b : Bool) : Takes bool (.bool b)
  | date (d : Date) : Takes date (.date d)
  | datetime {t u : DateTime} (h : t.isValid = true) (hu : t.toUniversal? = some u) :
    Takes datetime (.instant t)
  | uuid (u : Uuid) : Takes uuid (.uuid u)

/-- Whether an update sets known fields, of which none is a decimal number, to new values of their
types. -/
def AreTaken (types : Entries AttributeType) (spec : Entries Value) : Prop :=
  ∀ e ∈ spec, ∀ type, Entries.get? types e.1 = some type → type.Takes e.2

namespace Cache

variable {types : Entries AttributeType} {type : AttributeType} {v : Value} {record : Record}

/-- A new value is set as a value that is held. -/
theorem exists_coerceFor (htype : type ≠ .decimal) (hv : type.Takes v) (field : String) :
    ∃ w, coerceFor field (some type) v = .ok w ∧ IsHeld (some type) w := by
  cases hv with
  | null =>
    refine ⟨.null, by cases type <;> rfl, suits_null fun h => htype (Option.some.inj h), ⟨_, rfl⟩, trivial⟩
  | int hn => exact ⟨_, rfl, trivial, hasDocument_of_isDocument hn, trivial⟩
  | str s => exact ⟨_, rfl, trivial, ⟨_, rfl⟩, trivial⟩
  | text s => exact ⟨_, rfl, trivial, ⟨_, rfl⟩, trivial⟩
  | bool b => exact ⟨_, rfl, trivial, ⟨_, rfl⟩, trivial⟩
  | date d => exact ⟨_, rfl, .inr ⟨d, rfl⟩, ⟨_, rfl⟩, trivial⟩
  | @datetime t u ht hu =>
    obtain ⟨hvalid, hnaive⟩ := DateTime.isValid_of_toUniversal? hu ht
    refine ⟨.instant u, ?_, .inr ⟨u, rfl, hvalid, hnaive⟩, ⟨_, rfl⟩, trivial⟩
    simp only [coerceFor, coerce, coerceInstant, universal, hu, Outcome.ok_bind]
    rfl
  | uuid u => exact ⟨_, rfl, .inr ⟨u, rfl⟩, ⟨_, rfl⟩, trivial⟩

/-- Nothing that is taken is a directive. -/
theorem directive?_of_takes (hv : type.Takes v) : directive? v = none := by
  cases hv <;> rfl

/-- Held fields with new values are held. -/
theorem exists_revise {spec : Entries Value} (htypes : ∀ e ∈ types, e.2 ≠ .decimal)
    (hspec : AreTaken types spec) (hknown : ∀ e ∈ spec, Entries.has types e.1 = true)
    (hkeys : (Entries.keys record).Nodup)
    (hrecord : ∀ e ∈ record, IsHeld (Entries.get? types e.1) e.2) :
    ∃ updated, revise spec record types = .ok updated ∧ (Entries.keys updated).Nodup ∧
      ∀ e ∈ updated, IsHeld (Entries.get? types e.1) e.2 := by
  rw [revise_eq_foldlM]
  suffices hfold : ∀ (before : Record), (Entries.keys before).Nodup →
      (∀ e ∈ before, IsHeld (Entries.get? types e.1) e.2) →
      ∃ updated, spec.foldlM (fun before e =>
          (revised types record e.1 e.2).map (Entries.set before e.1)) before = .ok updated ∧
        (Entries.keys updated).Nodup ∧
        ∀ e ∈ updated, IsHeld (Entries.get? types e.1) e.2 from hfold record hkeys hrecord
  induction spec with
  | nil => exact fun before hnodup hbefore => ⟨before, rfl, hnodup, hbefore⟩
  | cons e spec ih =>
    intro before hnodup hbefore
    obtain ⟨type, htype⟩ := Entries.exists_get? (Entries.has_iff.mp (hknown e List.mem_cons_self))
    have htakes := hspec e List.mem_cons_self type htype
    obtain ⟨w, hw, hheld⟩ := exists_coerceFor (htypes _ (Entries.mem_of_get? htype)) htakes e.1
    have hrevised : revised types record e.1 e.2 = .ok w := by
      refine revised_eq_ok.mpr ⟨e.2, ?_, htype ▸ hw⟩
      simp only [newValue, directive?_of_takes htakes]
    obtain ⟨updated, hrest, hnodup', hupdated⟩ := ih (fun e he => hspec e (List.mem_cons_of_mem _ he))
      (fun e he => hknown e (List.mem_cons_of_mem _ he)) (Entries.set before e.1 w)
      (Entries.nodup_keys_set hnodup _ _) (fun e' he' => by
        rcases Entries.mem_of_mem_set he' with rfl | he'
        · exact htype ▸ hheld
        · exact hbefore e' he')
    refine ⟨updated, ?_, hnodup', hupdated⟩
    rw [List.foldlM_cons, hrevised]
    exact hrest

variable {d : Deployment} {model raw : String}

/-- Held fields have a tame member. -/
theorem exists_memberOf (hkeys : (Entries.keys record).Nodup)
    (hrecord : ∀ e ∈ record, IsHeld (Entries.get? types e.1) e.2) (names : List String) :
    ∃ raw, memberOf names (.map record) = .ok raw ∧ IsTame types raw := by
  have hfields : ∀ e ∈ record.filter (fun e => !names.contains e.1),
      IsHeld (Entries.get? types e.1) e.2 := fun e he => hrecord e (List.mem_filter.mp he).1
  obtain ⟨raw, hraw⟩ := exists_encode fun e he => (hfields e he).hasDocument
  refine ⟨raw, hraw, isTame_of_encode ?_ (fun e he => (hfields e he).suits) hraw⟩
  exact (List.filter_sublist.map Prod.fst).nodup hkeys

/-- What is read from tame members has tame members after an update with new values of its types. -/
theorem exists_updatedMembers {spec : Entries Value} {records : List Record}
    (htypes : ∀ e ∈ d.registry.attributeTypes model, e.2 ≠ .decimal)
    (hspec : AreTaken (d.registry.attributeTypes model) spec)
    (hknown : ∀ e ∈ spec, Entries.has (d.registry.attributeTypes model) e.1 = true)
    (hrecords : ∀ record ∈ records, ∃ raw, IsTame (d.registry.attributeTypes model) raw ∧
      decode raw (d.registry.attributeTypes model) = .ok record) :
    ∃ members, updatedMembers d model (.map spec) records = .ok members ∧
      ∀ raw ∈ members, IsTame (d.registry.attributeTypes model) raw := by
  have hrevise : ∀ record ∈ records, ∃ updated,
      revise spec record (d.registry.attributeTypes model) = .ok updated ∧
        (Entries.keys updated).Nodup ∧
        ∀ e ∈ updated, IsHeld (Entries.get? (d.registry.attributeTypes model) e.1) e.2 := by
    intro record hrecord
    obtain ⟨raw, htame, hread⟩ := hrecords record hrecord
    exact exists_revise htypes hspec hknown (nodup_keys_of_decode hread)
      (isHeld_of_decode htypes htame hread)
  obtain ⟨updated, hupdated, hheld⟩ := Outcome.exists_mapM_all hrevise
  obtain ⟨members, hmembers, htame⟩ := Outcome.exists_mapM_all fun record hrecord =>
    exists_memberOf (hheld record hrecord).1 (hheld record hrecord).2 d.registry.modelNames
  refine ⟨members, ?_, htame⟩
  rw [updatedMembers]
  show Except.ok spec >>= _ = _
  rw [Outcome.ok_bind, hupdated, Outcome.ok_bind]
  exact hmembers

end Cache

end TwinStore
