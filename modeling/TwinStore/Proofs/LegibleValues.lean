import TwinStore.Proofs.DecimalTexts
import TwinStore.Proofs.OffsetText
import TwinStore.Proofs.SameUpdates

/-!
# Values that can be read back

The reader of a member expects of every field what its type makes: texts of times and identifiers, and
the texts of decimal numbers.  What is written of a value of another kind cannot be read.  New values of
an update are coerced before they are written, which makes readable values of numbers and texts, but
passes on truth values, lists, maps and values of unrelated kinds.

Main definitions:

- `AttributeType.CanRead`: the values whose documents a type can read.
- `AttributeType.Converts`: the new values of which coercion makes such values.
- `Cache.IsReadable`: the records of such values.

Main results:

- Theorem `exists_restore`: what is written of a readable value is read back.
- Theorem `canRead_of_restore`: what was read can be written and read again.
- Theorem `canRead_of_coerceFor`: what coercion makes of a new value is readable.
- Theorem `IsReadable.exists_decode`, `IsReadable.revise`: readable records have members that are read
  back, and stay readable when they are updated.
-/

namespace TwinStore

open Number Calendar

/-! ## Readable values -/

/-- The values whose documents a type can read: null, values of the kinds that it makes, and texts that
it takes for them; anything, if it makes nothing of them. -/
inductive AttributeType.CanRead : AttributeType → Value → Prop
  | null (type : AttributeType) : CanRead type .null
  | instant {t : DateTime} (h : t.isValid = true) (hoffset : t.HasShortOffset) :
    CanRead datetime (.instant t)
  | midnight {d : Date} (h : d.isValid = true) : CanRead datetime (.date d)
  | instantText {s : String} {t : DateTime} (h : StoredReader.dateTime? s = some t) :
    CanRead datetime (.text s)
  | date {d : Date} (h : d.isValid = true) : CanRead date (.date d)
  | dateText {s : String} {d : Date} (h : StoredReader.date? s = some d) : CanRead date (.text s)
  | uuid {u : Uuid} (h : u.isValid = true) : CanRead uuid (.uuid u)
  | uuidText {s : String} {u : Uuid} (h : Uuid.parse? s = some u) : CanRead uuid (.text s)
  | int (n : Int) : CanRead decimal (.int n)
  | float (x : Float) : CanRead decimal (.float x)
  | decimal (d : Decimal) : CanRead decimal (.decimal d)
  | decimalText {s : String} {d : Decimal} (h : Decimal.parse? s = some d) : CanRead decimal (.text s)
  | unparsed {type : AttributeType} {v : Value} (h : type.isParsed = false) : CanRead type v

/-- Whether a value names a point of time: a number, a text, or a time. -/
def Value.namesTime : Value → Bool
  | int _ | float _ | text _ | instant _ | date _ => true
  | _ => false

/-- Whether a value names a decimal number: a number, or a text. -/
def Value.namesNumber : Value → Bool
  | int _ | float _ | decimal _ | text _ => true
  | _ => false

/-- The new values of which coercion to a type makes readable values: null, and what names times of the
calendar or sums of those for temporal types, numbers for decimal ones, and identifiers for those. -/
inductive AttributeType.Converts : AttributeType → Value → Prop
  | null (type : AttributeType) : Converts type .null
  | time {type : AttributeType} {v : Value} (h : type.isTemporal = true) (hv : v.namesTime = true)
    (hof : v.IsOfCalendar) : Converts type v
  | sum {type : AttributeType} {v body : Value} (h : type.isTemporal = true)
    (hbody : directive? v = some body)
    (hdate : ∀ field d, Directive.read field body = .ok d → d.date.IsOfCalendar) : Converts type v
  | number {v : Value} (h : v.namesNumber = true) : Converts decimal v
  | uuid {u : Uuid} (h : u.isValid = true) : Converts uuid (.uuid u)
  | uuidText (s : String) : Converts uuid (.text s)
  | unparsed {type : AttributeType} {v : Value} (h : type.isParsed = false) : Converts type v

/-- Days that are read are of the calendar. -/
theorem isValid_of_date? {s : String} {d : Date} (h : StoredReader.date? s = some d) :
    d.isValid = true := by
  unfold StoredReader.date? at h
  simp only at h
  split_ifs at h
  obtain ⟨⟨year, month, day⟩, _, h⟩ := Option.bind_eq_some_iff.mp h
  exact Date.isValid_of_ofParts? h

namespace Cache

variable {types : Entries AttributeType} {type : AttributeType} {v w : Value} {record : Record}

/-! ## Reading what is written -/

/-- What is written of a readable value is read back. -/
theorem exists_restore (h : type.CanRead v) {j : Json} (hj : document v = .ok j) :
    ∃ w, restore (some type) j.settled.toValue = .ok w := by
  have hmeaning {α : Type} {wrap : α → Value} {read : Option α} {a : α} (h : read = some a) :
      ∃ w, meaning wrap read = .ok w := ⟨wrap a, by rw [h]; rfl⟩
  cases h with
  | null type =>
    obtain rfl := Except.ok.inj hj
    exact ⟨.null, by cases type <;> rfl⟩
  | @instant t h hoffset =>
    obtain rfl := Except.ok.inj hj
    show ∃ w, meaning .instant (StoredReader.dateTime? t.text) = .ok w
    exact hmeaning (StoredReader.dateTime?_text_of_shortOffset h hoffset)
  | @midnight d h =>
    obtain rfl := Except.ok.inj hj
    show ∃ w, meaning .instant (StoredReader.dateTime? d.text) = .ok w
    exact hmeaning (StoredReader.dateTime?_dateText h)
  | @date d h =>
    obtain rfl := Except.ok.inj hj
    show ∃ w, meaning .date (StoredReader.date? d.text) = .ok w
    exact hmeaning (StoredReader.date?_text h)
  | @uuid u h =>
    obtain rfl := Except.ok.inj hj
    show ∃ w, meaning .uuid (Uuid.parse? u.text) = .ok w
    exact hmeaning (Uuid.parse?_text h)
  | @instantText s t h =>
    obtain rfl := Except.ok.inj hj
    show ∃ w, meaning .instant (StoredReader.dateTime? s) = .ok w
    exact hmeaning h
  | @dateText s d h =>
    obtain rfl := Except.ok.inj hj
    show ∃ w, meaning .date (StoredReader.date? s) = .ok w
    exact hmeaning h
  | @uuidText s u h =>
    obtain rfl := Except.ok.inj hj
    show ∃ w, meaning .uuid (Uuid.parse? s) = .ok w
    exact hmeaning h
  | int n =>
    obtain ⟨d, hread, hsettled⟩ := exists_restore_int hj
    exact ⟨.decimal d, by rw [hsettled, hread]⟩
  | float x =>
    obtain rfl := Except.ok.inj hj
    obtain ⟨d, hread⟩ := exists_restore_float x
    exact ⟨.decimal d, hread⟩
  | decimal d =>
    obtain ⟨e, hread, hsettled⟩ := exists_restore_decimal hj
    exact ⟨.decimal e, by rw [hsettled, hread]⟩
  | decimalText h =>
    obtain rfl := Except.ok.inj hj
    exact ⟨_, restore_of_parse? rfl h⟩
  | unparsed h => exact ⟨_, restore_unparsed h _⟩

/-- What is a document by itself is no time. -/
theorem isOfCalendar_of_isDocument (hv : v.IsDocument) : v.IsOfCalendar := by
  cases v <;> trivial

/-- What was read can be written and read again, and names no time outside the calendar. -/
theorem canRead_of_restore (hv : v.IsDocument) (h : restore (some type) v = .ok w) :
    type.CanRead w ∧ w.IsOfCalendar := by
  cases restores_of_restore h with
  | null => exact ⟨.null type, trivial⟩
  | instant hread =>
    have hvalid := isValid_of_dateTime? hread
    exact ⟨.instant hvalid (StoredReader.hasShortOffset_of_dateTime? hread), hvalid⟩
  | date hread => exact ⟨.date (isValid_of_date? hread), isValid_of_date? hread⟩
  | uuid hread => exact ⟨.uuid (Uuid.isValid_of_parse? hread), trivial⟩
  | decimal => exact ⟨.decimal _, trivial⟩
  | unparsed hparsed => exact ⟨.unparsed hparsed, isOfCalendar_of_isDocument hv⟩

/-! ## Coercion -/

/-- What names a point of time is coerced to a naive one. -/
theorem exists_naive (hv : v.namesTime = true) (h : coerceInstant v = .ok w) :
    ∃ t, w = .instant t ∧ t.offset = none := by
  have hmade : ∃ t, w = .instant t := by
    rcases coerceInstant_cases h with rfl | ⟨hmade, -⟩
    · cases w with
      | int n =>
        obtain ⟨_, _, h⟩ := Outcome.bind_eq_ok.mp h
        obtain ⟨_, _, h⟩ := Outcome.bind_eq_ok.mp h
        cases h
      | float x =>
        obtain ⟨_, _, h⟩ := Outcome.bind_eq_ok.mp h
        cases h
      | text s =>
        obtain ⟨_, _, h⟩ := Outcome.bind_eq_ok.mp h
        obtain ⟨_, _, h⟩ := Outcome.bind_eq_ok.mp h
        cases h
      | instant t => exact ⟨t, rfl⟩
      | date d => cases h
      | _ => cases hv
    · exact hmade
  obtain ⟨t, rfl⟩ := hmade
  exact ⟨t, rfl, offset_of_coerceInstant h⟩

/-- What names a point of the calendar is coerced to one. -/
theorem exists_instant (hv : v.namesTime = true) (hof : v.IsOfCalendar)
    (h : coerceInstant v = .ok w) : ∃ t, w = .instant t ∧ t.isValid = true ∧ t.offset = none := by
  obtain ⟨t, rfl, -⟩ := exists_naive hv h
  exact ⟨t, rfl, isValid_of_coerceInstant hof h⟩

/-- Coercion to a temporal type makes a readable value of what names a point of time. -/
theorem canRead_of_namesTime (htype : type.isTemporal = true) (hv : v.namesTime = true)
    (hof : v.IsOfCalendar) (h : coerce (some type) v = .ok w) : type.CanRead w := by
  cases type with
  | datetime =>
    obtain ⟨t, rfl, hvalid, hnaive⟩ := exists_instant hv hof h
    refine .instant hvalid fun offset hoffset => ?_
    rw [hnaive] at hoffset
    cases hoffset
  | date =>
    obtain ⟨u, hu, rfl⟩ := Outcome.map_eq_ok.mp ((coerceDate_eq v).symm.trans h)
    obtain ⟨t, rfl, hvalid, -⟩ := exists_instant hv hof hu
    exact .date (DateTime.isValid_iff.mp hvalid).1
  | _ => cases htype

/-- Coercion to a decimal number makes a readable value of what names a number. -/
theorem canRead_of_namesNumber (hv : v.namesNumber = true) (h : coerceDecimal v = .ok w) :
    AttributeType.decimal.CanRead w := by
  cases v with
  | int n =>
    simp only [coerceDecimal] at h
    exact Except.ok.inj h ▸ .decimal _
  | float x =>
    simp only [coerceDecimal] at h
    split at h
    · exact Except.ok.inj h ▸ .decimal _
    · cases h
  | text s =>
    simp only [coerceDecimal] at h
    split at h
    · exact Except.ok.inj h ▸ .decimal _
    · cases h
  | decimal d =>
    simp only [coerceDecimal] at h
    exact Except.ok.inj h ▸ .decimal _
  | _ => cases hv

/-- Coercion leaves null alone. -/
theorem coerce_null (type : Option AttributeType) : coerce type .null = .ok .null := by
  rcases type with _ | type
  · rfl
  · cases type <;> rfl

/-- What coercion makes of a new value of a record is readable, if the fields of the record name no
times outside the calendar. -/
theorem canRead_of_coerceFor {field : String} {u : Value} (hrecord : ∀ e ∈ record, e.2.IsOfCalendar)
    (hv : type.Converts v) (hw : newValue record field v = .ok w)
    (h : coerceFor field (some type) w = .ok u) : type.CanRead u := by
  rw [coerceFor_eq_ok] at h
  have hliteral (hbody : directive? v = none) : w = v := by
    simp only [newValue, hbody] at hw
    exact (Except.ok.inj hw).symm
  cases hv with
  | null =>
    rw [hliteral rfl, coerce_null] at h
    exact Except.ok.inj h ▸ .null type
  | time htype hkind hof =>
    have hbody : directive? v = none := by
      cases v <;> first | rfl | cases hkind
    exact canRead_of_namesTime htype hkind hof (hliteral hbody ▸ h)
  | sum htype hbody hcalendar =>
    rcases newValue_of_sum hrecord hbody hcalendar hw with rfl | ⟨t, rfl, hvalid, -⟩
    · rw [coerce_null] at h
      exact Except.ok.inj h ▸ .null type
    · exact canRead_of_namesTime (v := .instant t) htype rfl hvalid h
  | number hkind =>
    have hbody : directive? v = none := by
      cases v <;> first | rfl | cases hkind
    exact canRead_of_namesNumber hkind (hliteral hbody ▸ h)
  | uuid hu =>
    rw [hliteral rfl, coerce, coerceUuid] at h
    · exact Except.ok.inj h ▸ .uuid hu
    · simp
  | uuidText s =>
    rw [hliteral rfl, coerce, coerceUuid] at h
    split at h
    · next a hread => exact Except.ok.inj h ▸ .uuid (Uuid.isValid_of_parse? hread)
    · cases h
  | unparsed htype => exact .unparsed htype

/-! ## Records -/

/-- Whether a record has distinct fields, and in those of the declared types values that can be read
back. -/
structure IsReadable (types : Entries AttributeType) (record : Record) : Prop where
  nodup : (Entries.keys record).Nodup
  canRead : ∀ e ∈ record, ∀ type, Entries.get? types e.1 = some type → type.CanRead e.2

/-- The member of a readable record is read back. -/
theorem IsReadable.exists_decode {raw : String} (h : IsReadable types record)
    (hraw : encode record = .ok raw) : ∃ read, decode raw types = .ok read := by
  obtain ⟨ms, hms, rfl, hshort⟩ := exists_document hraw
  rw [ofEntries_sortedEntries] at hms
  have hnames : (Entries.keys ms).Nodup := by
    rw [keys_mapM_entryDocument hms, (Entries.keys_inOrder record).nodup_iff]
    exact h.nodup
  have hmember : ∀ m ∈ ms, ∃ f : String × Value, (do
      return (m.1, ← restore (Entries.get? types m.1) m.2.settled.toValue) : Outcome _) = .ok f ∧
      True := by
    intro m hm
    obtain ⟨e, he, hdocument⟩ := Outcome.exists_of_mem_mapM hms hm
    obtain ⟨j, hj, rfl⟩ := Outcome.map_eq_ok.mp hdocument
    have hrestore : ∃ w, restore (Entries.get? types e.1) j.settled.toValue = .ok w := by
      cases htype : Entries.get? types e.1 with
      | none => exact ⟨_, restore_undeclared _⟩
      | some type =>
        exact exists_restore (h.canRead e ((Entries.inOrder_perm record).mem_iff.mp he) type htype) hj
    obtain ⟨w, hw⟩ := hrestore
    exact ⟨(e.1, w), by simp only [hw]; rfl, trivial⟩
  obtain ⟨read, hread, -⟩ := Outcome.exists_mapM hmember
  exact ⟨read, (decode_eq_restored hshort hnames).trans hread⟩

/-- What was read from a member is readable, and names no time outside the calendar. -/
theorem isReadable_of_decode {raw : String} (h : decode raw types = .ok record) :
    IsReadable types record ∧ ∀ e ∈ record, e.2.IsOfCalendar := by
  have hrestored := exists_restored h
  refine ⟨⟨nodup_keys_of_decode h, fun e he type htype => ?_⟩, fun e he => ?_⟩
  · obtain ⟨v, hv, hrestore⟩ := hrestored e he
    rw [htype] at hrestore
    exact (canRead_of_restore hv hrestore).1
  · obtain ⟨v, hv, hrestore⟩ := hrestored e he
    cases htype : Entries.get? types e.1 with
    | none =>
      rw [htype, restore_undeclared] at hrestore
      exact Except.ok.inj hrestore ▸ isOfCalendar_of_isDocument hv
    | some type =>
      rw [htype] at hrestore
      exact (canRead_of_restore hv hrestore).2

/-- A record is readable without its hidden fields, if the values of the others can be read back. -/
theorem IsReadable.of_shown {hidden : String → Bool} (hnodup : (Entries.keys record).Nodup)
    (h : ∀ e ∈ record, hidden e.1 = true ∨
      ∀ type, Entries.get? types e.1 = some type → type.CanRead e.2) :
    IsReadable types (record.filter fun e => !hidden e.1) where
  nodup := hnodup.sublist (List.filter_sublist.map Prod.fst)
  canRead e he type htype := by
    obtain ⟨he, hshown⟩ := List.mem_filter.mp he
    rcases h e he with hhidden | hread
    · rw [hhidden] at hshown
      cases hshown
    · exact hread type htype

/-- An update by values that are made readable makes readable records of readable ones; hidden fields
may get any values. -/
theorem IsReadable.revise {hidden : String → Bool} {spec : Entries Value} {updated : Record}
    (h : IsReadable types record) (hrecord : ∀ e ∈ record, e.2.IsOfCalendar)
    (hspec : ∀ e ∈ spec, hidden e.1 = true ∨
      ∀ type, Entries.get? types e.1 = some type → type.Converts e.2)
    (hupdated : revise spec record types = .ok updated) :
    IsReadable types (updated.filter fun e => !hidden e.1) := by
  have hshown := revise_induction (P := fun before => (Entries.keys before).Nodup ∧ ∀ e ∈ before,
    hidden e.1 = true ∨ ∀ type, Entries.get? types e.1 = some type → type.CanRead e.2) hupdated
    ⟨h.nodup, fun e he => .inr (h.canRead e he)⟩ ?_
  · exact .of_shown hshown.1 hshown.2
  · rintro before ⟨hnodup, hbefore⟩ e he u hu
    obtain ⟨w, hw, hu⟩ := revised_eq_ok.mp hu
    refine ⟨Entries.nodup_keys_set hnodup _ _, fun e' he' => ?_⟩
    rcases Entries.mem_of_mem_set he' with rfl | he'
    · refine (hspec e he).imp id fun hconverts type htype => ?_
      rw [htype] at hu
      exact canRead_of_coerceFor hrecord (hconverts type htype) hw hu
    · exact hbefore e' he'

end Cache

end TwinStore
