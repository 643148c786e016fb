import TwinStore.Proofs.OrderlyCaches

/-!
# Members that a search gets past

A search skips a member that it cannot read, and tests the record of any other one.  It fails where a
reader refuses a value in a way that nobody expects, and where a field that the filter mentions cannot
be compared.  Both are decided by the member, field by field.

Main definitions:

- `Cache.isSkipped`: whether a member is skipped.
- `Cache.IsHandled`: the values that the reader of a type reads, or refuses as expected.
- `Cache.CanCompare`: the values that can be compared once they are read.
- `Cache.Passes`: the members that a search by a filter gets past.
- `Filter.HasQuietOperands`: the filters without signalling operands.

Main results:

- Theorem `either_decode`: a member of such values is read or skipped.
- Theorem `exists_answer_of_mentioned`: only the fields that a filter mentions have to be compared.
- Theorem `Passes.cases`: a member that a search gets past is skipped, or read and tested.
-/

namespace TwinStore

open Number Calendar Filter

/-! ## Filters -/

namespace Filter

variable {types : Entries AttributeType} {where_ : Value}

/-- Whether the operands of a filter hold no signalling number in the form in which they compare. -/
def HasQuietOperands (types : Entries AttributeType) (where_ : Value) : Prop :=
  ∀ c ∈ mentions where_, ∀ type, Entries.get? types c.field = some type → ∀ v ∈ c.operands,
    ∀ w, comparable (some type) v = .ok w → w.IsQuiet

/-- The check of a condition is on its field. -/
theorem field_of_leaf {c : Requirement} {check : Check}
    (h : (recordReading (some types)).leaf c = .ok check) : check.field = c.field := by
  obtain ⟨type, _, h⟩ := Outcome.bind_eq_ok.mp h
  simp only [recordReading] at h
  split_ifs at h
  · obtain ⟨candidates, _, h⟩ := Outcome.bind_eq_ok.mp h
    exact (congrArg Check.field (Except.ok.inj h)).symm
  · exact (congrArg Check.field (Except.ok.inj h)).symm
  · obtain ⟨form, _, h⟩ := Outcome.bind_eq_ok.mp h
    exact (congrArg Check.field (Except.ok.inj h)).symm

/-- A filter with quiet operands answers for every record of which the mentioned fields can be
compared. -/
theorem exists_answer_of_mentioned (hquiet : HasQuietOperands types where_) {predicate : Predicate}
    (haccepts : (Predicate.ofFilter where_ (some types)).run.2 = .ok predicate) {record : Record}
    (hrecord : ∀ c ∈ mentions where_, ∀ type, Entries.get? types c.field = some type →
      IsTestable type (record.field c.field)) : ∃ b, predicate record = .ok b := by
  have hreads : (recordReading (some types)).Reads
      (fun check => check.IsSure types ∧ ∃ c ∈ mentions where_, check.field = c.field)
      (fun _ => True) (mentions where_) := by
    have hsure : (recordReading (some types)).Reads (Check.IsSure types) (fun _ => True)
        (mentions where_) := by
      refine recordReading_reads (fun _ => trivial) fun c hc type htype v hv => ?_
      cases hform : comparable (some type) v with
      | ok w => exact hquiet c hc type htype v hv w hform
      | error fault => trivial
    intro c hc
    exact (hsure c hc).with_eq.imp (fun check h => ⟨h.1, c, hc, field_of_leaf h.2⟩) fun _ => id
  have hpredicate : (Predicate.ofFilter where_ (some types)).Ends
      (Either (fun p => ∃ b, p record = .ok b) fun _ => True) := by
    refine Reported.Ends.bind (Reading.filter_ends (fun _ _ _ => trivial) (fun _ => trivial)
      (fun _ _ => trivial) hreads) (fun f hf => ?_) fun _ => id
    refine Reported.Ends.pure (Formula.exists_holdsFor fun check hcheck => ?_)
    obtain ⟨hsure, c, hc, hfield⟩ := hf check hcheck
    refine hsure.exists_holdsFor ?_
    rw [hfield]
    exact hrecord c hc
  have hanswers := hpredicate []
  rwa [show (runFrom (Predicate.ofFilter where_ (some types)) []).1 = .ok predicate from haccepts]
    at hanswers

end Filter

namespace Cache

variable {types : Entries AttributeType} {type : AttributeType} {v w : Value} {raw : String}
  {where_ : Value} {record : Record}

/-! ## Reading -/

/-- Whether a member is skipped: it cannot be read, for a reason that is expected. -/
def isSkipped (types : Entries AttributeType) (raw : String) : Bool :=
  match decode raw types with
  | .ok _ => false
  | .error fault => isUndecodable fault

theorem isSkipped_iff : isSkipped types raw = true ↔
    ∃ fault, decode raw types = .error fault ∧ isUndecodable fault = true := by
  rw [isSkipped]
  cases decode raw types with
  | ok record => exact ⟨nofun, nofun⟩
  | error fault =>
    refine ⟨fun h => ⟨fault, rfl, h⟩, ?_⟩
    rintro ⟨_, heq, h⟩
    exact Except.error.inj heq ▸ h

/-- Whether the reader of a type reads a value, or refuses it in a way that is expected.  The reader of
decimal numbers expects numbers, whatever text they are written as; that of identifiers expects
texts. -/
def IsHandled (type : AttributeType) (v : Value) : Prop :=
  match type with
  | .decimal => v = .null ∨ ∃ n, Decimal.parse? v.display = some n
  | .uuid => v = .null ∨ ∃ s, v = .text s
  | _ => True

/-- Whether a value can be compared once it is read: a point of time has a universal time, and a decimal
number is not signalling. -/
def CanCompare (type : AttributeType) (v : Value) : Prop :=
  match type with
  | .datetime => ∀ s t, v = .text s → StoredReader.dateTime? s = some t →
    ∃ u, t.toUniversal? = some u
  | .decimal => ∀ n, Decimal.parse? v.display = some n → n.isSignaling = false
  | _ => True

/-- What is handled is read, or skipped. -/
theorem either_restore (h : IsHandled type v) :
    Either (fun _ => True) (fun fault => isUndecodable fault = true) (restore (some type) v) := by
  have hmeaning {α : Type} (wrap : α → Value) (read : Option α) :
      Either (fun _ => True) (fun fault => isUndecodable fault = true) (meaning wrap read) := by
    cases read <;> trivial
  cases type with
  | decimal =>
    rcases h with rfl | ⟨n, hn⟩
    · trivial
    · cases v with
      | null => trivial
      | _ => simp only [restore, hn]; trivial
  | uuid =>
    rcases h with rfl | ⟨s, rfl⟩
    · trivial
    · exact hmeaning .uuid _
  | datetime | date =>
    cases v with
    | text s => exact hmeaning _ _
    | _ => trivial
  | _ => cases v <;> trivial

/-- A member of handled values is read, or skipped. -/
theorem either_decode (h : ∀ members, Json.read raw = .ok (.object members) → ∀ e ∈ members,
      ∀ type, Entries.get? types e.1 = some type → IsHandled type e.2.toValue) :
    Either (fun _ => True) (fun fault => isUndecodable fault = true) (decode raw types) := by
  have hread : Either (fun j => Json.read raw = .ok j) (fun fault => isUndecodable fault = true)
      (Json.read raw) := by
    rw [Json.read]
    cases Json.parse raw with
    | ok j => rfl
    | error cause => cases cause <;> rfl
  refine hread.bind fun j hj => ?_
  cases j with
  | object members =>
    have hmembers := h members hj
    refine (Either.mapM (M := fun _ => True) fun e he => ?_).imp (fun _ _ => trivial) fun _ => id
    have hfield : Either (fun _ => True) (fun fault => isUndecodable fault = true)
        (restore (Entries.get? types e.1) e.2.toValue) := by
      cases htype : Entries.get? types e.1 with
      | none => cases e.2.toValue <;> trivial
      | some type => exact either_restore (hmembers e he type htype)
    exact hfield.bind fun _ _ => trivial
  | _ => rfl

/-! ## Testing -/

/-- A value of documents that is read is quiet, if it is no signalling number. -/
theorem isQuiet_of_canCompare (hv : v.IsDocument) (h : restore (some type) v = .ok w)
    (hcompare : CanCompare type v) : w.IsQuiet := by
  cases restores_of_restore h with
  | null | instant | date | uuid => trivial
  | decimal hread => exact hcompare _ hread
  | unparsed => exact hv.isQuiet

/-- What can be compared once it is read can be compared. -/
theorem isTestable_of_canCompare (hv : v.IsDocument) (h : restore (some type) v = .ok w)
    (hcompare : CanCompare type v) : IsTestable type w := by
  refine isTestable_of_quiet h (isQuiet_of_canCompare hv h hcompare) ?_
  rintro t rfl
  cases restores_of_restore h with
  | instant hread => exact hcompare _ t rfl hread
  | unparsed => exact hv.elim

/-- Whether a search by a filter gets past a member: it is skipped, or its fields are handled and those
that the filter mentions can be compared. -/
def Passes (types : Entries AttributeType) (where_ : Value) (raw : String) : Prop :=
  isSkipped types raw = true ∨ ∀ members, Json.read raw = .ok (.object members) → ∀ e ∈ members,
    ∀ type, Entries.get? types e.1 = some type → IsHandled type e.2.toValue ∧
      ((∃ c ∈ mentions where_, c.field = e.1) → CanCompare type e.2.toValue)

/-- A member that a search gets past is skipped, or read and tested. -/
theorem Passes.cases (h : Passes types where_ raw) (hquiet : HasQuietOperands types where_)
    {predicate : Predicate}
    (haccepts : (Predicate.ofFilter where_ (some types)).run.2 = .ok predicate) :
    isSkipped types raw = true ∨ ∃ record b, decode raw types = .ok record ∧
      predicate record = .ok b := by
  rcases h with hskipped | hfields
  · exact .inl hskipped
  have hdecode := either_decode fun members hread e he type htype =>
    (hfields members hread e he type htype).1
  cases hrecord : decode raw types with
  | error fault =>
    rw [hrecord] at hdecode
    exact .inl (isSkipped_iff.mpr ⟨fault, hrecord, hdecode⟩)
  | ok record =>
    refine .inr ⟨record, ?_⟩
    obtain ⟨members, hread, hrestored⟩ := exists_object hrecord
    have hanswer : ∃ b, predicate record = .ok b := by
      refine exists_answer_of_mentioned hquiet haccepts fun c hc type htype => ?_
      rw [Record.field]
      cases hget : Entries.get? record c.field with
      | none =>
        show IsTestable type .null
        cases type <;> trivial
      | some w =>
        obtain ⟨m, hm, hname, hdocument, hrestore⟩ := hrestored _ (Entries.mem_of_get? hget)
        simp only at hname hrestore
        rw [htype] at hrestore
        obtain ⟨_, hcompare⟩ := hfields members hread m hm type (hname ▸ htype)
        exact isTestable_of_canCompare hdocument hrestore (hcompare ⟨c, hc, hname.symm⟩)
    obtain ⟨b, hb⟩ := hanswer
    exact ⟨b, rfl, hb⟩

end Cache

end TwinStore
