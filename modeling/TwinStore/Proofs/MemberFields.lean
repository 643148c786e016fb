import TwinStore.Cache.Member
import TwinStore.Proofs.JsonDocuments
import TwinStore.Proofs.Outcome

/-!
# The fields of a member

Whatever the values of a record are, its member is an object of documents that can be read, so what
is read back has the fields of the record.

Main definitions:

- `AttributeType.isParsed`: the types whose values are made of the values of documents.
- `Cache.Restores`: what the reader of a type makes of a value.

Main results:

- Theorem `restores_of_restore`: everything that reading a value can do.
- Theorem `exists_document`: the object that a member is the line of.
- Theorem `decode_eq_restored`: what is read back is restored field by field.
- Theorem `keys_decode`: a record that is read back has the fields that were written.
-/

namespace TwinStore

open Number

/-! ## Documents of values -/

namespace Json

variable {other : Value → Outcome Json}

/-- An integer that becomes a document can be read. -/
theorem isShort_ofInteger {n : Int} {j : Json} (h : ofInteger n = .ok j) : j.IsShort := by
  unfold ofInteger at h
  split_ifs at h with hlong
  obtain rfl := Except.ok.inj h
  exact not_lt.mp hlong

mutual

/-- A value that becomes a document becomes one that can be read. -/
theorem isShort_ofValue (hother : ∀ v j, other v = .ok j → j.IsShort) :
    ∀ (v : Value) {j : Json}, ofValue other v = .ok j → j.IsShort
  | .null, _, h => by obtain rfl := Except.ok.inj h; trivial
  | .bool _, _, h => by obtain rfl := Except.ok.inj h; trivial
  | .int _, _, h => isShort_ofInteger h
  | .float _, _, h => by obtain rfl := Except.ok.inj h; trivial
  | .text _, _, h => by obtain rfl := Except.ok.inj h; trivial
  | .list items, _, h => by
    obtain ⟨js, hjs, rfl⟩ := Outcome.map_eq_ok.mp h
    exact areShort_ofItems hother items hjs
  | .tuple items, _, h => by
    obtain ⟨js, hjs, rfl⟩ := Outcome.map_eq_ok.mp h
    exact areShort_ofItems hother items hjs
  | .map entries, _, h => by
    obtain ⟨ms, hms, rfl⟩ := Outcome.map_eq_ok.mp h
    exact haveShort_ofEntries hother entries hms
  | .decimal d, _, h => hother _ _ h
  | .bytes bs, _, h => hother _ _ h
  | .instant t, _, h => hother _ _ h
  | .date d, _, h => hother _ _ h
  | .uuid u, _, h => hother _ _ h
  | .foreign, _, h => hother _ _ h

/-- Values that become documents become such that can be read. -/
theorem areShort_ofItems (hother : ∀ v j, other v = .ok j → j.IsShort) :
    ∀ (items : List Value) {js : List Json},
    ofItems other items = .ok js → AreShort js
  | [], _, h => by obtain rfl := Except.ok.inj h; trivial
  | item :: rest, _, h => by
    obtain ⟨j, hj, h⟩ := Outcome.bind_eq_ok.mp h
    obtain ⟨js, hjs, h⟩ := Outcome.bind_eq_ok.mp h
    obtain rfl := Except.ok.inj h
    exact ⟨isShort_ofValue hother item hj, areShort_ofItems hother rest hjs⟩

/-- Entries that become members become such that can be read. -/
theorem haveShort_ofEntries (hother : ∀ v j, other v = .ok j → j.IsShort) :
    ∀ (entries : List (String × Value)) {ms : List (String × Json)},
    ofEntries other entries = .ok ms → HaveShort ms
  | [], _, h => by obtain rfl := Except.ok.inj h; trivial
  | (k, v) :: rest, _, h => by
    obtain ⟨j, hj, h⟩ := Outcome.bind_eq_ok.mp h
    obtain ⟨ms, hms, h⟩ := Outcome.bind_eq_ok.mp h
    obtain rfl := Except.ok.inj h
    exact ⟨isShort_ofValue hother v hj, haveShort_ofEntries hother rest hms⟩

end

/-- The members of an object have the names of the entries. -/
theorem keys_ofEntries {entries : List (String × Value)} {ms : List (String × Json)}
    (h : ofEntries other entries = .ok ms) : Entries.keys ms = Entries.keys entries := by
  induction entries generalizing ms with
  | nil =>
    obtain rfl := Except.ok.inj h
    rfl
  | cons e entries ih =>
    obtain ⟨j, _, h⟩ := Outcome.bind_eq_ok.mp h
    obtain ⟨ms, hms, h⟩ := Outcome.bind_eq_ok.mp h
    obtain rfl := Except.ok.inj h
    rw [Entries.keys_cons, Entries.keys_cons, ih hms]

/-- Settled members keep their names. -/
theorem keys_settledMembers (ms : List (String × Json)) :
    Entries.keys (settledMembers ms) = Entries.keys ms := by
  rw [settledMembers_eq_map, Entries.keys, Entries.keys, List.map_map]
  rfl

end Json

/-- The fields in order are those of the record. -/
theorem Value.keys_sortedEntries (record : Record) :
    (Entries.keys (Value.sortedEntries record)).Perm (Entries.keys record) := by
  rw [Value.sortedEntries_eq, Entries.keys, List.map_map]
  exact Entries.keys_inOrder record

/-! ## Values that are read -/

/-- Whether the values of a type are made of the values of documents when they are read. -/
def AttributeType.isParsed : AttributeType → Bool
  | .datetime | .date | .decimal | .uuid => true
  | _ => false

namespace Cache

/-- What the reader of a type makes of a value: null of null, a time, a number or an identifier of what
spells one, and of everything else itself. -/
inductive Restores : Option AttributeType → Value → Value → Prop
  | null (type : Option AttributeType) : Restores type .null .null
  | instant {s : String} {t : Calendar.DateTime} (h : Calendar.StoredReader.dateTime? s = some t) :
    Restores (some .datetime) (.text s) (.instant t)
  | date {s : String} {d : Calendar.Date} (h : Calendar.StoredReader.date? s = some d) :
    Restores (some .date) (.text s) (.date d)
  | uuid {s : String} {u : Uuid} (h : Uuid.parse? s = some u) :
    Restores (some .uuid) (.text s) (.uuid u)
  | decimal {v : Value} {n : Decimal} (h : Decimal.parse? v.display = some n) :
    Restores (some .decimal) v (.decimal n)
  | undeclared (v : Value) : Restores none v v
  | unparsed {type : AttributeType} (h : type.isParsed = false) (v : Value) : Restores (some type) v v

/-- What has no declared type is read as it is. -/
theorem restore_undeclared (v : Value) : restore none v = .ok v := by
  cases v <;> rfl

/-- What is of a type that makes nothing of it is read as it is. -/
theorem restore_unparsed {type : AttributeType} (h : type.isParsed = false) (v : Value) :
    restore (some type) v = .ok v := by
  cases type with
  | datetime | date | decimal | uuid => cases h
  | _ => cases v <;> rfl

/-- A value that is read is what the reader of its type makes of it. -/
theorem restores_of_restore {type : Option AttributeType} {v w : Value}
    (h : restore type v = .ok w) : Restores type v w := by
  have hmeaning {α : Type} {wrap : α → Value} {read : Option α} (h : meaning wrap read = .ok w) :
      ∃ a, read = some a ∧ wrap a = w := by
    cases read with
    | none => cases h
    | some a => exact ⟨a, rfl, Except.ok.inj h⟩
  rcases type with _ | type
  · obtain rfl := Except.ok.inj ((restore_undeclared v).symm.trans h)
    exact .undeclared v
  · cases type with
    | datetime =>
      cases v with
      | null => exact Except.ok.inj h ▸ .null _
      | text s =>
        obtain ⟨t, ht, rfl⟩ := hmeaning h
        exact .instant ht
      | _ => cases h
    | date =>
      cases v with
      | null => exact Except.ok.inj h ▸ .null _
      | text s =>
        obtain ⟨d, hd, rfl⟩ := hmeaning h
        exact .date hd
      | _ => cases h
    | uuid =>
      cases v with
      | null => exact Except.ok.inj h ▸ .null _
      | text s =>
        obtain ⟨u, hu, rfl⟩ := hmeaning h
        exact .uuid hu
      | _ => cases h
    | decimal =>
      cases v with
      | null => exact Except.ok.inj h ▸ .null _
      | _ =>
        simp only [restore] at h
        split at h
        · next n hn => exact Except.ok.inj h ▸ .decimal hn
        · cases h
    | _ =>
      obtain rfl := Except.ok.inj ((restore_unparsed rfl v).symm.trans h)
      exact .unparsed rfl v

/-! ## Members -/

variable {record record' : Record} {raw : String} {types : Entries AttributeType}

/-- What documents lack becomes a document that can be read. -/
theorem isShort_specialDocument (v : Value) {j : Json} (h : specialDocument v = .ok j) :
    j.IsShort := by
  cases v with
  | decimal d =>
    unfold specialDocument decimalDocument at h
    cases d with
    | infinity negative => cases h
    | nan negative signaling payload =>
      simp only at h
      split_ifs at h
      obtain rfl := Except.ok.inj h
      trivial
    | finite negative coefficient exponent =>
      simp only at h
      split_ifs at h
      split at h
      · exact Json.isShort_ofInteger h
      · obtain rfl := Except.ok.inj h
        trivial
  | instant t => obtain rfl := Except.ok.inj h; trivial
  | date d => obtain rfl := Except.ok.inj h; trivial
  | uuid u => obtain rfl := Except.ok.inj h; trivial
  | _ => cases h

/-- A member is the line of an object that can be read. -/
theorem exists_document (h : encode record = .ok raw) :
    ∃ ms, Json.ofEntries specialDocument (Value.sortedEntries record) = .ok ms ∧
      raw = Json.compact (.object ms) ∧ Json.HaveShort ms := by
  obtain ⟨j, hj, rfl⟩ := Outcome.map_eq_ok.mp h
  obtain ⟨ms, hms, rfl⟩ := Outcome.map_eq_ok.mp hj
  exact ⟨ms, hms, rfl, Json.haveShort_ofEntries (fun v j => isShort_specialDocument v) _ hms⟩

/-- What is read back is restored field by field. -/
theorem decode_eq_restored {ms : List (String × Json)} (hms : Json.HaveShort ms)
    (hkeys : (Entries.keys ms).Nodup) :
    decode (Json.compact (.object ms)) types = ms.mapM fun e => do
      return (e.1, ← restore (Entries.get? types e.1) e.2.settled.toValue) := by
  have hkeys' : (Entries.keys (Json.settledMembers ms)).Nodup := by
    rw [Json.keys_settledMembers]
    exact hkeys
  have hread : Json.read (Json.compact (.object ms)) = .ok (.object (Json.settledMembers ms)) := by
    rw [Json.read, Json.parse_compact (j := .object ms) hms, Json.settled,
      Entries.ofPairs_eq_self hkeys']
  rw [decode, hread, Outcome.ok_bind]
  show List.mapM _ (Json.settledMembers ms) = _
  rw [Json.settledMembers_eq_map, List.mapM_map]
  rfl

/-- A record that is read back has the fields that were written. -/
theorem keys_decode (hkeys : (Entries.keys record).Nodup) (h : encode record = .ok raw)
    (hread : decode raw types = .ok record') :
    (Entries.keys record').Perm (Entries.keys record) := by
  obtain ⟨ms, hms, rfl, hshort⟩ := exists_document h
  have hnames : (Entries.keys ms).Perm (Entries.keys record) := by
    rw [Json.keys_ofEntries hms]
    exact Value.keys_sortedEntries record
  rw [decode_eq_restored hshort (hnames.nodup_iff.mpr hkeys)] at hread
  have hsame : record'.map (·.1) = ms.map (·.1) := Outcome.map_eq_of_mapM hread fun e f hf => by
    obtain ⟨v, _, hv⟩ := Outcome.bind_eq_ok.mp hf
    obtain rfl := Except.ok.inj hv
    rfl
  rw [Entries.keys, hsame]
  exact hnames

end Cache

end TwinStore
