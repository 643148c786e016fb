import TwinStore.Cache.Member
import TwinStore.Proofs.JsonDocuments
import TwinStore.Proofs.TypedTable
import TwinStore.Proofs.Uuid

/-!
# Members of records

A record of a model without inexact attributes has one member, whatever the order of its fields, and
the member is read back as the record with its fields in order.

Main definitions:

- `Model.IsRecord`: whether a record has the attributes of a model as fields, with values of their
  types.
- `Cache.memberText`: the member of such a record.

Main results:

- Theorem `encode_eq`, `decode_eq`: what is written and what is read back.
- Theorem `memberText_eq_iff`: records have the same member exactly if they have the same fields.
-/

namespace TwinStore

/-! ## Records of a model -/

/-- Whether a record has exactly the attributes of a model as fields, each with a value that it may
hold. -/
structure Model.IsRecord (m : Model) (record : Record) : Prop where
  keys : (Entries.keys record).Perm (m.attributes.map (·.name))
  admits : ∀ a ∈ m.attributes, a.type.Admits (record.field a.name)

namespace Model.IsRecord

variable {m : Model} {record record' : Record}

/-- No field occurs twice. -/
theorem nodup_keys (h : m.IsRecord record) (hm : m.IsProper) : (Entries.keys record).Nodup :=
  h.keys.nodup_iff.mpr hm

/-- Every field is an attribute. -/
theorem exists_attribute (h : m.IsRecord record) (hm : m.IsProper) {e : String × Value}
    (he : e ∈ record) : ∃ a ∈ m.attributes, a.name = e.1 ∧ a.type.Admits e.2 := by
  obtain ⟨a, ha, hname⟩ := List.mem_map.mp (h.keys.mem_iff.mp (Entries.mem_keys_of_mem he))
  refine ⟨a, ha, hname, ?_⟩
  have hvalue : record.field e.1 = e.2 := by
    rw [Record.field, Entries.get?_of_mem (h.nodup_keys hm) he]
    rfl
  rw [← hvalue, ← hname]
  exact h.admits a ha

/-- The order of the fields does not matter. -/
theorem perm (h : m.IsRecord record) (hm : m.IsProper) (hperm : record.Perm record') :
    m.IsRecord record' := by
  refine ⟨(hperm.map Prod.fst).symm.trans h.keys, fun a ha => ?_⟩
  rw [Record.field, ← Entries.get?_of_perm (h.nodup_keys hm) hperm]
  exact h.admits a ha

end Model.IsRecord

/-- A record that is read from a typed row is a record of the model. -/
theorem Primary.isRecord_of_recordOf {m : Model} (hm : m.IsProper)
    (hexact : ∀ a ∈ m.attributes, a.type.isExact = true) {row : Row} {record : Record}
    (hrow : Row.IsTyped m row) (h : Database.recordOf m row = .ok record) : m.IsRecord record := by
  refine ⟨?_, fun a ha => ?_⟩
  · have hkeys : Entries.keys record = m.attributes.map (·.name) := by
      rw [(Outcome.eq_map_of_mapM h).1, Entries.keys, List.map_map, List.map_inj_left]
      intro a ha
      obtain ⟨v, hv, hcell⟩ := hrow a ha (hexact a ha)
      rw [Function.comp_apply, hcell, valueOf_storedCell hv]
      rfl
    rw [hkeys]
  · obtain ⟨v, hv, hcell⟩ := hrow a ha (hexact a ha)
    have hvalue := field_of_recordOf hm h ha
    rw [hcell, valueOf_storedCell hv] at hvalue
    rw [← Except.ok.inj hvalue]
    exact hv

namespace Cache

open Number Calendar

/-! ## Fields -/

/-- The document of the value of a field. -/
def fieldDocument : Value → Json
  | .bool b => .bool b
  | .int n => .int n
  | .text s => .text s
  | .date d => .text d.text
  | .instant t => .text t.text
  | .uuid u => .text u.text
  | _ => .null

/-- An integer of 64 bits is not too long to be read. -/
theorem decimalLength_le {n : Int} (h : Primary.fitsWord n = true) :
    decimalLength n.natAbs ≤ Json.integerDigits := by
  rw [Primary.fitsWord, Bool.and_eq_true, decide_eq_true_eq, decide_eq_true_eq] at h
  have hsmall : n.natAbs < 10 ^ 20 := by norm_num at h ⊢; omega
  have hlength : decimalLength n.natAbs ≤ 20 :=
    (Nat.length_toDigits_le_iff (by decide) (by decide)).mpr hsmall
  exact hlength.trans (by decide)

variable {type : AttributeType} {v : Value}

/-- A field has nothing to sort. -/
theorem sorted_field (h : type.Admits v) : v.sorted = v := by
  rcases h with rfl | h
  · rfl
  · cases h <;> rfl

/-- A field is written as its document. -/
theorem ofValue_field (h : type.Admits v) :
    Json.ofValue specialDocument v = .ok (fieldDocument v) := by
  rcases h with rfl | h
  · rfl
  · cases h with
    | int h =>
      rw [Json.ofValue, Json.ofInteger, if_neg (Nat.not_lt.mpr (decimalLength_le h))]
      rfl
    | _ => rfl

/-- The document of a field can be read. -/
theorem isShort_fieldDocument (h : type.Admits v) : (fieldDocument v).IsShort := by
  rcases h with rfl | h
  · trivial
  · cases h with
    | int h => exact decimalLength_le h
    | _ => trivial

/-- The document of a field has nothing to settle. -/
theorem settled_fieldDocument (v : Value) : (fieldDocument v).settled = fieldDocument v := by
  cases v <;> rfl

/-- A field is read back from its document. -/
theorem restore_fieldDocument (h : type.Admits v) :
    restore (some type) (fieldDocument v).toValue = .ok v := by
  rcases h with rfl | h
  · cases type <;> rfl
  · cases h with
    | @date d h =>
      show meaning .date (StoredReader.date? d.text) = _
      rw [StoredReader.date?_text h]
      rfl
    | @datetime t h hnaive =>
      show meaning .instant (StoredReader.dateTime? t.text) = _
      rw [StoredReader.dateTime?_text h hnaive]
      rfl
    | @uuid u h =>
      show meaning .uuid (Uuid.parse? u.text) = _
      rw [Uuid.parse?_text h]
      rfl
    | _ => rfl

/-! ## Records -/

/-- The members of the object of a record. -/
def fieldDocuments (record : Record) : List (String × Json) :=
  (Value.sortedEntries record).map fun e => (e.1, fieldDocument e.2)

/-- The member of a record of a model. -/
def memberText (record : Record) : String := Json.compact (.object (fieldDocuments record))

section

variable {m : Model} {record record' : Record}

/-- Fields have nothing to sort but their order. -/
theorem sortedEntries_eq_inOrder
    (hrecord : ∀ e ∈ record, ∃ type : AttributeType, type.Admits e.2) :
    Value.sortedEntries record = Entries.inOrder record := by
  rw [Value.sortedEntries_eq]
  refine (List.map_congr_left fun e he => ?_).trans (List.map_id _)
  obtain ⟨type, hv⟩ := hrecord e ((Entries.inOrder_perm record).mem_iff.mp he)
  rw [sorted_field hv]
  rfl

/-- The fields in order are the fields. -/
theorem sortedEntries_perm (hrecord : ∀ e ∈ record, ∃ type : AttributeType, type.Admits e.2) :
    (Value.sortedEntries record).Perm record :=
  sortedEntries_eq_inOrder hrecord ▸ Entries.inOrder_perm record

/-- The fields of a record of a model are fields of types. -/
theorem admits_fields (h : m.IsRecord record) (hm : m.IsProper) :
    ∀ e ∈ record, ∃ type : AttributeType, type.Admits e.2 := by
  intro e he
  obtain ⟨a, _, _, hadmits⟩ := h.exists_attribute hm he
  exact ⟨a.type, hadmits⟩

/-- A record of a model is written as its member. -/
theorem encode_eq (h : m.IsRecord record) (hm : m.IsProper) :
    encode record = .ok (memberText record) := by
  have hfields := admits_fields h hm
  have hentries (es : Record) (hes : ∀ e ∈ es, ∃ type : AttributeType, type.Admits e.2) :
      Json.ofEntries specialDocument es = .ok (es.map fun e => (e.1, fieldDocument e.2)) := by
    induction es with
    | nil => rfl
    | cons e es ih =>
      obtain ⟨k, v⟩ := e
      obtain ⟨type, hv⟩ := hes (k, v) List.mem_cons_self
      rw [Json.ofEntries, ofValue_field hv, ih fun e he => hes e (List.mem_cons_of_mem _ he)]
      rfl
  have hsorted := hentries (Value.sortedEntries record) fun e he =>
    hfields e ((sortedEntries_perm hfields).mem_iff.mp he)
  rw [encode, document, Value.sorted, Json.ofValue, hsorted]
  rfl

/-- The member of a record of a model is read back as the record with its fields in order. -/
theorem decode_eq (h : m.IsRecord record) (hm : m.IsProper) :
    decode (memberText record) m.attributeTypes = .ok (Value.sortedEntries record) := by
  have hperm := sortedEntries_perm (admits_fields h hm)
  have hsorted := h.perm hm hperm.symm
  have hshort : (Json.object (fieldDocuments record)).IsShort := by
    refine Json.haveShort_iff.mpr fun e' he' => ?_
    obtain ⟨e, he, rfl⟩ := List.mem_map.mp he'
    obtain ⟨type, hadmits⟩ := admits_fields hsorted hm e he
    exact isShort_fieldDocument hadmits
  have hsettled : Json.settledMembers (fieldDocuments record) = fieldDocuments record := by
    rw [Json.settledMembers_eq_map, fieldDocuments, List.map_map]
    simp only [Function.comp_def, settled_fieldDocument]
  have hkeys : (Entries.keys (fieldDocuments record)).Nodup := by
    rw [Entries.keys, fieldDocuments, List.map_map]
    exact hsorted.nodup_keys hm
  have hread : Json.read (memberText record) = .ok (.object (fieldDocuments record)) := by
    rw [Json.read, memberText, Json.parse_compact hshort, Json.settled, hsettled,
      Entries.ofPairs_eq_self hkeys]
  rw [decode, hread, Outcome.ok_bind]
  show List.mapM _ (fieldDocuments record) = _
  rw [Outcome.mapM_eq_ok_iff, fieldDocuments, List.forall₂_map_left_iff, List.forall₂_same]
  intro e he
  obtain ⟨a, ha, hname, hadmits⟩ := hsorted.exists_attribute hm he
  have htype := hm.get?_attributeTypes ha
  rw [hname] at htype
  simp only [htype, restore_fieldDocument hadmits]
  rfl

/-- Records of a model have the same member exactly if they have the same fields. -/
theorem memberText_eq_iff (h : m.IsRecord record) (h' : m.IsRecord record') (hm : m.IsProper) :
    memberText record = memberText record' ↔ record.Perm record' := by
  have hperm := sortedEntries_perm (admits_fields h hm)
  have hperm' := sortedEntries_perm (admits_fields h' hm)
  constructor
  · intro heq
    have hread := decode_eq h hm
    rw [heq, decode_eq h' hm] at hread
    rw [← Except.ok.inj hread] at hperm
    exact hperm.symm.trans hperm'
  · intro heq
    rw [memberText, memberText, fieldDocuments, fieldDocuments,
      sortedEntries_eq_inOrder (admits_fields h hm), sortedEntries_eq_inOrder (admits_fields h' hm),
      Entries.inOrder_eq_of_perm (h.nodup_keys hm) heq]

end

end Cache

end TwinStore
