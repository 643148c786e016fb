import TwinStore.Proofs.Alike
import TwinStore.Proofs.Content
import TwinStore.Proofs.Members
import TwinStore.Proofs.WorkingCache

/-!
# Coherent stores

The cache mirrors the primary store if the set of every model consists of the members of the records
in its table.  A search of the cache then finds what a selection of the primary store finds, each
record with its fields in order.

Main definitions:

- `Registry.IsMirrored`: registries whose records both stores hold exactly.
- `setOf`: the members that the set of a table must have.
- `Coherent`: sets that mirror a database.

Main results:

- Theorem `Coherent.members_perm`: a coherent set has one member for each row.
- Theorem `Coherent.matching_leads`: a search finds the members of the selected records.
-/

namespace TwinStore

open Primary Filter

/-! ## Registries -/

/-- Registries whose models have keys and attributes of exact types only, none of which is named like
a model. -/
structure Registry.IsMirrored (r : Registry) : Prop where
  built : r.Built
  keys : r.HasKeys
  exact : ∀ {name m}, r.model? name = some m → ∀ a ∈ m.attributes, a.type.isExact = true
  apart : ∀ {name m}, r.model? name = some m → ∀ a ∈ m.attributes, r.hasModel a.name = false

/-- Such registries are sound. -/
theorem Registry.IsMirrored.sound {r : Registry} (hr : r.IsMirrored) : r.IsSound :=
  hr.built.isSound

namespace Primary

variable {r : Registry} {db : Database} {name : String} {m : Model} {t : Table} {row : Row}

/-- The record of a row. -/
def recordIn (m : Model) (row : Row) : Record := (Database.recordOf m row).get

/-- What is read from a typed row. -/
theorem Row.IsTyped.recordOf_eq (hrow : Row.IsTyped m row)
    (hexact : ∀ a ∈ m.attributes, a.type.isExact = true) :
    Database.recordOf m row = .ok (recordIn m row) := by
  obtain ⟨record, hrecord⟩ := exists_recordOf hexact hrow
  rw [recordIn, hrecord]
  rfl

/-- The record of a typed row is a record of the model. -/
theorem Row.IsTyped.isRecord (hrow : Row.IsTyped m row) (hm : m.IsProper)
    (hexact : ∀ a ∈ m.attributes, a.type.isExact = true) : m.IsRecord (recordIn m row) :=
  isRecord_of_recordOf hm hexact hrow (hrow.recordOf_eq hexact)

/-- A typed row stores its record. -/
theorem Row.IsTyped.represents (hrow : Row.IsTyped m row) (hm : m.IsProper)
    (hexact : ∀ a ∈ m.attributes, a.type.isExact = true) :
    Represents m row (recordIn m row) :=
  represents_of_recordOf hm hrow (hrow.recordOf_eq hexact)

end Primary

/-- A record of a model carries its attributes. -/
theorem Model.IsRecord.carries {m : Model} {record : Record} (h : m.IsRecord record)
    (hm : m.IsProper) : m.Carries record :=
  ⟨h.nodup_keys hm, h.admits⟩

/-! ## Sets -/

/-- The set of a model, among the sets of the cache. -/
def setOf (d : Deployment) (sets : Entries (List String)) (name : String) : List String :=
  (Entries.get? sets (Cache.setKey d name)).getD []

/-- Whether sets mirror a database: the set of each model consists of the encoded records of the rows
in its table, each once. -/
def Coherent (d : Deployment) (sets : Entries (List String)) (db : Database) : Prop :=
  ∀ name m t, d.registry.table name = .ok m → db.table m = .ok t →
    (setOf d sets name).Nodup ∧ ∀ raw, raw ∈ setOf d sets name ↔
      ∃ row ∈ t.rows, ∃ record, Database.recordOf m row = .ok record ∧
        Cache.encode record = .ok raw

section

variable {d : Deployment} {sets : Entries (List String)} {primary : Database × List (Option Bool)}
  {db : Database} {name : String} {m : Model} {t : Table}

/-- The member of the record of a row. -/
def memberIn (m : Model) (row : Row) : String := Cache.memberText (recordIn m row)

/-- A typed row of exact types has its member. -/
theorem Primary.Row.IsTyped.encode_eq {row : Row} (hrow : Row.IsTyped m row) (hm : m.IsProper)
    (hexact : ∀ a ∈ m.attributes, a.type.isExact = true) :
    Cache.encode (recordIn m row) = .ok (memberIn m row) :=
  Cache.encode_eq (hrow.isRecord hm hexact) hm

/-- The member of a typed row is read back as the record with its fields in order, of which a filter
holds where it selects the row. -/
theorem Primary.Row.IsTyped.read_eq {row : Row} (hrow : Row.IsTyped m row) (hm : m.IsProper)
    (hexact : ∀ a ∈ m.attributes, a.type.isExact = true) :
    Cache.decode (memberIn m row) m.attributeTypes = .ok (Value.sortedEntries (recordIn m row)) ∧
      ∀ where_ f, Requires m where_ f →
        (checksOf m f).holdsFor (Value.sortedEntries (recordIn m row)) =
          .ok ((testOf m f).selects row) := by
  have hrecord := hrow.isRecord hm hexact
  refine ⟨Cache.decode_eq hrecord hm, fun where_ f hf => hf.selects_eq fun field type hfield htype => ?_⟩
  have hsame := Entries.get?_of_perm (hrecord.nodup_keys hm)
    (Cache.sortedEntries_perm (Cache.admits_fields hrecord hm)).symm field
  rw [Record.field, ← hsame]
  exact hrow.represents hm hexact field type hfield htype

/-- A typed row has its member. -/
theorem encode_recordIn (hr : d.registry.IsMirrored) (hm : d.registry.table name = .ok m)
    (ht : t.IsTyped m) {row : Row} (hrow : row ∈ t.rows) :
    Database.recordOf m row = .ok (recordIn m row) ∧
      Cache.encode (recordIn m row) = .ok (memberIn m row) := by
  have hmodel := Registry.model?_of_table hm
  exact ⟨(ht.rows row hrow).recordOf_eq (hr.exact hmodel),
    (ht.rows row hrow).encode_eq (hr.sound.isProper hmodel) (hr.exact hmodel)⟩

/-- Different rows have different members. -/
theorem memberIn_inj (hr : d.registry.IsMirrored) (hm : d.registry.table name = .ok m)
    (ht : t.IsTyped m) {row row' : Row} (hrow : row ∈ t.rows) (hrow' : row' ∈ t.rows)
    (h : memberIn m row = memberIn m row') : row = row' := by
  have hmodel := Registry.model?_of_table hm
  have hproper := hr.sound.isProper hmodel
  have hrecord := (ht.rows row hrow).isRecord hproper (hr.exact hmodel)
  have hrecord' := (ht.rows row' hrow').isRecord hproper (hr.exact hmodel)
  have hperm := (Cache.memberText_eq_iff hrecord hrecord' hproper).mp h
  have horderly : t.IsOrderly d.registry name m := ht.isOrderly (hr.exact hmodel)
  refine horderly.eq_of_keys hproper hmodel (hr.keys.hasPrimary hmodel) hrow hrow'
    ((ht.rows row hrow).recordOf_eq (hr.exact hmodel))
    ((ht.rows row' hrow').recordOf_eq (hr.exact hmodel)) fun a _ => ?_
  rw [Record.field, Record.field, Entries.get?_of_perm (hrecord.nodup_keys hproper) hperm]

/-- The rows of a typed table have different members. -/
theorem nodup_members (hr : d.registry.IsMirrored) (hm : d.registry.table name = .ok m)
    (ht : t.IsTyped m) : (t.rows.map (memberIn m)).Nodup := by
  have hmodel := Registry.model?_of_table hm
  have horderly : t.IsOrderly d.registry name m := ht.isOrderly (hr.exact hmodel)
  have hnodup := horderly.nodup_rows (hr.sound.isProper hmodel) hmodel (hr.keys.hasPrimary hmodel)
  exact hnodup.map_on fun row hrow row' hrow' h => memberIn_inj hr hm ht hrow hrow' h

/-- A member is read back as the record with its fields in order, of which a filter holds where it
selects the row. -/
theorem read_memberIn (hr : d.registry.IsMirrored) (hm : d.registry.table name = .ok m)
    (ht : t.IsTyped m) {row : Row} (hrow : row ∈ t.rows) {where_ : Value} {f : Formula Requirement}
    (hf : Requires m where_ f) :
    Cache.decode (memberIn m row) m.attributeTypes = .ok (Value.sortedEntries (recordIn m row)) ∧
      (checksOf m f).holdsFor (Value.sortedEntries (recordIn m row)) =
        .ok ((testOf m f).selects row) := by
  have hmodel := Registry.model?_of_table hm
  obtain ⟨hread, hholds⟩ := (ht.rows row hrow).read_eq (hr.sound.isProper hmodel) (hr.exact hmodel)
  exact ⟨hread, hholds where_ f hf⟩

namespace Coherent

/-- A coherent set has one member for each row. -/
theorem members_perm (hc : Coherent d sets db) (hr : d.registry.IsMirrored)
    (hm : d.registry.table name = .ok m) (htable : db.table m = .ok t) (ht : t.IsTyped m) :
    (setOf d sets name).Perm (t.rows.map (memberIn m)) := by
  obtain ⟨hnodup, hmem⟩ := hc name m t hm htable
  refine (List.perm_ext_iff_of_nodup hnodup (nodup_members hr hm ht)).mpr fun raw => ?_
  rw [hmem, List.mem_map]
  constructor
  · rintro ⟨row, hrow, record, hrecord, hencode⟩
    obtain ⟨hrecord', hencode'⟩ := encode_recordIn hr hm ht hrow
    rw [hrecord'] at hrecord
    rw [← Except.ok.inj hrecord, hencode'] at hencode
    exact ⟨row, hrow, Except.ok.inj hencode⟩
  · rintro ⟨row, hrow, rfl⟩
    exact ⟨row, hrow, recordIn m row, encode_recordIn hr hm ht hrow⟩

/-- Sets with one member for each row are coherent. -/
theorem of_perm (hr : d.registry.IsMirrored) (hdb : db.IsTyped d.registry)
    (h : ∀ name m t, d.registry.table name = .ok m → db.table m = .ok t →
      (setOf d sets name).Perm (t.rows.map (memberIn m))) : Coherent d sets db := by
  intro name m t hm htable
  have hperm := h name m t hm htable
  obtain ⟨t', htable', ht⟩ := hdb name m hm
  obtain rfl : t = t' := Except.ok.inj (htable.symm.trans htable')
  refine ⟨hperm.nodup_iff.mpr (nodup_members hr hm ht), fun raw => ?_⟩
  rw [hperm.mem_iff, List.mem_map]
  constructor
  · rintro ⟨row, hrow, rfl⟩
    exact ⟨row, hrow, recordIn m row, encode_recordIn hr hm ht hrow⟩
  · rintro ⟨row, hrow, record, hrecord, hencode⟩
    obtain ⟨hrecord', hencode'⟩ := encode_recordIn hr hm ht hrow
    rw [hrecord'] at hrecord
    rw [← Except.ok.inj hrecord, hencode'] at hencode
    exact ⟨row, hrow, Except.ok.inj hencode⟩

/-- A search finds the members of the selected records. -/
theorem matching_leads (hc : Coherent d sets db) (hr : d.registry.IsMirrored)
    (hm : d.registry.table name = .ok m) (htable : db.table m = .ok t) (ht : t.IsTyped m)
    {where_ : Value} {f : Formula Requirement} (hf : Requires m where_ f)
    (primary : Database × List (Option Bool)) :
    ∃ found, (∀ ref, (Cache.matching d ref name where_).Leads (Stores.Stands d sets primary)
        (.ok (some found)) (Stores.Stands d sets primary)) ∧
      found.Perm ((t.rows.filter (testOf m f).selects).map fun row =>
        (memberIn m row, Value.sortedEntries (recordIn m row))) := by
  have hperm := hc.members_perm hr hm htable ht
  have hread (row : Row) (hrow : row ∈ t.rows) := read_memberIn hr hm ht hrow hf
  have hmembers : ∀ raw ∈ setOf d sets name,
      Cache.decode raw m.attributeTypes = .ok (Cache.decode raw m.attributeTypes).get ∧
        (checksOf m f).holdsFor (Cache.decode raw m.attributeTypes).get =
          .ok ((checksOf m f).holdsFor (Cache.decode raw m.attributeTypes).get).get := by
    intro raw hraw
    obtain ⟨row, hrow, rfl⟩ := List.mem_map.mp (hperm.mem_iff.mp hraw)
    simp only [hread row hrow, Outcome.get, and_self]
  refine ⟨_, fun ref => @Cache.matching_leads d ref sets primary name m where_ f hf
    (Registry.attributeTypes_of_table hm) (setOf d sets name) rfl
    (fun raw => (Cache.decode raw m.attributeTypes).get)
    (fun record => ((checksOf m f).holdsFor record).get) hmembers, ?_⟩
  refine ((hperm.filter _).map _).trans (List.Perm.of_eq ?_)
  rw [List.filter_map, List.map_map]
  have hfilter : t.rows.filter ((fun raw => ((checksOf m f).holdsFor
      (Cache.decode raw m.attributeTypes).get).get) ∘ memberIn m) =
      t.rows.filter (testOf m f).selects := by
    refine List.filter_congr fun row hrow => ?_
    simp only [Function.comp_apply, hread row hrow, Outcome.get]
  rw [hfilter]
  refine List.map_congr_left fun row hrow => ?_
  simp only [Function.comp_apply, hread row (List.mem_filter.mp hrow).1, Outcome.get]

end Coherent

end

end TwinStore
