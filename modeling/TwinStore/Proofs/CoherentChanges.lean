import TwinStore.Proofs.Coherence
import TwinStore.Proofs.Refilling
import TwinStore.Proofs.ServerSets
import TwinStore.Proofs.StoredChanges
import TwinStore.Proofs.WholeRows
import TwinStore.Proofs.WrittenRows

/-!
# Changes that keep the stores coherent

While records are written and deleted, and wherever the cache was filled from answers only, its sets
hold the members of some rows of the tables: they are coherent with what is left of the database when
the other rows are taken away.  A record that both stores are given has the same member wherever it is
read.  The primary store writes cells, the cache texts; after an insertion, and after an update, the
sets again consist of the members of the rows.

Main definitions:

- `Reflects`: sets of which every member is that of a row.
- `mirroredPart`: the database with the rows whose members are there.

Main results:

- Theorem `Reflects.coherent`: sets that reflect a database mirror the part of it.
- Theorem `coherent_iff`: sorted sets mirror a database exactly if their members are those of the rows.
- Theorem `Reflects.matching_leads`: a search finds the members of those selected records that are
  there.
- Theorem `memberOf_record`: the member of a record of a model.
- Theorem `exists_revised`: an update of a record in memory gives the record of the rewritten row.
- Theorem `Coherent.grown`, `Coherent.altered`: after changes of both stores the sets mirror the
  tables.
-/

namespace TwinStore

open Primary Filter Cache

variable {d : Deployment} {sets : Entries (List String)} {db : Database} {name : String} {m : Model}
  {t : Table}

/-! ## Reflected rows -/

/-- Whether every member of a set is the member of a row in the table of its model. -/
def Reflects (d : Deployment) (sets : Entries (List String)) (db : Database) : Prop :=
  ∀ name m t, d.registry.table name = .ok m → db.table m = .ok t →
    ∀ raw ∈ setOf d sets name, ∃ row ∈ t.rows, raw = memberIn m row

/-- Whether the member of a row is in the set of its model. -/
def isMirrored (d : Deployment) (sets : Entries (List String)) (m : Model) (row : Row) : Bool :=
  (setOf d sets m.name).contains (memberIn m row)

/-- The table with those rows whose members are in the set. -/
def mirroredTable (d : Deployment) (sets : Entries (List String)) (t : Table) : Table :=
  { t with rows := t.rows.filter (isMirrored d sets t.model) }

/-- The database with those rows whose members are in the sets. -/
def mirroredPart (d : Deployment) (sets : Entries (List String)) (db : Database) : Database :=
  ⟨db.tables.map fun e => (e.1, mirroredTable d sets e.2)⟩

/-- The table of a model in the part. -/
theorem table_mirroredPart (ht : db.table m = .ok t) :
    (mirroredPart d sets db).table m = .ok (mirroredTable d sets t) := by
  unfold Database.table at ht ⊢
  have hget : Entries.get? (mirroredPart d sets db).tables m.name =
      (Entries.get? db.tables m.name).map (mirroredTable d sets) := Entries.get?_map _ _ _
  rw [hget]
  cases hold : Entries.get? db.tables m.name with
  | none =>
    rw [hold] at ht
    cases ht
  | some t' =>
    rw [hold] at ht
    rw [Except.ok.inj ht]
    rfl

/-- The mirrored rows of a typed table make a typed table. -/
theorem isTyped_mirroredTable (ht : t.IsTyped m) : (mirroredTable d sets t).IsTyped m :=
  ⟨ht.model_eq, ht.keyed.sublist List.filter_sublist,
    fun row hrow => ht.rows row (List.mem_filter.mp hrow).1⟩

/-- A mirrored row is a row whose member is in the set. -/
theorem mem_mirroredTable (hr : d.registry.IsMirrored) (hm : d.registry.table name = .ok m)
    (ht : t.IsTyped m) {row : Row} : row ∈ (mirroredTable d sets t).rows ↔
      row ∈ t.rows ∧ memberIn m row ∈ setOf d sets name := by
  rw [mirroredTable, List.mem_filter, isMirrored, List.contains_iff_mem, ht.model_eq,
    hr.sound.name_eq (Registry.model?_of_table hm)]

/-- The part of a typed database is typed. -/
theorem isTyped_mirroredPart (hdb : db.IsTyped d.registry) :
    (mirroredPart d sets db).IsTyped d.registry := by
  intro name m hm
  obtain ⟨t, ht, htyped⟩ := hdb name m hm
  exact ⟨_, table_mirroredPart ht, isTyped_mirroredTable htyped⟩

/-- Sets that reflect a typed database mirror the part of it. -/
theorem Reflects.coherent (h : Reflects d sets db) (hr : d.registry.IsMirrored)
    (hdb : db.IsTyped d.registry) (hsorted : AreSorted sets) :
    Coherent d sets (mirroredPart d sets db) := by
  intro name m t' hm ht'
  obtain ⟨t, ht, htyped⟩ := hdb name m hm
  obtain rfl := Except.ok.inj ((table_mirroredPart ht).symm.trans ht')
  refine ⟨hsorted.nodup _, fun raw => ⟨fun hraw => ?_, ?_⟩⟩
  · obtain ⟨row, hrow, rfl⟩ := h name m t hm ht raw hraw
    exact ⟨row, (mem_mirroredTable hr hm htyped).mpr ⟨hrow, hraw⟩, recordIn m row,
      encode_recordIn hr hm htyped hrow⟩
  · rintro ⟨row, hrow, record, hrecord, hencode⟩
    obtain ⟨hmem, hmirrored⟩ := (mem_mirroredTable hr hm htyped).mp hrow
    obtain ⟨hrecord', hencode'⟩ := encode_recordIn hr hm htyped hmem
    rw [hrecord'] at hrecord
    rw [← Except.ok.inj hrecord, hencode'] at hencode
    rw [← Except.ok.inj hencode]
    exact hmirrored

/-- Sorted sets mirror a typed database exactly if the members of each set are those of the rows. -/
theorem coherent_iff (hr : d.registry.IsMirrored) (hdb : db.IsTyped d.registry)
    (hsorted : AreSorted sets) :
    Coherent d sets db ↔ ∀ name m t, d.registry.table name = .ok m → db.table m = .ok t →
      ∀ raw, raw ∈ setOf d sets name ↔ raw ∈ t.rows.map (memberIn m) := by
  constructor
  · intro hc name m t hm ht raw
    obtain ⟨t', ht', htyped⟩ := hdb name m hm
    obtain rfl := Except.ok.inj (ht.symm.trans ht')
    exact (hc.members_perm hr hm ht htyped).mem_iff
  · intro h
    refine Coherent.of_perm hr hdb fun name m t hm ht => ?_
    obtain ⟨t', ht', htyped⟩ := hdb name m hm
    obtain rfl := Except.ok.inj (ht.symm.trans ht')
    exact (List.perm_ext_iff_of_nodup (hsorted.nodup _) (nodup_members hr hm htyped)).mpr
      (h name m t hm ht)

/-- A search finds the members of those selected records that are in the set. -/
theorem Reflects.matching_leads (h : Reflects d sets db) (hr : d.registry.IsMirrored)
    (hdb : db.IsTyped d.registry) (hsorted : AreSorted sets) (hm : d.registry.table name = .ok m)
    (ht : db.table m = .ok t) {where_ : Value} {f : Formula Requirement} (hf : Requires m where_ f)
    (primary : Database × List (Option Bool)) :
    ∃ found, (∀ ref, (Cache.matching d ref name where_).Leads (Stores.Stands d sets primary)
        (.ok (some found)) (Stores.Stands d sets primary)) ∧
      ∀ raw, raw ∈ found.map (·.1) ↔ raw ∈ setOf d sets name ∧
        ∃ row ∈ t.rows, raw = memberIn m row ∧ (testOf m f).selects row = true := by
  obtain ⟨t', ht', htyped⟩ := hdb name m hm
  obtain rfl := Except.ok.inj (ht.symm.trans ht')
  obtain ⟨found, hleads, hperm⟩ := (h.coherent hr hdb hsorted).matching_leads hr hm
    (table_mirroredPart ht) (isTyped_mirroredTable htyped) hf primary
  refine ⟨found, hleads, fun raw => (hperm.map Prod.fst).mem_iff.trans ?_⟩
  rw [List.map_map, List.mem_map]
  simp only [List.mem_filter, Function.comp_apply, mem_mirroredTable hr hm htyped]
  constructor
  · rintro ⟨row, ⟨⟨hrow, hmirrored⟩, hselects⟩, rfl⟩
    exact ⟨hmirrored, row, hrow, rfl, hselects⟩
  · rintro ⟨hmirrored, row, hrow, rfl, hselects⟩
    exact ⟨row, ⟨⟨hrow, hmirrored⟩, hselects⟩, rfl⟩

end TwinStore

namespace TwinStore

open Primary Filter Cache Twin

/-! ## Records with the same fields -/

/-- Records of a model with the same values are the same but for the order of their fields. -/
theorem Model.IsRecord.perm_of_field {m : Model} {record record' : Record} (h : m.IsRecord record)
    (h' : m.IsRecord record') (hm : m.IsProper)
    (hfield : ∀ a ∈ m.attributes, record.field a.name = record'.field a.name) :
    record.Perm record' := by
  refine Record.perm_of_field (h.nodup_keys hm) (h.keys.trans h'.keys.symm) fun e he => ?_
  obtain ⟨a, ha, hname, _⟩ := h.exists_attribute hm he
  rw [← hname, ← hfield a ha, hname, Record.field, Entries.get?_of_mem (h.nodup_keys hm) he,
    Option.getD_some]

section

variable {d : Deployment} {sets sets' : Entries (List String)} {db db' : Database} {name : String}
  {m : Model} {t : Table}

/-- Where no attribute is named like a model, records are written as they are. -/
theorem memberOf_record (hr : d.registry.IsMirrored) (hm : d.registry.table name = .ok m)
    {record : Record} (h : m.IsRecord record) :
    memberOf d.registry.modelNames (.map record) = .ok (memberText record) := by
  have hmodel := Registry.model?_of_table hm
  have hown : d.registry.ownFields record = record :=
    Registry.ownFields_eq_self (fun _ _ hm a ha => hr.apart hm a ha) hmodel
      fun key hkey => h.keys.mem_iff.mp hkey
  show encode (d.registry.ownFields record) = _
  rw [hown]
  exact encode_eq h (hr.sound.isProper hmodel)

/-! ## Updated records -/

/-- A field that is set has the new value, and the other fields stay. -/
theorem Model.IsProper.field_set (hm : m.IsProper) {a b : Attribute} (ha : a ∈ m.attributes)
    (hb : b ∈ m.attributes) (record : Record) (w : Value) :
    Record.field (Entries.set record a.name w) b.name = if b = a then w else record.field b.name := by
  rw [Record.field_set]
  exact if_congr ⟨List.inj_on_of_nodup_map hm hb ha, congrArg Attribute.name⟩ rfl rfl

/-- Setting a field to a value of its type gives a record of the model again. -/
theorem Model.IsRecord.set (hm : m.IsProper) {record : Record} (hrecord : m.IsRecord record)
    {a : Attribute} (ha : a ∈ m.attributes) {w : Value} (hw : a.type.Admits w) :
    m.IsRecord (Entries.set record a.name w) := by
  refine ⟨?_, fun b hb => ?_⟩
  · rw [Entries.keys_set, if_pos (hrecord.keys.mem_iff.mpr (List.mem_map_of_mem ha))]
    exact hrecord.keys
  · rw [hm.field_set ha hb]
    split_ifs with hba
    · rwa [hba]
    · exact hrecord.admits b hb

/-- New values are set one after another, each in the form of its field, whatever the record was before. -/
theorem exists_foldlM_revised (hm : m.IsProper) (hexact : ∀ a ∈ m.attributes, a.type.isExact = true)
    (record : Record) {fields : Entries Value} (hkeys : (Entries.keys fields).Nodup)
    (hknown : ∀ key ∈ Entries.keys fields, ∃ a ∈ m.attributes, a.name = key)
    (haccepts : AcceptsValues m fields) {before : Record} (hbefore : m.IsRecord before) :
    ∃ updated : Record, fields.foldlM (fun before e =>
      (revised m.attributeTypes record e.1 e.2).map (Entries.set before e.1)) before = .ok updated ∧
      m.IsRecord updated ∧ ∀ a ∈ m.attributes, match Entries.get? fields a.name with
        | some v => coerce (some a.type) v = .ok (updated.field a.name)
        | none => updated.field a.name = before.field a.name := by
  induction fields generalizing before with
  | nil => exact ⟨before, rfl, hbefore, fun _ _ => rfl⟩
  | cons e fields ih =>
    obtain ⟨key, v⟩ := e
    rw [Entries.keys_cons, List.nodup_cons] at hkeys
    obtain ⟨a, ha, hname⟩ := hknown key List.mem_cons_self
    obtain rfl : a.name = key := hname
    obtain ⟨w, hcoerce, hadmits⟩ := haccepts a ha (hexact a ha) v List.mem_cons_self
    obtain ⟨updated, hfold, hupdated, hvalues⟩ := ih hkeys.2
      (fun key hkey => hknown key (List.mem_cons_of_mem _ hkey))
      (fun b hb hexact v hv => haccepts b hb hexact v (List.mem_cons_of_mem _ hv))
      (hbefore.set hm ha hadmits)
    refine ⟨updated, ?_, hupdated, fun b hb => ?_⟩
    · have hrevised : revised m.attributeTypes record a.name v = .ok w := by
        refine revised_eq_ok.mpr ⟨v, ?_, ?_⟩
        · simp only [newValue, Database.directive?_of_accepts ⟨w, hcoerce, hadmits⟩]
        · simp only [hm.get?_attributeTypes ha, coerceFor, hcoerce]
      rw [List.foldlM_cons, hrevised]
      exact hfold
    · have hlater := hvalues b hb
      rw [Entries.get?_cons]
      by_cases hba : a.name = b.name
      · obtain rfl : b = a := List.inj_on_of_nodup_map hm hb ha hba.symm
        rw [Entries.get?_eq_none_iff.mpr hkeys.1] at hlater
        simp only at hlater
        simp only [if_true]
        rw [hlater, hm.field_set ha hb, if_pos rfl]
        exact hcoerce
      · rw [if_neg hba]
        cases hget : Entries.get? fields b.name with
        | some u =>
          rw [hget] at hlater
          exact hlater
        | none =>
          rw [hget] at hlater
          simp only at hlater ⊢
          have hne : b ≠ a := fun heq => hba (congrArg Attribute.name heq.symm)
          rw [hlater, hm.field_set ha hb, if_neg hne]

/-- A record in memory takes the new values in the forms of their fields and keeps the others. -/
theorem exists_revise (hm : m.IsProper) (hexact : ∀ a ∈ m.attributes, a.type.isExact = true)
    {fields : Entries Value} (hkeys : (Entries.keys fields).Nodup)
    (hknown : ∀ key ∈ Entries.keys fields, ∃ a ∈ m.attributes, a.name = key)
    (haccepts : AcceptsValues m fields) {record : Record} (hrecord : m.IsRecord record) :
    ∃ updated, revise fields record m.attributeTypes = .ok updated ∧ m.IsRecord updated ∧
      ∀ a ∈ m.attributes, match Entries.get? fields a.name with
        | some v => coerce (some a.type) v = .ok (updated.field a.name)
        | none => updated.field a.name = record.field a.name := by
  rw [revise_eq_foldlM]
  exact exists_foldlM_revised hm hexact record hkeys hknown haccepts hrecord

/-- An update in memory of the record of a row gives the record of the rewritten row. -/
theorem exists_revised (hr : d.registry.IsMirrored) (hm : d.registry.table name = .ok m)
    {fields : Entries Value} (hkeys : (Entries.keys fields).Nodup)
    (hknown : ∀ key ∈ Entries.keys fields, ∃ a ∈ m.attributes, a.name = key)
    (haccepts : AcceptsValues m fields) {row row' : Row} (hrow : Row.IsTyped m row)
    (hrow' : Row.IsTyped m row') (hrewrites : Rewrites m fields row row') :
    ∃ updated, revise fields (Value.sortedEntries (recordIn m row)) m.attributeTypes = .ok updated ∧
      memberOf d.registry.modelNames (.map updated) = .ok (memberIn m row') := by
  have hmodel := Registry.model?_of_table hm
  have hproper := hr.sound.isProper hmodel
  have hexact := hr.exact hmodel
  have hrecord := hrow.isRecord hproper hexact
  have hrecord' := hrow'.isRecord hproper hexact
  have hperm := sortedEntries_perm (admits_fields hrecord hproper)
  obtain ⟨updated, hrevise, hupdated, hvalues⟩ := exists_revise hproper hexact hkeys hknown haccepts
    (hrecord.perm hproper hperm.symm)
  have hread {row : Row} (hrow : Row.IsTyped m row) (a : Attribute) (ha : a ∈ m.attributes) :
      valueOf a.type (row.cell a.name) = .ok ((recordIn m row).field a.name) :=
    field_of_recordOf hproper (hrow.recordOf_eq hexact) ha
  have hsame : updated.Perm (recordIn m row') := by
    refine hupdated.perm_of_field hrecord' hproper fun a ha => ?_
    have hvalue := hvalues a ha
    have hcell := hrewrites a ha
    have hnew := hread hrow' a ha
    cases hget : Entries.get? fields a.name with
    | some v =>
      rw [hget] at hvalue hcell
      obtain ⟨w, hcoerce, hadmits, hcell⟩ := hcell
      rw [hcell, valueOf_storedCell hadmits] at hnew
      rw [← Except.ok.inj hnew]
      exact Except.ok.inj (hvalue.symm.trans hcoerce)
    | none =>
      rw [hget] at hvalue hcell
      simp only at hvalue hcell
      rw [hcell, hread hrow a ha] at hnew
      rw [hvalue, ← Except.ok.inj hnew, Record.field, Record.field,
        Entries.get?_of_perm ((hrecord.perm hproper hperm.symm).nodup_keys hproper) hperm]
  refine ⟨updated, hrevise, ?_⟩
  rw [memberOf_record hr hm hupdated, memberIn,
    (memberText_eq_iff hupdated hrecord' hproper).mpr hsame]

/-! ## Changed sets -/

theorem mem_setOf_added {key : String} {members : List String} {raw : String} :
    raw ∈ setOf d (added sets (setKey d key) members) name ↔
      raw ∈ setOf d sets name ∨ name = key ∧ raw ∈ members := by
  rw [setOf, mem_added, setKey_inj, setOf]

theorem mem_setOf_removed {key : String} {members : List String} {raw : String} :
    raw ∈ setOf d (removed sets (setKey d key) members) name ↔
      raw ∈ setOf d sets name ∧ ¬(name = key ∧ raw ∈ members) := by
  rw [setOf, mem_removed, setKey_inj, setOf]

/-- Tables of models of different names are different. -/
theorem Registry.IsSound.name_ne (hr : d.registry.IsSound) {name' : String} {m' : Model}
    (hm : d.registry.table name = .ok m) (hm' : d.registry.table name' = .ok m') (h : name' ≠ name) :
    m'.name ≠ m.name := by
  rwa [hr.name_eq (Registry.model?_of_table hm), hr.name_eq (Registry.model?_of_table hm')]

/-- The members of the records of typed rows. -/
theorem mem_members_iff (hr : d.registry.IsMirrored) (hm : d.registry.table name = .ok m)
    (ht : t.IsTyped m) {rows : List Row} (hrows : ∀ row ∈ rows, row ∈ t.rows) {stored : List Record}
    (hstored : rows.mapM (Database.recordOf m) = .ok stored) {raw : String} :
    (∃ record ∈ stored, IsMemberOf d record raw) ↔ raw ∈ rows.map (memberIn m) := by
  have hmodel := Registry.model?_of_table hm
  have hproper := hr.sound.isProper hmodel
  have hread (row : Row) (hrow : row ∈ rows) : Database.recordOf m row = .ok (recordIn m row) ∧
      memberOf d.registry.modelNames (.map (recordIn m row)) = .ok (memberIn m row) :=
    ⟨(encode_recordIn hr hm ht (hrows row hrow)).1, memberOf_record hr hm
      ((ht.rows row (hrows row hrow)).isRecord hproper (hr.exact hmodel))⟩
  obtain rfl : rows.map (recordIn m) = stored :=
    Except.ok.inj ((Outcome.mapM_eq_ok fun row hrow => (hread row hrow).1).symm.trans hstored)
  rw [List.mem_map]
  constructor
  · rintro ⟨_, hrecord, hraw⟩
    obtain ⟨row, hrow, rfl⟩ := List.mem_map.mp hrecord
    exact ⟨row, hrow, Except.ok.inj ((hread row hrow).2.symm.trans hraw)⟩
  · rintro ⟨row, hrow, rfl⟩
    exact ⟨recordIn m row, List.mem_map_of_mem hrow, (hread row hrow).2⟩

/-- When the members of new rows were added, the sets mirror the tables. -/
theorem Coherent.grown (hc : Coherent d sets db) (hr : d.registry.IsMirrored)
    (hdb : db.IsTyped d.registry) (hdb' : db'.IsTyped d.registry) (hsorted : AreSorted sets)
    (hm : d.registry.table name = .ok m) {rows : List Row} (h : Database.Gains db m rows db')
    {stored : List Record} (hstored : rows.mapM (Database.recordOf m) = .ok stored)
    (hgrown : Grown d [(name, stored)] sets sets') : Coherent d sets' db' := by
  have hold := (coherent_iff hr hdb hsorted).mp hc
  refine (coherent_iff hr hdb' (hgrown.sorted hsorted)).mpr fun name' m' t' hm' ht' raw => ?_
  rw [hgrown.mem_iff]
  by_cases hname : name' = name
  · subst hname
    obtain rfl : m = m' := Except.ok.inj (hm.symm.trans hm')
    obtain ⟨t, ht, _⟩ := hdb name' m hm
    obtain ⟨t₁, ht₁, _, hrows⟩ := h.rows t ht
    obtain rfl : t' = t₁ := Except.ok.inj (ht'.symm.trans ht₁)
    obtain ⟨t₂, ht₂, htyped⟩ := hdb' name' m hm
    obtain rfl : t' = t₂ := Except.ok.inj (ht'.symm.trans ht₂)
    have hnew : ∀ row ∈ rows, row ∈ t'.rows := fun row hrow => hrows ▸ List.mem_append_right _ hrow
    have hmembers : (∃ record ∈ stored, IsMemberOf d record raw) ↔ raw ∈ rows.map (memberIn m) := by
      rw [mem_members_iff hr hm htyped hnew hstored]
    rw [hrows, List.map_append, List.mem_append, hold name' m t hm ht, ← hmembers]
    simp
  · rw [h.others m' (hr.sound.name_ne hm hm' hname)] at ht'
    rw [← hold name' m' t' hm' ht']
    simp [Ne.symm hname]

/-- When the members of selected rows were replaced by those of the changed rows, the sets mirror the
tables. -/
theorem Coherent.altered (hc : Coherent d sets db) (hr : d.registry.IsMirrored)
    (hdb : db.IsTyped d.registry) (hdb' : db'.IsTyped d.registry) (hsorted : AreSorted sets)
    (hm : d.registry.table name = .ok m) (ht : db.table m = .ok t) {selects : Row → Bool}
    {change : Row → Row} (h : Database.Alters db m selects change db') {old new : List String}
    (hold : ∀ raw, raw ∈ old ↔ ∃ row ∈ t.rows, selects row = true ∧ raw = memberIn m row)
    (hnew : ∀ raw, raw ∈ new ↔ ∃ row ∈ t.rows, selects row = true ∧ raw = memberIn m (change row))
    (hsorted' : AreSorted sets') (hsets : ∀ name' raw, raw ∈ setOf d sets' name' ↔
      raw ∈ setOf d sets name' ∧ ¬(name' = name ∧ raw ∈ old) ∨ name' = name ∧ raw ∈ new) :
    Coherent d sets' db' := by
  refine (coherent_iff hr hdb' hsorted').mpr fun name' m' t' hm' ht' raw => ?_
  have hbefore := (coherent_iff hr hdb hsorted).mp hc
  rw [hsets]
  by_cases hname : name' = name
  · subst hname
    obtain rfl : m = m' := Except.ok.inj (hm.symm.trans hm')
    obtain ⟨t₀, ht₀, htyped⟩ := hdb name' m hm
    obtain rfl : t = t₀ := Except.ok.inj (ht.symm.trans ht₀)
    obtain ⟨t₁, ht₁, _, hrows⟩ := h.rows t ht
    obtain rfl : t' = t₁ := Except.ok.inj (ht'.symm.trans ht₁)
    rw [hbefore name' m t hm ht, hrows, List.map_map, List.mem_map, List.mem_map, hold, hnew]
    constructor
    · rintro (⟨⟨row, hrow, rfl⟩, hkept⟩ | ⟨_, row, hrow, hselects, rfl⟩)
      · refine ⟨row, hrow, ?_⟩
        rw [Function.comp_apply, if_neg fun hselects => hkept ⟨rfl, row, hrow, hselects, rfl⟩]
      · exact ⟨row, hrow, by rw [Function.comp_apply, if_pos hselects]⟩
    · rintro ⟨row, hrow, rfl⟩
      rw [Function.comp_apply]
      split_ifs with hselects
      · exact .inr ⟨rfl, row, hrow, hselects, rfl⟩
      · refine .inl ⟨⟨row, hrow, rfl⟩, ?_⟩
        rintro ⟨_, row', hrow', hselects', hsame⟩
        exact hselects (memberIn_inj hr hm htyped hrow hrow' hsame ▸ hselects')
  · rw [h.others m' (hr.sound.name_ne hm hm' hname)] at ht'
    simp [hbefore name' m' t' hm' ht', hname]

/-! ## Updates of both stores -/

/-- An update that has assignments names attributes only. -/
theorem exists_attribute_of_assignments {fields : Entries Value} {values : Entries Assignment}
    (hm : m.IsProper) (h : assignments fields m = .ok values) :
    ∀ key ∈ Entries.keys fields, ∃ a ∈ m.attributes, a.name = key := by
  intro key hkey
  obtain ⟨e, he, rfl⟩ := List.mem_map.mp hkey
  obtain ⟨e', _, hassign⟩ := Outcome.exists_result_of_mem h he
  simp only at hassign
  split at hassign
  · next type htype =>
    obtain ⟨a, ha, hname, _⟩ := hm.exists_attribute htype
    exact ⟨a, ha, hname⟩
  · cases hassign

/-- The members of updated records are those of the rewritten rows. -/
theorem exists_updatedMembers (hr : d.registry.IsMirrored) (hm : d.registry.table name = .ok m)
    {fields : Entries Value} (hkeys : (Entries.keys fields).Nodup)
    (hknown : ∀ key ∈ Entries.keys fields, ∃ a ∈ m.attributes, a.name = key)
    (haccepts : AcceptsValues m fields) {rows : List Row} {change : Row → Row}
    (hrows : ∀ row ∈ rows, Row.IsTyped m row ∧ Row.IsTyped m (change row) ∧
      Rewrites m fields row (change row)) {records : List Record}
    (hrecords : records.Perm (rows.map fun row => Value.sortedEntries (recordIn m row))) :
    ∃ members, updatedMembers d name (.map fields) records = .ok members ∧
      members.Perm (rows.map fun row => memberIn m (change row)) := by
  have htypes := Registry.attributeTypes_of_table hm
  let revised (record : Record) : Record := (revise fields record m.attributeTypes).get
  let member (record : Record) : String := (memberOf d.registry.modelNames (.map record)).get
  have hrevise (row : Row) (hrow : row ∈ rows) :
      revise fields (Value.sortedEntries (recordIn m row)) m.attributeTypes =
        .ok (revised (Value.sortedEntries (recordIn m row))) ∧
      memberOf d.registry.modelNames (.map (revised (Value.sortedEntries (recordIn m row)))) =
        .ok (memberIn m (change row)) := by
    obtain ⟨hrow, hrow', hrewrites⟩ := hrows row hrow
    obtain ⟨updated, hupdated, hmember⟩ := exists_revised hr hm hkeys hknown haccepts hrow hrow' hrewrites
    simp only [revised, hupdated]
    exact ⟨rfl, hmember⟩
  have hall (record : Record) (hrecord : record ∈ records) : ∃ row ∈ rows,
      Value.sortedEntries (recordIn m row) = record := List.mem_map.mp (hrecords.mem_iff.mp hrecord)
  refine ⟨records.map fun record => member (revised record), ?_, ?_⟩
  · have hfirst : records.mapM (fun record => revise fields record m.attributeTypes) =
        .ok (records.map revised) := Outcome.mapM_eq_ok fun record hrecord => by
      obtain ⟨row, hrow, rfl⟩ := hall record hrecord
      exact (hrevise row hrow).1
    have hsecond : (records.map revised).mapM (fun record =>
        memberOf d.registry.modelNames (.map record)) =
        .ok ((records.map revised).map member) := Outcome.mapM_eq_ok fun updated hupdated => by
      obtain ⟨record, hrecord, rfl⟩ := List.mem_map.mp hupdated
      obtain ⟨row, hrow, rfl⟩ := hall record hrecord
      simp only [member, (hrevise row hrow).2]
      rfl
    rw [updatedMembers, Value.entries, Outcome.ok_bind, htypes, hfirst, Outcome.ok_bind, hsecond,
      List.map_map]
    rfl
  · refine (hrecords.map _).trans (List.Perm.of_eq ?_)
    rw [List.map_map]
    refine List.map_congr_left fun row hrow => ?_
    simp only [Function.comp_apply, member, (hrevise row hrow).2]
    rfl

/-- An update that the primary store carried out is carried out in the cache, and the sets mirror the
tables again. -/
theorem exists_update_leads (hr : d.registry.IsMirrored) (hdb : db.IsTyped d.registry)
    (hsorted : Cache.AreSorted sets) (hc : Coherent d sets db) (hm : d.registry.table name = .ok m)
    {spec where_ : Value} (haccepts : AcceptsRecord m spec)
    (hkeys : ∀ fields, spec.entries = .ok fields → (Entries.keys fields).Nodup)
    {f : Formula Requirement} (hf : Requires m where_ f) {db' : Database} {counts : ChangeCounts}
    (hchanging : changing m spec where_ db = .ok (db', counts)) :
    ∃ sets' answer, (∀ given, (Cache.update d given name spec where_).Leads
        (Stores.Stands d sets (db', [])) (.ok (some answer)) (Stores.Stands d sets' (db', []))) ∧
      Cache.AreSorted sets' ∧ Coherent d sets' db' := by
  have hmodel := Registry.model?_of_table hm
  have hproper := hr.sound.isProper hmodel
  have hdb' := isTyped_changing hr.sound hm hdb haccepts hchanging
  obtain ⟨t, ht, htyped⟩ := hdb name m hm
  obtain ⟨_, _, hrest⟩ := Outcome.bind_eq_ok.mp hchanging
  obtain ⟨fields, hfields, hrest⟩ := Outcome.bind_eq_ok.mp hrest
  obtain ⟨values, hvalues, _⟩ := Outcome.bind_eq_ok.mp hrest
  obtain rfl : spec = .map fields := by
    cases spec with
    | map entries => exact congrArg Value.map (Except.ok.inj hfields)
    | _ => cases hfields
  have haccepts := haccepts fields rfl
  have hkeys := hkeys fields rfl
  have hknown := exists_attribute_of_assignments hproper hvalues
  obtain ⟨change, halters, hrewrites⟩ :=
    alters_changing hr.sound hdb hm (hr.exact hmodel) hf rfl haccepts hchanging
  obtain ⟨t', ht', _, hrows'⟩ := halters.rows t ht
  obtain ⟨t₁, ht₁, htyped'⟩ := hdb' name m hm
  obtain rfl : t' = t₁ := Except.ok.inj (ht'.symm.trans ht₁)
  obtain ⟨found, hfound, hperm⟩ := hc.matching_leads hr hm ht htyped hf (db', [])
  have hselected : ∀ row ∈ t.rows.filter (testOf m f).selects, Row.IsTyped m row ∧
      Row.IsTyped m (change row) ∧ Rewrites m fields row (change row) := by
    intro row hrow
    obtain ⟨hrow, hselects⟩ := List.mem_filter.mp hrow
    refine ⟨htyped.rows row hrow, htyped'.rows _ ?_, hrewrites t ht row hrow hselects⟩
    rw [hrows', List.mem_map]
    exact ⟨row, hrow, if_pos hselects⟩
  have hrecords := hperm.map Prod.snd
  have hold := hperm.map Prod.fst
  rw [List.map_map] at hrecords hold
  obtain ⟨members, hmembers, hnew⟩ :=
    exists_updatedMembers hr hm hkeys hknown haccepts hselected hrecords
  have hfields : ∀ key ∈ Entries.keys fields,
      Entries.has (d.registry.attributeTypes name) key = true := by
    intro key hkey
    obtain ⟨a, ha, rfl⟩ := hknown key hkey
    rw [Registry.attributeTypes_of_table hm, Entries.has, hproper.get?_attributeTypes ha]
    rfl
  have hmem (g : Row → String) (raw : String) :
      raw ∈ (t.rows.filter (testOf m f).selects).map g ↔
        ∃ row ∈ t.rows, (testOf m f).selects row = true ∧ raw = g row := by
    simp only [List.mem_map, List.mem_filter, and_assoc, eq_comm]
  have hsorted' : AreSorted (if found.isEmpty then sets
      else added (removed sets (setKey d name) (found.map (·.1))) (setKey d name) members) := by
    split_ifs
    · exact hsorted
    · exact (hsorted.removed _ _).added _ _
  refine ⟨_, _, fun given => Cache.update_leads (Registry.hasModel_of_table hm) given
    (updatedFields_map fields) hfields hfound hmembers, hsorted', hc.altered hr hdb hdb' hsorted hm ht
    halters (fun raw => hold.mem_iff.trans (hmem _ raw)) (fun raw => hnew.mem_iff.trans (hmem _ raw))
    hsorted' fun name' raw => ?_⟩
  split_ifs with hempty
  · have hnone := List.isEmpty_iff.mp hempty
    have hlength := hold.length_eq
    rw [hnone] at hlength
    have hmembers : members = [] := by
      rw [← List.length_eq_zero_iff, hnew.length_eq, List.length_map]
      simpa using hlength.symm
    simp [hnone, hmembers]
  · rw [mem_setOf_added, mem_setOf_removed]

end

end TwinStore
