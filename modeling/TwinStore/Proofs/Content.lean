import TwinStore.Proofs.KeyFilters
import TwinStore.Proofs.PrimaryEffects
import TwinStore.Proofs.Statements

/-!
# Records by their keys

Where models have keys and the columns of keys hold values of their types, a record is told from all
others by its key: a query by key finds what is stored, and deleting a row deletes that row alone.

Main definitions:

- `Registry.HasKeys`: registries whose keys can be compared.
- `Database.IsOrderly`: contents of the primary store with keys of their types.
- `Item`, `Database.Holds`: a record with its model, and whether it is stored.
- `Database.Without`: what is left of a content when some records are gone.

Main results:

- Theorem `query_gives_stored`: a query gives the stored records that its test selects, each once.
- Theorem `destroy_gives_without`: destroying a stored record leaves all others.
-/

namespace TwinStore

open Primary Filter

/-! ## Keys of a registry -/

namespace Registry

/-- Whether a field of a model is a key: of its records, or in one of its relations, or in a relation
to it. -/
def IsKey (r : Registry) (name field : String) : Prop :=
  field ∈ r.primaryKeys name ∨ (∃ e ∈ r.relationsOf name, e.2.thisKey = field) ∨
    ∃ other, ∃ e ∈ r.relationsOf other, e.1 = name ∧ e.2.otherKey = field

/-- Whether all models have keys, and all keys are of exact types. -/
structure IsKeyed (r : Registry) : Prop where
  hasPrimary : ∀ {name m}, r.model? name = some m → m.primaryKeys ≠ []
  isExact : ∀ {name m}, r.model? name = some m → ∀ a ∈ m.attributes, r.IsKey name a.name →
    a.type.isExact = true

/-- Whether all models have keys, all keys are of exact types, and the two keys of a relation have one
type. -/
structure HasKeys (r : Registry) : Prop where
  hasPrimary : ∀ {name m}, r.model? name = some m → m.primaryKeys ≠ []
  isExact : ∀ {name m}, r.model? name = some m → ∀ a ∈ m.attributes, r.IsKey name a.name →
    a.type.isExact = true
  type_eq : ∀ {name target relation m other}, (target, relation) ∈ r.relationsOf name →
    r.model? name = some m → r.model? target = some other →
    ∀ a ∈ m.attributes, a.name = relation.thisKey →
    ∀ b ∈ other.attributes, b.name = relation.otherKey → a.type = b.type

/-- Such registries have keys of exact types. -/
theorem HasKeys.isKeyed {r : Registry} (hkeys : r.HasKeys) : r.IsKeyed :=
  ⟨hkeys.hasPrimary, hkeys.isExact⟩

end Registry

namespace Model

/-- The attributes that are keys of the records. -/
def keyAttributes (m : Model) : List Attribute := m.attributes.filter (·.primaryKey)

end Model

/-! ## Contents of the primary store -/

/-- A record with the name of its model. -/
structure Item where
  model : String
  record : Record

namespace Primary

/-- Whether a table belongs to a model, satisfies its constraints, can be read, and holds keys of
their types. -/
structure Table.IsOrderly (r : Registry) (name : String) (m : Model) (t : Table) : Prop where
  model_eq : t.model = m
  keyed : Table.AreKeyed m t.rows
  readable : ∀ row ∈ t.rows, ∃ record, Database.recordOf m row = .ok record
  fits : ∀ row ∈ t.rows, ∀ a ∈ m.attributes, r.IsKey name a.name → (row.cell a.name).Fits a.type

namespace Database

/-- Whether all tables of a database are orderly. -/
def IsOrderly (r : Registry) (db : Database) : Prop :=
  ∀ name m, r.table name = .ok m → ∃ t, db.table m = .ok t ∧ t.IsOrderly r name m

/-- Whether a record is stored in the table of its model. -/
def Holds (r : Registry) (db : Database) (o : Item) : Prop :=
  ∃ m t row, r.table o.model = .ok m ∧ db.table m = .ok t ∧ row ∈ t.rows ∧
    recordOf m row = .ok o.record

/-- Whether a database is what is left of another one when some records are gone. -/
def Without (r : Registry) (before : Database) (gone : List Item) (after : Database) : Prop :=
  ∀ name m t, r.table name = .ok m → before.table m = .ok t →
    ∃ t', after.table m = .ok t' ∧ t'.model = t.model ∧ t'.rows.Sublist t.rows ∧
      ∀ row ∈ t.rows, ∀ record, recordOf m row = .ok record →
        (row ∈ t'.rows ↔ ⟨name, record⟩ ∉ gone)

end Database

variable {r : Registry} {name : String} {m : Model} {t : Table} {row : Row} {record : Record}

/-- A typed table of exact types is orderly. -/
theorem Table.IsTyped.isOrderly (ht : t.IsTyped m)
    (hexact : ∀ a ∈ m.attributes, a.type.isExact = true) : t.IsOrderly r name m where
  model_eq := ht.model_eq
  keyed := ht.keyed
  readable row hrow := exists_recordOf hexact (ht.rows row hrow)
  fits row hrow a ha _ := ht.rows row hrow a ha (hexact a ha)

/-- A typed database of exact types is orderly. -/
theorem Database.IsTyped.isOrderly {db : Database} (hdb : db.IsTyped r)
    (hexact : ∀ {name m}, r.model? name = some m → ∀ a ∈ m.attributes, a.type.isExact = true) :
    db.IsOrderly r := by
  intro name m hm
  obtain ⟨t, ht, htyped⟩ := hdb name m hm
  exact ⟨t, ht, htyped.isOrderly (hexact (Registry.model?_of_table hm))⟩

namespace Table.IsOrderly

/-- A key in a record is a value of its type, whose cell stands in the row. -/
theorem key_of_recordOf (ht : t.IsOrderly r name m) (hm : m.IsProper) (hrow : row ∈ t.rows)
    (hrecord : Database.recordOf m row = .ok record) {a : Attribute} (ha : a ∈ m.attributes)
    (hkey : r.IsKey name a.name) :
    a.type.Admits (record.field a.name) ∧ row.cell a.name = storedCell (record.field a.name) := by
  obtain ⟨v, hv, hcell⟩ := ht.fits row hrow a ha hkey
  have hvalue := field_of_recordOf hm hrecord ha
  rw [hcell, valueOf_storedCell hv] at hvalue
  rw [← Except.ok.inj hvalue]
  exact ⟨hv, hcell⟩

/-- A primary key in a record is not null. -/
theorem holds_of_recordOf (ht : t.IsOrderly r name m) (hm : m.IsProper)
    (hmodel : r.model? name = some m) (hrow : row ∈ t.rows)
    (hrecord : Database.recordOf m row = .ok record) {a : Attribute} (ha : a ∈ m.keyAttributes) :
    a ∈ m.attributes ∧ r.IsKey name a.name ∧ a.type.Holds (record.field a.name) ∧
      row.cell a.name = storedCell (record.field a.name) := by
  obtain ⟨hmem, hprimary⟩ := List.mem_filter.mp ha
  have hkey : r.IsKey name a.name := by
    refine Or.inl ?_
    rw [Registry.primaryKeys, hmodel]
    exact List.mem_map_of_mem ha
  obtain ⟨hadmits, hcell⟩ := ht.key_of_recordOf hm hrow hrecord hmem hkey
  refine ⟨hmem, hkey, hadmits.resolve_left fun hnull => ?_, hcell⟩
  have hfilled := List.all_eq_true.mp (ht.keyed.filled row hrow) a hmem
  rw [hcell, hnull] at hfilled
  simp [storedCell, Attribute.isNullable, hprimary] at hfilled

/-- Rows whose records have the same keys are the same row. -/
theorem eq_of_keys (ht : t.IsOrderly r name m) (hm : m.IsProper) (hmodel : r.model? name = some m)
    (hprimary : m.primaryKeys ≠ []) {row row' : Row} {record record' : Record} (hrow : row ∈ t.rows)
    (hrow' : row' ∈ t.rows) (hrecord : Database.recordOf m row = .ok record)
    (hrecord' : Database.recordOf m row' = .ok record')
    (hkeys : ∀ a ∈ m.keyAttributes, record.field a.name = record'.field a.name) : row = row' := by
  refine ht.keyed.eq_of_sameKey hrow hrow' ?_
  rw [Table.sameKey, Bool.and_eq_true, Bool.not_eq_true', List.isEmpty_eq_false_iff,
    List.all_eq_true]
  refine ⟨hprimary, fun k hk => ?_⟩
  obtain ⟨a, ha, rfl⟩ := List.mem_map.mp hk
  obtain ⟨_, _, hholds, hcell⟩ := ht.holds_of_recordOf hm hmodel hrow hrecord ha
  obtain ⟨_, _, hholds', hcell'⟩ := ht.holds_of_recordOf hm hmodel hrow' hrecord' ha
  rw [hcell, hcell', sameKey_storedCell_iff hholds hholds']
  exact hkeys a ha

end Table.IsOrderly

/-! ## Queries -/

/-- Whether a filter is read as a test on the rows of a model. -/
def Tests (m : Model) (where_ : Value) (test : Test) : Prop :=
  ∃ clause prepared, (toClause where_ m).run.2 = .ok clause ∧
    Database.prepare clause = .ok prepared ∧ Database.ready prepared = .ok test

/-- An accepted filter is read as its test. -/
theorem Tests.of_requires {where_ : Value} {f : Formula Requirement} (hf : Requires m where_ f) :
    Tests m where_ (testOf m f) := by
  obtain ⟨lines, hclause, _⟩ := hf.run_eq
  obtain ⟨prepared, hprepare, hready⟩ := hf.2.prepare_eq
  exact ⟨clauseOf m f, prepared, by rw [hclause], hprepare, hready⟩

/-- A filter is read as one test only. -/
theorem Tests.unique {where_ : Value} {test test' : Test} (h : Tests m where_ test)
    (h' : Tests m where_ test') : test = test' := by
  obtain ⟨clause, prepared, hclause, hprepare, hready⟩ := h
  obtain ⟨clause', prepared', hclause', hprepare', hready'⟩ := h'
  obtain rfl : clause = clause' := Except.ok.inj (hclause.symm.trans hclause')
  obtain rfl : prepared = prepared' := Except.ok.inj (hprepare.symm.trans hprepare')
  exact Except.ok.inj (hready.symm.trans hready')

/-- The records of the rows that a test selects. -/
def recordsOf (t : Table) (test : Test) : List Record :=
  (t.select test).map fun row => (Database.recordOf t.model row).get

namespace Table.IsOrderly

variable {test : Test}

/-- The record of a row of an orderly table. -/
theorem recordOf_eq (ht : t.IsOrderly r name m) (hrow : row ∈ t.rows) :
    Database.recordOf m row = .ok (Database.recordOf m row).get := by
  obtain ⟨record, hrecord⟩ := ht.readable row hrow
  rw [hrecord]
  rfl

theorem mem_select {row : Row} : row ∈ t.select test ↔ row ∈ t.rows ∧ test.selects row = true := by
  rw [Table.select, Table.sorted, List.mem_mergeSort, List.mem_filter]

/-- The records of the selected rows. -/
theorem mem_recordsOf (ht : t.IsOrderly r name m) {record : Record} :
    record ∈ recordsOf t test ↔
      ∃ row ∈ t.rows, Database.recordOf m row = .ok record ∧ test.selects row = true := by
  rw [recordsOf, ht.model_eq, List.mem_map]
  constructor
  · rintro ⟨row, hrow, rfl⟩
    obtain ⟨hrow, hselects⟩ := mem_select.mp hrow
    exact ⟨row, hrow, ht.recordOf_eq hrow, hselects⟩
  · rintro ⟨row, hrow, hrecord, hselects⟩
    exact ⟨row, mem_select.mpr ⟨hrow, hselects⟩, by rw [hrecord]; rfl⟩

/-- No row of an orderly table occurs twice. -/
theorem nodup_rows (ht : t.IsOrderly r name m) (hm : m.IsProper) (hmodel : r.model? name = some m)
    (hprimary : m.primaryKeys ≠ []) : t.rows.Nodup := by
  refine ht.keyed.distinct.imp_of_mem fun {a b} ha _ hdistinct heq => ?_
  subst heq
  have hself : Table.sameKey m a a = true := by
    rw [Table.sameKey, Bool.and_eq_true, Bool.not_eq_true', List.isEmpty_eq_false_iff,
      List.all_eq_true]
    refine ⟨hprimary, fun k hk => ?_⟩
    obtain ⟨b, hb, rfl⟩ := List.mem_map.mp hk
    obtain ⟨_, _, hholds, hcell⟩ := ht.holds_of_recordOf hm hmodel ha (ht.recordOf_eq ha) hb
    rw [hcell, sameKey_storedCell_iff hholds hholds]
  rw [hself] at hdistinct
  cases hdistinct

/-- No selected record occurs twice. -/
theorem nodup_recordsOf (ht : t.IsOrderly r name m) (hm : m.IsProper)
    (hmodel : r.model? name = some m) (hprimary : m.primaryKeys ≠ []) :
    (recordsOf t test).Nodup := by
  have hperm : (t.select test).Perm (t.rows.filter test.selects) := List.mergeSort_perm _ _
  rw [recordsOf, ht.model_eq]
  refine List.Nodup.map_on (fun a ha b hb heq => ?_)
    (hperm.nodup_iff.mpr ((ht.nodup_rows hm hmodel hprimary).filter _))
  have ha := (mem_select.mp ha).1
  have hb := (mem_select.mp hb).1
  exact ht.eq_of_keys hm hmodel hprimary ha hb (ht.recordOf_eq ha) (ht.recordOf_eq hb)
    fun a _ => by rw [heq]

end Table.IsOrderly

/-- A query without plans is a selection. -/
theorem selectWith_nil (r : Registry) (db : Database) (m : Model) (clause : Clause Comparison) :
    selectWith r db m clause [] = db.select m clause := by
  have hkept (records : List Record) : kept (keptAll records) = records := by
    have hall : (keptAll records).filter (·.2) = keptAll records := by
      refine List.filter_eq_self.mpr fun e he => ?_
      obtain ⟨record, _, rfl⟩ := List.mem_map.mp he
      rfl
    rw [kept, hall, keptAll, List.map_map]
    exact List.map_id records
  rw [selectWith]
  simp only [attachPlans, Outcome.ok_bind, hkept]
  cases db.select m clause <;> rfl

/-- A query gives the records of the rows that its test selects. -/
theorem query_gives_stored {d : Deployment} {c : Stores} (hm : d.registry.table name = .ok m)
    (ht : c.database.table m = .ok t) (horderly : t.IsOrderly d.registry name m) {where_ : Value}
    {test : Test} (htest : Tests m where_ test) (given : Option CorrelationRef) :
    (query d given name (.filter where_) .null []).Gives c (.ok (some (recordsOf t test))) c := by
  have hquery := query_gives hm given (.filter where_) [] c
  obtain ⟨clause, prepared, hclause, hprepare, hready⟩ := htest
  have hselect : c.database.select m clause = .ok (recordsOf t test) := by
    rw [Database.select, Database.tableAndTest, hprepare, Outcome.ok_bind, ht, Outcome.ok_bind,
      hready]
    refine (Outcome.mapM_eq_ok fun row hrow => ?_)
    rw [horderly.model_eq]
    exact horderly.recordOf_eq (Table.IsOrderly.mem_select.mp hrow).1
  rw [Selection.toClause, hclause, Outcome.ok_bind, selectWith_nil, hselect] at hquery
  exact hquery

/-- A filter by which a query succeeds is read as a test. -/
theorem exists_tests {d : Deployment} {s s' : Stores} (hm : d.registry.table name = .ok m)
    {given : Option CorrelationRef} {where_ : Value} {rows : List Record}
    (h : runFrom (query d given name (.filter where_) .null []) s = (.ok (some rows), s')) :
    ∃ test, Tests m where_ test := by
  have hanswer := ((query_gives hm given (.filter where_) [] s.content).outcome_eq rfl h).1
  rw [Selection.toClause] at hanswer
  cases hclause : (toClause where_ m).run.2 with
  | error fault =>
    rw [hclause, Outcome.error_bind, answered] at hanswer
    split_ifs at hanswer
    · cases hanswer
  | ok clause =>
    rw [hclause, Outcome.ok_bind, selectWith_nil] at hanswer
    cases hselect : s.content.database.select m clause with
    | error fault =>
      rw [hselect, answered] at hanswer
      split_ifs at hanswer
      · cases hanswer
    | ok records =>
      obtain ⟨⟨t, test⟩, htest, _⟩ := Outcome.bind_eq_ok.mp hselect
      obtain ⟨prepared, hprepare, htest⟩ := Outcome.bind_eq_ok.mp htest
      obtain ⟨t', _, htest⟩ := Outcome.bind_eq_ok.mp htest
      obtain ⟨test', hready, _⟩ := Outcome.bind_eq_ok.mp htest
      exact ⟨test', clause, prepared, hclause, hprepare, hready⟩

/-! ## What is left -/

namespace Database

variable {db db' db'' : Database} {gone gone' : List Item}

/-- Nothing is gone at first. -/
theorem without_nil (r : Registry) (db : Database) : Without r db [] db :=
  fun _ _ t _ ht => ⟨t, ht, rfl, List.Sublist.refl _, fun _ hrow _ _ => by simp [hrow]⟩

/-- What is left of an orderly content is orderly. -/
theorem Without.isOrderly (h : Without r db gone db') (hdb : db.IsOrderly r) :
    db'.IsOrderly r := by
  intro name m hm
  obtain ⟨t, ht, horderly⟩ := hdb name m hm
  obtain ⟨t', ht', hmodel, hsub, _⟩ := h name m t hm ht
  exact ⟨t', ht', hmodel.trans horderly.model_eq, horderly.keyed.sublist hsub,
    fun row hrow => horderly.readable row (hsub.subset hrow),
    fun row hrow => horderly.fits row (hsub.subset hrow)⟩

/-- What is left is what was stored and is not gone. -/
theorem Without.holds_iff (h : Without r db gone db') (hdb : db.IsOrderly r) (o : Item) :
    db'.Holds r o ↔ db.Holds r o ∧ o ∉ gone := by
  constructor
  · rintro ⟨m, t', row, hm, ht', hrow, hrecord⟩
    obtain ⟨t, ht, _⟩ := hdb o.model m hm
    obtain ⟨t'', ht'', _, hsub, hiff⟩ := h o.model m t hm ht
    obtain rfl : t' = t'' := Except.ok.inj (ht'.symm.trans ht'')
    have hmem := hsub.subset hrow
    exact ⟨⟨m, t, row, hm, ht, hmem, hrecord⟩, (hiff row hmem o.record hrecord).mp hrow⟩
  · rintro ⟨⟨m, t, row, hm, ht, hrow, hrecord⟩, hgone⟩
    obtain ⟨t', ht', _, _, hiff⟩ := h o.model m t hm ht
    exact ⟨m, t', row, hm, ht', (hiff row hrow o.record hrecord).mpr hgone, hrecord⟩

/-- What is left of what was left. -/
theorem Without.trans (h : Without r db gone db') (h' : Without r db' gone' db'') :
    Without r db (gone ++ gone') db'' := by
  intro name m t hm ht
  obtain ⟨t', ht', hmodel, hsub, hiff⟩ := h name m t hm ht
  obtain ⟨t'', ht'', hmodel', hsub', hiff'⟩ := h' name m t' hm ht'
  refine ⟨t'', ht'', hmodel'.trans hmodel, hsub'.trans hsub, fun row hrow record hrecord => ?_⟩
  rw [List.mem_append, not_or, ← hiff row hrow record hrecord]
  constructor
  · intro hmem
    have hleft := hsub'.subset hmem
    exact ⟨hleft, (hiff' row hleft record hrecord).mp hmem⟩
  · rintro ⟨hleft, hgone⟩
    exact (hiff' row hleft record hrecord).mpr hgone

/-- A stored record is what is read from one row. -/
theorem Holds.elim {o : Item} (h : db.Holds r o) (hm : r.table o.model = .ok m)
    (ht : db.table m = .ok t) : ∃ row ∈ t.rows, recordOf m row = .ok o.record := by
  obtain ⟨m', t', row, hm', ht', hrow, hrecord⟩ := h
  obtain rfl : m = m' := Except.ok.inj (hm.symm.trans hm')
  obtain rfl : t = t' := Except.ok.inj (ht.symm.trans ht')
  exact ⟨row, hrow, hrecord⟩

end Database

/-! ## Destruction -/

/-- Deleting the row of a record by its key leaves all other rows. -/
theorem without_delete (hr : r.IsSound) (hkeys : r.IsKeyed) {db : Database} (hm : r.table name = .ok m)
    (ht : db.table m = .ok t) (horderly : t.IsOrderly r name m) (hrow : row ∈ t.rows)
    (hrecord : Database.recordOf m row = .ok record) :
    Database.Without r db [⟨name, record⟩] (db.put (t.delete (testOf m (.conj
      (m.keyAttributes.map fun a => .leaf ⟨a.name, .eq, record.field a.name⟩)))).1) := by
  have hmodel := Registry.model?_of_table hm
  have hproper := hr.isProper hmodel
  have hkey {a : Attribute} (ha : a ∈ m.keyAttributes) :=
    horderly.holds_of_recordOf hproper hmodel hrow hrecord ha
  have hselects (row' : Row) := selects_sameFilter hproper (fun a ha => ⟨(hkey ha).1,
    hkeys.isExact hmodel a (hkey ha).1 (hkey ha).2.1,
    (hkey ha).2.2.1⟩) row'
  generalize testOf m (.conj (m.keyAttributes.map fun a =>
    .leaf ⟨a.name, .eq, record.field a.name⟩)) = test at hselects ⊢
  have hmodel' : (t.delete test).1.model = m := horderly.model_eq
  intro name' m' t' hm' ht'
  rcases Database.table_put_cases db hr hm hmodel' hm' with ⟨rfl, rfl, hself⟩ | ⟨hname, hother⟩
  · obtain rfl : t = t' := Except.ok.inj (ht.symm.trans ht')
    refine ⟨(t.delete test).1, hself, rfl, List.filter_sublist, fun row' hrow' record' hrecord' => ?_⟩
    · have hmem : row' ∈ (t.delete test).1.rows ↔ test.selects row' = false := by
        simp [Table.delete, hrow']
      rw [hmem, hselects, List.mem_singleton, Item.mk.injEq, eq_self_iff_true, true_and,
        ← Bool.not_eq_true, not_iff_not, List.all_eq_true]
      constructor
      · intro hsame
        have heq := horderly.eq_of_keys hproper hmodel (hkeys.hasPrimary hmodel) hrow' hrow hrecord'
          hrecord fun a ha => by
            obtain ⟨_, _, hholds', hcell'⟩ :=
              horderly.holds_of_recordOf hproper hmodel hrow' hrecord' ha
            have hcells := hsame a ha
            rwa [hcell', sameKey_storedCell_iff hholds' (hkey ha).2.2.1] at hcells
        rw [heq, hrecord] at hrecord'
        exact (Except.ok.inj hrecord').symm
      · rintro rfl a ha
        obtain ⟨_, _, hholds', hcell'⟩ :=
          horderly.holds_of_recordOf hproper hmodel hrow' hrecord' ha
        rw [hcell', sameKey_storedCell_iff hholds' hholds']
  · refine ⟨t', hother.trans ht', rfl, List.Sublist.refl _, fun row' hrow' record' _ => ?_⟩
    have hname' : name' ≠ name := by
      rw [← hr.name_eq hmodel, ← hr.name_eq (Registry.model?_of_table hm')]
      exact hname
    simp [hrow', hname']

/-- A deletion that selects a row counts it. -/
theorem Table.delete_pos {test : Test} (hrow : row ∈ t.rows) (hselects : test.selects row = true) :
    0 < (t.delete test).2 := by
  refine Nat.sub_pos_of_lt (List.length_filter_lt_length_iff_exists.mpr ⟨row, hrow, ?_⟩)
  simp [hselects]

/-- Destroying a stored record finds it and leaves all others. -/
theorem destroy_gives_without {d : Deployment} (hr : d.registry.IsSound)
    (hkeys : d.registry.IsKeyed) {c : Stores} (hdb : c.database.IsOrderly d.registry)
    (hplanned : c.plannedDeletions = []) {o : Item} (ho : c.database.Holds d.registry o)
    (given : Option CorrelationRef) :
    ∃ db, (destroy d given o.model (.map o.record)).Gives c (.ok (some true))
      { c with database := db } ∧ Database.Without d.registry c.database [o] db := by
  obtain ⟨m, t, row, hm, ht, hrow, hrecord⟩ := ho
  obtain ⟨t', ht', horderly⟩ := hdb o.model m hm
  obtain rfl : t = t' := Except.ok.inj (ht.symm.trans ht')
  have hmodel := Registry.model?_of_table hm
  have hproper := hr.isProper hmodel
  have hkey {a : Attribute} (ha : a ∈ m.keyAttributes) :=
    horderly.holds_of_recordOf hproper hmodel hrow hrecord ha
  have hexact {a : Attribute} (ha : a ∈ m.keyAttributes) :=
    hkeys.isExact hmodel a (hkey ha).1 (hkey ha).2.1
  have hrequires := @requires_sameFilter m o.record (hr.isDeclared hmodel) hproper m.keyAttributes
    fun a ha => ⟨(hkey ha).1, hexact ha, Or.inr (hkey ha).2.2.1⟩
  obtain ⟨lines, hclause, _⟩ := hrequires.run_eq
  have hfilter : rowFilter m (.map o.record) =
      .ok (sameFilter (m.keyAttributes.map (·.name)) o.record) := by
    rw [rowFilter, Value.entries, Outcome.ok_bind,
      List.isEmpty_eq_false_iff.mpr (hkeys.hasPrimary hmodel)]
    rfl
  have hcount : 0 < (t.delete (testOf m (.conj (m.keyAttributes.map fun a =>
      .leaf ⟨a.name, .eq, o.record.field a.name⟩)))).2 := by
    refine Table.delete_pos hrow ?_
    rw [selects_sameFilter hproper (fun a ha => ⟨(hkey ha).1, hexact ha, (hkey ha).2.2.1⟩),
      List.all_eq_true]
    intro a ha
    rw [(hkey ha).2.2.2, sameKey_storedCell_iff (hkey ha).2.2.1 (hkey ha).2.2.1]
  have hdestroy := destroy_gives hm given (.map o.record) hplanned
  rw [deletion, hfilter, Outcome.ok_bind, hclause, Outcome.ok_bind, Database.delete,
    Database.tableAndTest_eq hrequires.2 ht] at hdestroy
  simp only [Outcome.pure_eq_ok, Outcome.ok_bind, gt_iff_lt, decide_eq_true hcount] at hdestroy
  exact ⟨_, hdestroy, without_delete hr hkeys hm ht horderly hrow hrecord⟩

end Primary

end TwinStore
