import TwinStore.Proofs.TypedTable

/-!
# Statements and typed databases

A database in which all tables are typed stays so under every statement whose new values are
accepted by the attributes that they are given for.

Main definitions:

- `Database.IsTyped`: a database with a typed table for each model of a registry.
- `AcceptsValues`: values that the attributes accept which they are given for.

Main results:

- Theorem `IsTyped.insert`, `IsTyped.insertRows`, `IsTyped.update`, `IsTyped.delete`: statements
  keep a database typed.
- Theorem `IsTyped.select_eq`: a selection reads the rows on which the test of its filter is true.
-/

namespace TwinStore

open Primary Filter

namespace Primary

/-! ## Typed databases -/

/-- Whether a database has a typed table for each table of a registry. -/
def Database.IsTyped (r : Registry) (db : Database) : Prop :=
  ∀ name m, r.table name = .ok m → ∃ t, db.table m = .ok t ∧ t.IsTyped m

/-- Whether new values are accepted by the attributes that they are given for, as far as those are
of exact types. -/
def AcceptsValues (m : Model) (fields : Entries Value) : Prop :=
  ∀ a ∈ m.attributes, a.type.isExact = true → ∀ v, (a.name, v) ∈ fields → a.type.Accepts v

/-- Whether values of columns are of the exact types of their attributes. -/
def AdmitsValues (m : Model) (values : Entries Value) : Prop :=
  ∀ a ∈ m.attributes, a.type.isExact = true → ∀ v,
    Entries.get? values a.name = some v → a.type.Admits v

/-! ## Values of columns -/

/-- Accepted values are of the types of their columns after coercion. -/
theorem admitsValues_columnValues {r : Registry} {name : String} {m : Model} (hm : m.IsProper)
    (hmodel : r.attributeTypes name = m.attributeTypes) {record : Value} {fields : Entries Value}
    (hfields : record.entries = .ok fields) (haccepts : AcceptsValues m fields)
    {values : Entries Value} (h : columnValues r name record = .ok values) :
    AdmitsValues m values := by
  intro a ha hexact w hw
  obtain ⟨fields', hfields', h⟩ := Outcome.bind_eq_ok.mp h
  obtain rfl : fields = fields' := Except.ok.inj (hfields.symm.trans hfields')
  obtain ⟨⟨k, v⟩, hkv, hcoerce⟩ := Outcome.exists_of_mem_mapM h (Entries.mem_of_get? hw)
  obtain ⟨w', hcoerce, heq⟩ := Outcome.bind_eq_ok.mp hcoerce
  cases heq
  rw [hmodel, hm.get?_attributeTypes ha] at hcoerce
  obtain ⟨w', hw', hadmits⟩ := haccepts a ha hexact v (List.mem_filter.mp hkv).1
  rw [hcoerce] at hw'
  cases hw'
  exact hadmits

/-- A prepared value of the type of its column becomes a fitting cell. -/
theorem fits_readyRow {m : Model} (hm : m.IsProper) {values prepared : Entries Value}
    (hprepared : Database.prepareRow m values = .ok prepared) {cells : Entries Cell}
    (hcells : Database.readyRow prepared = .ok cells) {a : Attribute} (ha : a ∈ m.attributes)
    (hexact : a.type.isExact = true)
    (hvalues : ∀ v w, Entries.get? values a.name = some v →
      (Binding.ofType a.type).prepare v = .ok w → a.type.Admits v) :
    ∀ cell, Entries.get? cells a.name = some cell → cell.Fits a.type := by
  intro cell hcell
  obtain ⟨⟨k, bound⟩, hbound, hready⟩ :=
    Outcome.exists_of_mem_mapM hcells (Entries.mem_of_get? hcell)
  obtain ⟨cell', hcellOf, heq⟩ := Outcome.bind_eq_ok.mp hready
  cases heq
  obtain ⟨b, hb, hbound⟩ := Outcome.exists_of_mem_mapM hprepared hbound
  obtain ⟨bound', hprepare, heq⟩ := Outcome.bind_eq_ok.mp hbound
  obtain ⟨hb, hhas⟩ := List.mem_filter.mp hb
  obtain ⟨hname, rfl⟩ := Prod.mk.inj (Except.ok.inj heq)
  obtain rfl := List.inj_on_of_nodup_map hm hb ha hname
  obtain ⟨v, hv⟩ := Entries.exists_get? (Entries.has_iff.mp hhas)
  rw [hv, Option.getD_some] at hprepare
  have hadmits := hvalues v bound' hv hprepare
  rw [prepare_of_admits hexact hadmits] at hprepare
  cases hprepare
  rw [cellOf_bound hadmits] at hcellOf
  exact ⟨v, hadmits, (Except.ok.inj hcellOf).symm⟩

/-- Prepared values of the types of their columns become fitting cells. -/
theorem cellsFit_readyRow {m : Model} (hm : m.IsProper) {values prepared : Entries Value}
    (hvalues : AdmitsValues m values) (hprepared : Database.prepareRow m values = .ok prepared)
    {cells : Entries Cell} (hcells : Database.readyRow prepared = .ok cells) :
    CellsFit m cells :=
  fun _ ha hexact => fits_readyRow hm hprepared hcells ha hexact
    fun v _ hv _ => hvalues _ ha hexact v hv

namespace Database

/-! ## Tables of a database -/

/-- A table that is put into a database is found there. -/
theorem table_put_self {db : Database} {t : Table} : (db.put t).table t.model = .ok t := by
  simp only [table, put, Entries.get?_set_self]

/-- The tables of other models are found as before. -/
theorem table_put_of_ne {db : Database} {t : Table} {m : Model} (h : m.name ≠ t.model.name) :
    (db.put t).table m = db.table m := by
  simp only [table, put, Entries.get?_set_of_ne _ _ h]

variable {r : Registry} {db : Database} {name : String} {m : Model} {t : Table}

/-- A table of a model that is put into a database is that of its model, and no other table changes. -/
theorem tables_put (db : Database) (ht : t.model = m) : (db.put t).table m = .ok t ∧
    ∀ m' : Model, m'.name ≠ m.name → (db.put t).table m' = db.table m' := by
  subst ht
  exact ⟨table_put_self, fun _ => table_put_of_ne⟩

/-- The table of a registered model, after a table was put into the database, is this table or the one
from before. -/
theorem table_put_cases (db : Database) (hr : r.IsSound) (hm : r.table name = .ok m) (ht : t.model = m)
    {name' : String} {m' : Model} (hm' : r.table name' = .ok m') :
    (name' = name ∧ m' = m ∧ (db.put t).table m' = .ok t) ∨
      (m'.name ≠ m.name ∧ (db.put t).table m' = db.table m') := by
  obtain ⟨hself, hothers⟩ := tables_put db ht
  by_cases hname : m'.name = m.name
  · rw [hr.name_eq (Registry.model?_of_table hm), hr.name_eq (Registry.model?_of_table hm')] at hname
    subst hname
    obtain rfl := Except.ok.inj (hm'.symm.trans hm)
    exact .inl ⟨rfl, rfl, hself⟩
  · exact .inr ⟨hname, hothers m' hname⟩

/-- Putting a typed table into a typed database keeps it typed. -/
theorem IsTyped.put (hr : r.IsSound) (hdb : db.IsTyped r) (hm : r.table name = .ok m)
    (ht : t.IsTyped m) : (db.put t).IsTyped r := by
  intro name' m' hm'
  rcases table_put_cases db hr hm ht.model_eq hm' with ⟨-, rfl, hself⟩ | ⟨-, hother⟩
  · exact ⟨t, hself, ht⟩
  · rw [hother]
    exact hdb name' m' hm'

/-- A change of a table as part of a statement has a result where the change has one. -/
theorem ofTable_eq_ok {α : Type} {x : Except StatementError α} {a : α} :
    ofTable x = .ok a ↔ x = .ok a := by
  cases x with
  | ok b => exact ⟨fun h => congrArg _ (Except.ok.inj h), fun h => congrArg _ (Except.ok.inj h)⟩
  | error e => exact ⟨nofun, nofun⟩

/-! ## Statements -/

/-- An insertion adds the row of the prepared values to its table and reads it back. -/
theorem insert_eq_ok {values : Entries Value} {db' : Database} {record : Record}
    (h : db.insert m values = .ok (db', record)) :
    ∃ prepared t cells t' row, prepareRow m values = .ok prepared ∧ db.table m = .ok t ∧
      readyRow prepared = .ok cells ∧ t.insert cells = .ok (t', row) ∧
      recordOf m row = .ok record ∧ db' = db.put t' := by
  simp only [Database.insert] at h
  split_ifs at h
  · obtain ⟨prepared, hprepared, h⟩ := Outcome.bind_eq_ok.mp h
    obtain ⟨t, ht, h⟩ := Outcome.bind_eq_ok.mp h
    obtain ⟨cells, hcells, h⟩ := Outcome.bind_eq_ok.mp h
    obtain ⟨⟨t', row⟩, hinsert, h⟩ := Outcome.bind_eq_ok.mp h
    obtain ⟨record', hrecord, h⟩ := Outcome.bind_eq_ok.mp h
    cases h
    exact ⟨prepared, t, cells, t', row, hprepared, ht, hcells, ofTable_eq_ok.mp hinsert, hrecord, rfl⟩
  · cases h

/-- An insertion of several records adds their rows to the table one after another. -/
theorem insertMany_eq_ok {rows : List (Entries Value)} {db' : Database} {records : List Record}
    (h : db.insertMany m rows = .ok (db', records)) :
    ∃ prepared t cells t' inserted, rows.mapM (prepareRow m) = .ok prepared ∧ db.table m = .ok t ∧
      prepared.mapM readyRow = .ok cells ∧ t.insertAll cells = .ok (t', inserted) ∧
      inserted.mapM (recordOf m) = .ok records ∧ db' = db.put t' := by
  obtain ⟨prepared, hprepared, h⟩ := Outcome.bind_eq_ok.mp h
  obtain ⟨t, ht, h⟩ := Outcome.bind_eq_ok.mp h
  obtain ⟨cells, hcells, h⟩ := Outcome.bind_eq_ok.mp h
  obtain ⟨⟨t', inserted⟩, hinsert, h⟩ := Outcome.bind_eq_ok.mp h
  obtain ⟨records', hrecords, h⟩ := Outcome.bind_eq_ok.mp h
  cases h
  exact ⟨prepared, t, cells, t', inserted, hprepared, ht, hcells, ofTable_eq_ok.mp hinsert, hrecords,
    rfl⟩

/-- Inserting accepted values keeps a database typed. -/
theorem IsTyped.insert (hr : r.IsSound) (hdb : db.IsTyped r) (hm : r.table name = .ok m)
    {values : Entries Value} (hvalues : AdmitsValues m values) {db' : Database} {record : Record}
    (h : db.insert m values = .ok (db', record)) : db'.IsTyped r := by
  obtain ⟨t, ht, htyped⟩ := hdb name m hm
  have hproper := hr.isProper (Registry.model?_of_table hm)
  obtain ⟨prepared, t₀, cells, t', row, hprepared, ht₀, hcells, hinsert, _, rfl⟩ := insert_eq_ok h
  obtain rfl : t = t₀ := Except.ok.inj (ht.symm.trans ht₀)
  have hfit := cellsFit_readyRow hproper hvalues hprepared hcells
  exact hdb.put hr hm (htyped.insert hproper hfit hinsert).1

/-- Inserting accepted values by one statement each keeps a database typed. -/
theorem IsTyped.insertEach (hr : r.IsSound) (hm : r.table name = .ok m)
    {rows : List (Entries Value)} (hdb : db.IsTyped r) (hrows : ∀ values ∈ rows, AdmitsValues m values)
    {db' : Database} {records : List Record} (h : db.insertEach m rows = .ok (db', records)) :
    db'.IsTyped r := by
  induction rows generalizing db db' records with
  | nil =>
    cases h
    exact hdb
  | cons values rows ih =>
    obtain ⟨⟨db₁, record⟩, hfirst, h⟩ := Outcome.bind_eq_ok.mp h
    obtain ⟨⟨db₂, rest⟩, hrest, h⟩ := Outcome.bind_eq_ok.mp h
    cases h
    have hdb₁ := hdb.insert hr hm (hrows values List.mem_cons_self) hfirst
    exact ih hdb₁ (fun v hv => hrows v (List.mem_cons_of_mem values hv)) hrest

/-- Inserting accepted values by one statement keeps a database typed. -/
theorem IsTyped.insertMany (hr : r.IsSound) (hdb : db.IsTyped r) (hm : r.table name = .ok m)
    {rows : List (Entries Value)} (hrows : ∀ values ∈ rows, AdmitsValues m values) {db' : Database}
    {records : List Record} (h : db.insertMany m rows = .ok (db', records)) : db'.IsTyped r := by
  obtain ⟨t, ht, htyped⟩ := hdb name m hm
  have hproper := hr.isProper (Registry.model?_of_table hm)
  obtain ⟨prepared, t₀, cells, t', inserted, hprepared, ht₀, hcells, hinsert, _, rfl⟩ :=
    insertMany_eq_ok h
  obtain rfl : t = t₀ := Except.ok.inj (ht.symm.trans ht₀)
  have hfit : ∀ row ∈ cells, CellsFit m row := by
    intro row hrow
    obtain ⟨values', hvalues', hready⟩ := Outcome.exists_of_mem_mapM hcells hrow
    obtain ⟨values, hvalues, hprepare⟩ := Outcome.exists_of_mem_mapM hprepared hvalues'
    exact cellsFit_readyRow hproper (hrows values hvalues) hprepare hready
  exact hdb.put hr hm (htyped.insertAll hproper hfit hinsert).1

/-- Inserting accepted values keeps a database typed, by however many statements. -/
theorem IsTyped.insertRows (hr : r.IsSound) (hdb : db.IsTyped r) (hm : r.table name = .ok m)
    {rows : List (Entries Value)} (hrows : ∀ values ∈ rows, AdmitsValues m values) {db' : Database}
    {records : List Record} (h : insertRows m rows db = .ok (db', records)) : db'.IsTyped r := by
  unfold Primary.insertRows at h
  split at h
  · exact hdb.insertMany hr hm hrows h
  · exact hdb.insertEach hr hm hrows h

/-- Whether the new values of columns are literal values of the exact types of their attributes. -/
def AdmitsAssignments (m : Model) (values : Entries Assignment) : Prop :=
  ∀ a ∈ m.attributes, a.type.isExact = true → ∀ v, Entries.get? values a.name = some v →
    ∃ w, v = .literal w ∧ a.type.Admits w

/-- An accepted value is no directive: a map is no value of a type, and coercion leaves it alone. -/
theorem directive?_of_accepts {type : AttributeType} {v : Value} (h : type.Accepts v) :
    directive? v = none := by
  cases v with
  | map entries =>
    obtain ⟨w, hcoerce, hadmits⟩ := h
    have hmap : w = .map entries := by
      cases type <;> exact (Except.ok.inj hcoerce).symm
    rcases hadmits with rfl | hholds
    · cases hmap
    · rw [hmap] at hholds
      cases hholds
  | _ => rfl

/-- Accepted values are assigned as literal values of the types of their columns. -/
theorem admitsAssignments_of_accepts (hm : m.IsProper) {spec : Entries Value}
    (haccepts : AcceptsValues m spec) {values : Entries Assignment}
    (h : assignments spec m = .ok values) : AdmitsAssignments m values := by
  intro a ha hexact v hv
  obtain ⟨⟨k, u⟩, hku, hassign⟩ := Outcome.exists_of_mem_mapM h (Entries.mem_of_get? hv)
  simp only at hassign
  split at hassign
  · next type htype =>
    obtain ⟨v', hassignment, heq⟩ := Outcome.bind_eq_ok.mp hassign
    cases heq
    obtain rfl : a.type = type := by
      rw [hm.get?_attributeTypes ha] at htype
      exact Option.some.inj htype
    obtain ⟨w, hcoerce, hadmits⟩ := haccepts a ha hexact u hku
    rw [assignment, directive?_of_accepts ⟨w, hcoerce, hadmits⟩] at hassignment
    simp only [coerceFor, hcoerce] at hassignment
    exact ⟨w, (Except.ok.inj hassignment).symm, hadmits⟩
  · cases hassign

/-- Prepared literal values become fitting cells in every row. -/
theorem cellsFit_setters (hm : m.IsProper) {values : Entries Assignment}
    (hvalues : AdmitsAssignments m values) {named : Entries (Setter Value)}
    (hnamed : (m.attributes.filterMap fun a =>
        (Entries.get? values a.name).map fun v => (a.name, v)).mapM
      (fun e => do return (e.1, ← Setter.ofAssignment m e.1 e.2)) = .ok named)
    {setters : Entries (Setter Cell)}
    (hsetters : named.mapM (fun e => do return (e.1, ← e.2.ready)) = .ok setters) (row : Row) :
    CellsFit m (setters.map fun e => (e.1, e.2.cell row)) := by
  intro a ha hexact cell hcell
  obtain ⟨⟨k, s⟩, hs, heq⟩ := List.mem_map.mp (Entries.mem_of_get? hcell)
  obtain ⟨rfl, rfl⟩ := Prod.mk.inj heq
  obtain ⟨⟨k', s'⟩, hs', hready⟩ := Outcome.exists_of_mem_mapM hsetters hs
  obtain ⟨_, hready, heq⟩ := Outcome.bind_eq_ok.mp hready
  obtain ⟨rfl, rfl⟩ := Prod.mk.inj (Except.ok.inj heq)
  obtain ⟨⟨k', v⟩, hv, hassign⟩ := Outcome.exists_of_mem_mapM hnamed hs'
  obtain ⟨_, hassign, heq⟩ := Outcome.bind_eq_ok.mp hassign
  obtain ⟨hname, rfl⟩ := Prod.mk.inj (Except.ok.inj heq)
  obtain ⟨b, hb, hmapped⟩ := List.mem_filterMap.mp hv
  obtain ⟨v', hget, heq⟩ := Option.map_eq_some_iff.mp hmapped
  obtain ⟨hbname, rfl⟩ := Prod.mk.inj heq
  obtain rfl := List.inj_on_of_nodup_map hm hb ha (hbname.trans hname)
  obtain ⟨w, rfl, hadmits⟩ := hvalues b ha hexact v' hget
  rw [← hbname, Setter.ofAssignment] at hassign
  simp only [hm.get?_attributeTypes ha, Option.getD_some, prepare_of_admits hexact hadmits,
    Outcome.ok_bind] at hassign
  cases hassign
  simp only [Setter.ready, cellOf_bound hadmits] at hready
  cases hready
  exact ⟨w, hadmits, rfl⟩

/-- Changing rows to accepted literal values keeps a database typed. -/
theorem IsTyped.update (hr : r.IsSound) (hdb : db.IsTyped r) (hm : r.table name = .ok m)
    {clause : Clause Comparison} {values : Entries Assignment}
    (hvalues : AdmitsAssignments m values) {db' : Database}
    (h : db.update m clause values = .ok db') : db'.IsTyped r := by
  obtain ⟨t, ht, htyped⟩ := hdb name m hm
  obtain ⟨named, hnamed, h⟩ := Outcome.bind_eq_ok.mp h
  obtain ⟨prepared, _, h⟩ := Outcome.bind_eq_ok.mp h
  rw [ht, Outcome.ok_bind] at h
  split_ifs at h
  · cases h
  · obtain ⟨setters, hsetters, h⟩ := Outcome.bind_eq_ok.mp h
    obtain ⟨test, _, h⟩ := Outcome.bind_eq_ok.mp h
    obtain ⟨t', hupdate, h⟩ := Outcome.bind_eq_ok.mp h
    cases h
    have hfit := cellsFit_setters (hr.isProper (Registry.model?_of_table hm)) hvalues hnamed hsetters
    exact hdb.put hr hm (htyped.update (hr.isProper (Registry.model?_of_table hm)) hfit (ofTable_eq_ok.mp hupdate))

/-- Deleting rows keeps a database typed. -/
theorem IsTyped.delete (hr : r.IsSound) (hdb : db.IsTyped r) (hm : r.table name = .ok m)
    {clause : Clause Comparison} {db' : Database} {deleted : Nat}
    (h : db.delete m clause = .ok (db', deleted)) : db'.IsTyped r := by
  obtain ⟨t, ht, htyped⟩ := hdb name m hm
  obtain ⟨⟨t', test⟩, htest, h⟩ := Outcome.bind_eq_ok.mp h
  cases h
  obtain ⟨prepared, _, htest⟩ := Outcome.bind_eq_ok.mp htest
  rw [ht, Outcome.ok_bind] at htest
  obtain ⟨test', _, htest⟩ := Outcome.bind_eq_ok.mp htest
  cases htest
  exact hdb.put hr hm (htyped.delete test)

/-- The table and the test of an accepted formula. -/
theorem tableAndTest_eq {f : Formula Requirement} (hf : f.IsAccepted m) {t : Table} (ht : db.table m = .ok t) :
    db.tableAndTest m (clauseOf m f) = .ok (t, testOf m f) := by
  obtain ⟨prepared, hprepare, hready⟩ := hf.prepare_eq
  rw [tableAndTest, hprepare, Outcome.ok_bind, ht, Outcome.ok_bind, hready]
  rfl

/-- A selection by an accepted formula reads the rows on which its test is true. -/
theorem select_eq {f : Formula Requirement} (hf : f.IsAccepted m)
    {t : Table} (ht : db.table m = .ok t) :
    db.select m (clauseOf m f) = (t.select (testOf m f)).mapM (recordOf m) := by
  rw [select, tableAndTest_eq hf ht, Outcome.ok_bind]

end Database

end Primary

end TwinStore
