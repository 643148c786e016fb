import TwinStore.Proofs.Coherence
import TwinStore.Proofs.WrittenRows

/-!
# What statements leave in the tables

An insertion adds rows to one table and gives the records of these rows.  An update changes the rows
that its filter selects and leaves the others.

Main definitions:

- `Database.Gains`: databases of which the second has some more rows in one table.
- `MakesRow`, `MakesRowOf`: the rows that insertions make of values and of records.
- `InsertsEach`: insertions of several rows into one table, row by row.
- `Database.Alters`: databases of which the second has other rows in the place of some.
- `Changes`: the changes that updates make of rows.

Main results:

- Theorem `gains_creation`, `gains_creations`: what insertions leave.
- Theorem `MakesRow.cell_eq`: what a value becomes in an inserted row.
- Theorem `exists_changes`: an update changes the rows that its filter selects.
- Theorem `alters_changing`: what an update by values of exact types leaves.
-/

namespace TwinStore.Primary

open Filter

variable {r : Registry} {db db' : Database} {name : String} {m : Model} {t t' : Table}

/-! ## Insertions -/

/-- Whether a database has some more rows in the table of a model, and is the same elsewhere. -/
structure Database.Gains (db : Database) (m : Model) (rows : List Row) (db' : Database) : Prop where
  rows : ∀ t, db.table m = .ok t → ∃ t', db'.table m = .ok t' ∧ t'.model = t.model ∧
    t'.rows = t.rows ++ rows
  others : ∀ m' : Model, m'.name ≠ m.name → db'.table m' = db.table m'

namespace Database.Gains

theorem refl (db : Database) (m : Model) : Gains db m [] db :=
  ⟨fun t ht => ⟨t, ht, rfl, (List.append_nil _).symm⟩, fun _ _ => rfl⟩

theorem trans {db'' : Database} {rows rows' : List Row} (h : Gains db m rows db')
    (h' : Gains db' m rows' db'') : Gains db m (rows ++ rows') db'' := by
  refine ⟨fun t ht => ?_, fun m' hm' => (h'.others m' hm').trans (h.others m' hm')⟩
  obtain ⟨t', ht', hmodel, hrows⟩ := h.rows t ht
  obtain ⟨t'', ht'', hmodel', hrows'⟩ := h'.rows t' ht'
  exact ⟨t'', ht'', hmodel'.trans hmodel, by rw [hrows', hrows, List.append_assoc]⟩

/-- A table that has some more rows is put into the database. -/
theorem put {rows : List Row} (ht : db.table m = .ok t) (hmodel : t.model = m)
    (hmodel' : t'.model = t.model) (hrows : t'.rows = t.rows ++ rows) :
    Gains db m rows (db.put t') := by
  obtain ⟨hself, hothers⟩ := Database.tables_put db (hmodel'.trans hmodel)
  refine ⟨fun t₀ ht₀ => ?_, hothers⟩
  obtain rfl : t = t₀ := Except.ok.inj (ht.symm.trans ht₀)
  exact ⟨t', hself, hmodel', hrows⟩

end Database.Gains

namespace Table

/-- An insertion adds one row. -/
theorem insert_eq_ok {cells : Entries Cell} {row : Row} (h : t.insert cells = .ok (t', row)) :
    t' = { t with rows := t.rows ++ [row] } := by
  simp only [insert] at h
  split_ifs at h
  cases h
  rfl

/-- An inserted row has the given cells, and its key. -/
theorem row_of_insert {cells : Entries Cell} {row : Row} (h : t.insert cells = .ok (t', row)) :
    row = t.withKey (rowOf t.model cells) := by
  simp only [insert] at h
  split_ifs at h
  cases h
  rfl

/-- An insertion of several rows inserts the first, then the others. -/
theorem insertAll_cons_eq_ok {first : Entries Cell} {cells : List (Entries Cell)} {rows : List Row}
    (h : t.insertAll (first :: cells) = .ok (t', rows)) :
    ∃ t₁ row others, t.insert first = .ok (t₁, row) ∧ t₁.insertAll cells = .ok (t', others) ∧
      rows = row :: others := by
  simp only [insertAll] at h
  cases hfirst : t.insert first with
  | error e =>
    rw [hfirst] at h
    cases h
  | ok inserted =>
    obtain ⟨t₁, row⟩ := inserted
    rw [hfirst] at h
    cases hrest : t₁.insertAll cells with
    | error e =>
      simp only [bind, Except.bind, hrest] at h
      cases h
    | ok rest =>
      obtain ⟨t₂, others⟩ := rest
      simp only [bind, Except.bind, hrest] at h
      cases h
      exact ⟨t₁, row, others, rfl, hrest, rfl⟩

/-- An insertion of several rows adds these rows. -/
theorem insertAll_eq_ok {cells : List (Entries Cell)} {rows : List Row}
    (h : t.insertAll cells = .ok (t', rows)) : t'.model = t.model ∧ t'.rows = t.rows ++ rows := by
  induction cells generalizing t rows with
  | nil =>
    cases h
    exact ⟨rfl, (List.append_nil _).symm⟩
  | cons first cells ih =>
    obtain ⟨t₁, row, others, hfirst, hrest, rfl⟩ := insertAll_cons_eq_ok h
    obtain rfl := insert_eq_ok hfirst
    obtain ⟨hmodel, hrows⟩ := ih hrest
    exact ⟨hmodel, by rw [hrows, List.append_assoc]; rfl⟩

end Table

/-- Whether a database has the table of a model. -/
def Database.Has (db : Database) (m : Model) : Prop := ∃ t, db.table m = .ok t ∧ t.model = m

theorem Database.IsTyped.has (hdb : db.IsTyped r) (hm : r.table name = .ok m) : db.Has m := by
  obtain ⟨t, ht, htyped⟩ := hdb name m hm
  exact ⟨t, ht, htyped.model_eq⟩

/-- A table that has some more rows is still there. -/
theorem Database.Gains.has {rows : List Row} (h : db.Gains m rows db') (hdb : db.Has m) : db'.Has m := by
  obtain ⟨t, ht, hmodel⟩ := hdb
  obtain ⟨t', ht', hmodel', _⟩ := h.rows t ht
  exact ⟨t', ht', hmodel'.trans hmodel⟩

/-- Whether an insertion makes a row of values: of their cells, with a key that is generated if it is
missing. -/
def MakesRow (m : Model) (values : Entries Value) (row : Row) : Prop :=
  ∃ (t : Table) (prepared : Entries Value) (cells : Entries Cell), t.model = m ∧
    Database.prepareRow m values = .ok prepared ∧ Database.readyRow prepared = .ok cells ∧
    row = t.withKey (Table.rowOf m cells)

/-- Rows that are inserted into a table of a model one after another: each is prepared, written in cells
and put into the table that the rows before it leave. -/
inductive InsertsEach (m : Model) : Table → List (Entries Value) → List Row → Table → Prop
  | nil {t : Table} : InsertsEach m t [] [] t
  | cons {t t₁ t' : Table} {values prepared : Entries Value} {cells : Entries Cell} {row : Row}
      {rows : List (Entries Value)} {inserted : List Row} (hmodel : t.model = m)
      (hprepared : Database.prepareRow m values = .ok prepared)
      (hcells : Database.readyRow prepared = .ok cells) (hinsert : t.insert cells = .ok (t₁, row))
      (hrest : InsertsEach m t₁ rows inserted t') :
      InsertsEach m t (values :: rows) (row :: inserted) t'

/-- Rows that are all prepared, then all written and then inserted are inserted one after another. -/
theorem insertsEach_of_insertAll {rows prepared : List (Entries Value)} {cells : List (Entries Cell)}
    {inserted : List Row} (hmodel : t.model = m)
    (hprepared : rows.mapM (Database.prepareRow m) = .ok prepared)
    (hcells : prepared.mapM Database.readyRow = .ok cells)
    (hinserted : t.insertAll cells = .ok (t', inserted)) : InsertsEach m t rows inserted t' := by
  rw [Outcome.mapM_eq_ok_iff] at hprepared hcells
  induction hprepared generalizing t cells inserted with
  | nil =>
    cases hcells
    obtain ⟨rfl, rfl⟩ := Prod.mk.inj (Except.ok.inj hinserted)
    exact .nil
  | cons hfirst _ ih =>
    cases hcells with
    | cons hfirstCells hcells =>
      obtain ⟨t₁, row, others, hinsert, hrest, rfl⟩ := Table.insertAll_cons_eq_ok hinserted
      have hmodel₁ : t₁.model = m := by rw [Table.insert_eq_ok hinsert, hmodel]
      exact .cons hmodel hfirst hfirstCells hinsert (ih hmodel₁ hcells hrest)

/-- Rows that are inserted one after another are made of their values. -/
theorem InsertsEach.makesRow {rows : List (Entries Value)} {inserted : List Row}
    (h : InsertsEach m t rows inserted t') : List.Forall₂ (MakesRow m) rows inserted := by
  induction h with
  | nil => exact .nil
  | @cons t _ _ _ prepared cells _ _ _ hmodel hprepared hcells hinsert _ ih =>
    refine .cons ⟨t, prepared, cells, hmodel, hprepared, hcells, ?_⟩ ih
    rw [Table.row_of_insert hinsert, hmodel]

/-- An insertion adds the row of the record that it gives. -/
theorem gains_insert (hdb : db.Has m) {values : Entries Value} {record : Record}
    (h : db.insert m values = .ok (db', record)) :
    ∃ row, Database.Gains db m [row] db' ∧ Database.recordOf m row = .ok record ∧
      MakesRow m values row := by
  obtain ⟨t, ht, hmodel⟩ := hdb
  obtain ⟨prepared, t₀, cells, t', row, hprepared, ht₀, hcells, hinsert, hrecord, rfl⟩ :=
    Database.insert_eq_ok h
  obtain rfl : t = t₀ := Except.ok.inj (ht.symm.trans ht₀)
  have hmade := Table.row_of_insert hinsert
  obtain rfl := Table.insert_eq_ok hinsert
  exact ⟨row, .put ht hmodel rfl rfl, hrecord, t, prepared, cells, hmodel, hprepared, hcells,
    hmodel ▸ hmade⟩

/-- Insertions by one statement each add the rows of the records that they give. -/
theorem gains_insertEach (hdb : db.Has m) {values : List (Entries Value)} {records : List Record}
    (h : db.insertEach m values = .ok (db', records)) :
    ∃ rows, Database.Gains db m rows db' ∧ rows.mapM (Database.recordOf m) = .ok records ∧
      List.Forall₂ (MakesRow m) values rows := by
  induction values generalizing db db' records with
  | nil =>
    cases h
    exact ⟨[], .refl db m, rfl, .nil⟩
  | cons v values ih =>
    obtain ⟨⟨db₁, record⟩, hfirst, h⟩ := Outcome.bind_eq_ok.mp h
    obtain ⟨⟨db₂, others⟩, hrest, h⟩ := Outcome.bind_eq_ok.mp h
    cases h
    obtain ⟨row, hgains, hrecord, hmade⟩ := gains_insert hdb hfirst
    obtain ⟨rows, hgains', hrecords, hmakes⟩ := ih (hgains.has hdb) hrest
    exact ⟨row :: rows, hgains.trans hgains', by rw [Outcome.mapM_cons, hrecord, Outcome.ok_bind,
      hrecords, Outcome.ok_bind], .cons hmade hmakes⟩

/-- Insertions add the rows of the records that they give. -/
theorem gains_insertRows (hdb : db.Has m) {values : List (Entries Value)} {records : List Record}
    (h : insertRows m values db = .ok (db', records)) :
    ∃ rows, Database.Gains db m rows db' ∧ rows.mapM (Database.recordOf m) = .ok records ∧
      List.Forall₂ (MakesRow m) values rows := by
  unfold insertRows at h
  split_ifs at h
  · obtain ⟨t, ht, hmodel⟩ := hdb
    obtain ⟨_, t₀, _, t', rows, hprepared, ht₀, hcells, hinsert, hrecords, rfl⟩ :=
      Database.insertMany_eq_ok h
    obtain rfl : t = t₀ := Except.ok.inj (ht.symm.trans ht₀)
    obtain ⟨hmodel', hrows⟩ := Table.insertAll_eq_ok hinsert
    exact ⟨rows, .put ht hmodel hmodel' hrows, hrecords,
      (insertsEach_of_insertAll hmodel hprepared hcells hinsert).makesRow⟩
  · exact gains_insertEach hdb h

section

variable {d : Deployment}

/-- Whether the insertion of a record into the table of a model makes a row. -/
def MakesRowOf (d : Deployment) (name : String) (m : Model) (record : Value) (row : Row) : Prop :=
  ∃ values, columnValues d.registry name record = .ok values ∧ MakesRow m values row

/-- Inserting a record adds a row of which the stored record is read. -/
theorem gains_creation (hdb : db.Has m) {record : Value} {stored : Record}
    (h : creation d m name record db = .ok (db', stored)) :
    ∃ row, Database.Gains db m [row] db' ∧ Database.recordOf m row = .ok stored ∧
      MakesRowOf d name m record row := by
  obtain ⟨values, hvalues, h⟩ := Outcome.bind_eq_ok.mp h
  obtain ⟨row, hgains, hrecord, hmakes⟩ := gains_insert hdb h
  exact ⟨row, hgains, hrecord, values, hvalues, hmakes⟩

/-- Rows that are made of the values of records are made of the records. -/
theorem makesRowOf_of_makesRow {items : List Value} {values : List (Entries Value)} {rows : List Row}
    (hvalues : List.Forall₂ (fun item v => columnValues d.registry name item = .ok v) items values)
    (hmakes : List.Forall₂ (MakesRow m) values rows) : List.Forall₂ (MakesRowOf d name m) items rows := by
  induction hvalues generalizing rows with
  | nil =>
    cases hmakes
    exact .nil
  | cons hvalue _ ih =>
    cases hmakes with
    | cons hmade hmakes => exact .cons ⟨_, hvalue, hmade⟩ (ih hmakes)

/-- Inserting records adds rows of which the stored records are read. -/
theorem gains_creations (hdb : db.Has m) {records : Value} {items : List Value} {stored : List Record}
    (hitems : records.items = .ok items)
    (h : creations d m name records db = .ok (db', stored)) :
    ∃ rows, Database.Gains db m rows db' ∧ rows.mapM (Database.recordOf m) = .ok stored ∧
      List.Forall₂ (MakesRowOf d name m) items rows := by
  obtain ⟨items', hitems', h⟩ := Outcome.bind_eq_ok.mp h
  obtain rfl : items = items' := Except.ok.inj (hitems.symm.trans hitems')
  obtain ⟨values, hvalues, h⟩ := Outcome.bind_eq_ok.mp h
  obtain ⟨rows, hgains, hrecords, hmakes⟩ := gains_insertRows hdb h
  exact ⟨rows, hgains, hrecords, makesRowOf_of_makesRow (Outcome.mapM_eq_ok_iff.mp hvalues) hmakes⟩

end

/-! ## Updates -/

/-- Whether a database has other rows in the place of the selected ones in the table of a model, and
is the same elsewhere. -/
structure Database.Alters (db : Database) (m : Model) (selects : Row → Bool) (change : Row → Row)
    (db' : Database) : Prop where
  rows : ∀ t, db.table m = .ok t → ∃ t', db'.table m = .ok t' ∧ t'.model = t.model ∧
    t'.rows = t.rows.map fun row => if selects row then change row else row
  others : ∀ m' : Model, m'.name ≠ m.name → db'.table m' = db.table m'

/-- Whether the cells of a row are those of new values, and those of another row where no new value is
given. -/
def Rewrites (m : Model) (fields : Entries Value) (row row' : Row) : Prop :=
  ∀ a ∈ m.attributes, match Entries.get? fields a.name with
    | some v => ∃ w, coerce (some a.type) v = .ok w ∧ a.type.Admits w ∧ row'.cell a.name = storedCell w
    | none => row'.cell a.name = row.cell a.name

/-- The rows after an update of a table. -/
theorem Table.updateRows_eq {test : Test} {change : Row → Row} {before after rows : List Row}
    (h : updateRows m test change before after = .ok rows) :
    rows = before ++ after.map fun row => if test.selects row then change row else row := by
  induction after generalizing before with
  | nil =>
    cases h
    rw [List.map_nil, List.append_nil]
  | cons row after ih =>
    simp only [updateRows] at h
    split_ifs at h with hselects
    · rw [ih h, List.map_cons, if_pos hselects, List.append_assoc]
      rfl
    · rw [ih h, List.map_cons, if_neg hselects, List.append_assoc]
      rfl

/-- An update of a table changes the selected rows. -/
theorem Table.update_eq_ok {test : Test} {values : Row → Entries Cell}
    (h : t.update test values = .ok t') : t' = { t with
      rows := t.rows.map fun row => if test.selects row then changed t.model values row else row } := by
  simp only [update] at h
  cases hrows : updateRows t.model test (changed t.model values) [] t.rows with
  | error e =>
    rw [hrows] at h
    cases h
  | ok rows =>
    rw [hrows] at h
    cases h
    rw [updateRows_eq hrows, List.nil_append]

/-- A table in which rows are changed is put into the database. -/
theorem Database.Alters.put {selects : Row → Bool} {change : Row → Row} (ht : db.table m = .ok t)
    (hmodel : t.model = m) (hmodel' : t'.model = t.model)
    (hrows : t'.rows = t.rows.map fun row => if selects row then change row else row) :
    Alters db m selects change (db.put t') := by
  obtain ⟨hself, hothers⟩ := Database.tables_put db (hmodel'.trans hmodel)
  refine ⟨fun t₀ ht₀ => ?_, hothers⟩
  obtain rfl : t = t₀ := Except.ok.inj (ht.symm.trans ht₀)
  exact ⟨t', hself, hmodel', hrows⟩

/-- Entries that are made one from another under the same keys are found under the same keys. -/
theorem get?_of_mapM {α β : Type} {g : String × α → Outcome β} {es : Entries α} {fs : Entries β}
    (h : es.mapM (fun e => do return (e.1, ← g e)) = .ok fs) (key : String) :
    (Entries.get? es key = none ∧ Entries.get? fs key = none) ∨
      ∃ a b, Entries.get? es key = some a ∧ Entries.get? fs key = some b ∧ g (key, a) = .ok b := by
  induction es generalizing fs with
  | nil =>
    cases h
    exact .inl ⟨rfl, rfl⟩
  | cons e es ih =>
    obtain ⟨k, a⟩ := e
    obtain ⟨_, hfirst, h⟩ := Outcome.bind_eq_ok.mp ((Outcome.mapM_cons _ _ _).symm.trans h)
    obtain ⟨b, hb, heq⟩ := Outcome.bind_eq_ok.mp hfirst
    cases heq
    obtain ⟨fs', hrest, h⟩ := Outcome.bind_eq_ok.mp h
    cases h
    rw [Entries.get?_cons, Entries.get?_cons]
    by_cases hkey : k = key
    · rw [if_pos hkey, if_pos hkey]
      exact .inr ⟨a, b, rfl, rfl, hkey ▸ hb⟩
    · rw [if_neg hkey, if_neg hkey]
      exact ih hrest

/-- What is listed by attribute is found under the names of attributes. -/
theorem get?_filterMap {α : Type} {attributes : List Attribute}
    (hnames : (attributes.map (·.name)).Nodup) (values : Entries α) {a : Attribute}
    (ha : a ∈ attributes) :
    Entries.get? (attributes.filterMap fun a => (Entries.get? values a.name).map fun v => (a.name, v))
      a.name = Entries.get? values a.name := by
  induction attributes with
  | nil => cases ha
  | cons b attributes ih =>
    rw [List.map_cons, List.nodup_cons] at hnames
    have hother (hne : b.name ≠ a.name) : a ∈ attributes :=
      (List.mem_cons.mp ha).resolve_left fun heq => hne (by rw [heq])
    have hnone (heq : b.name = a.name) : Entries.get? (attributes.filterMap fun a =>
        (Entries.get? values a.name).map fun v => (a.name, v)) a.name = none := by
      refine Entries.get?_eq_none_iff.mpr fun hmem => hnames.1 ?_
      obtain ⟨e, he, hkey⟩ := List.mem_map.mp hmem
      obtain ⟨c, hc, hmapped⟩ := List.mem_filterMap.mp he
      obtain ⟨v, _, rfl⟩ := Option.map_eq_some_iff.mp hmapped
      exact heq ▸ hkey ▸ List.mem_map_of_mem hc
    rw [List.filterMap_cons]
    cases hvalue : Entries.get? values b.name with
    | none =>
      simp only [Option.map_none]
      by_cases heq : b.name = a.name
      · rw [hnone heq, ← heq, hvalue]
      · exact ih hnames.2 (hother heq)
    | some v =>
      simp only [Option.map_some, Entries.get?_cons]
      split_ifs with heq
      · rw [← heq, hvalue]
      · exact ih hnames.2 (hother heq)

section

variable {fields : Entries Value}

/-- The assignment that an update makes of an entry: its field must be known. -/
def assignmentOf (m : Model) (e : String × Value) : Outcome Assignment :=
  match Entries.get? m.attributeTypes e.1 with
  | some type => assignment m e.1 type e.2
  | none => updateFailure (.unknownField e.1 m.name) e.1

theorem assignments_eq (fields : Entries Value) (m : Model) :
    assignments fields m = fields.mapM fun e => do return (e.1, ← assignmentOf m e) := by
  rw [assignments]
  congr 1
  funext e
  simp only [assignmentOf]
  cases Entries.get? m.attributeTypes e.1 <;> rfl

/-- The new values of columns are the accepted values in the forms of the columns. -/
theorem get?_assignments (hm : m.IsProper) (haccepts : AcceptsValues m fields)
    {values : Entries Assignment} (h : assignments fields m = .ok values) {a : Attribute}
    (ha : a ∈ m.attributes) (hexact : a.type.isExact = true) :
    (Entries.get? fields a.name = none ∧ Entries.get? values a.name = none) ∨
      ∃ v w, Entries.get? fields a.name = some v ∧ Entries.get? values a.name = some (.literal w) ∧
        coerce (some a.type) v = .ok w ∧ a.type.Admits w := by
  refine (get?_of_mapM ((assignments_eq fields m).symm.trans h) a.name).imp_right ?_
  rintro ⟨v, v', hv, hv', hassign⟩
  simp only [assignmentOf, hm.get?_attributeTypes ha] at hassign
  obtain ⟨w, hcoerce, hadmits⟩ := haccepts a ha hexact v (Entries.mem_of_get? hv)
  rw [assignment, Database.directive?_of_accepts ⟨w, hcoerce, hadmits⟩] at hassign
  simp only [coerceFor, hcoerce] at hassign
  rw [← Except.ok.inj hassign] at hv'
  exact ⟨v, w, hv, hv', hcoerce, hadmits⟩

/-- Whether a change of rows is what an update makes of its fields: they are assigned to their columns,
the assignments become setters, and these set the cells of a row. -/
def Changes (m : Model) (fields : Entries Value) (change : Row → Row) : Prop :=
  ∃ values named setters, assignments fields m = .ok values ∧
    (m.attributes.filterMap fun a => (Entries.get? values a.name).map fun v => (a.name, v)).mapM
      (fun e => do return (e.1, ← Database.Setter.ofAssignment m e.1 e.2)) = .ok named ∧
    named.mapM (fun e => do return (e.1, ← e.2.ready)) = .ok setters ∧
    change = Table.changed m fun row => setters.map fun e => (e.1, e.2.cell row)

/-- The setter of a column comes from the assignment to it. -/
theorem Changes.cell_eq (hm : m.IsProper) {change : Row → Row} (h : Changes m fields change) :
    ∃ values, assignments fields m = .ok values ∧ ∀ a ∈ m.attributes, ∀ row,
      match Entries.get? values a.name with
      | some assigned => ∃ setter ready, Database.Setter.ofAssignment m a.name assigned = .ok setter ∧
          setter.ready = .ok ready ∧
          (change row).cell a.name = (Affinity.ofType a.type).store (ready.cell row)
      | none => (change row).cell a.name = row.cell a.name := by
  obtain ⟨values, named, setters, hvalues, hnamed, hsetters, rfl⟩ := h
  refine ⟨values, hvalues, fun a ha row => ?_⟩
  have hchanged := cell_changed hm (fun row => setters.map fun e => (e.1, e.2.cell row)) row ha
  rw [Entries.get?_map fun s : Database.Setter Cell => s.cell row] at hchanged
  have hset := get?_of_mapM hnamed a.name
  rw [get?_filterMap hm values ha] at hset
  rcases hset with ⟨hvalue, hnone⟩ | ⟨assigned, setter, hvalue, hsetter, hassign⟩
  · rcases get?_of_mapM hsetters a.name with ⟨-, hlast⟩ | ⟨setter, -, hsetter, -⟩
    · rw [hlast] at hchanged
      rw [hvalue]
      exact hchanged
    · cases hnone.symm.trans hsetter
  · rcases get?_of_mapM hsetters a.name with ⟨hnone, -⟩ | ⟨setter', ready, hsetter', hlast, hready⟩
    · cases hsetter.symm.trans hnone
    · obtain rfl := Option.some.inj (hsetter.symm.trans hsetter')
      rw [hlast] at hchanged
      rw [hvalue]
      exact ⟨setter, ready, hassign, hready, hchanged⟩

/-- A change by accepted values rewrites rows with them. -/
theorem Changes.rewrites (hm : m.IsProper) (hexact : ∀ a ∈ m.attributes, a.type.isExact = true)
    (haccepts : AcceptsValues m fields) {change : Row → Row} (h : Changes m fields change) (row : Row) :
    Rewrites m fields row (change row) := by
  obtain ⟨values, hvalues, hcells⟩ := h.cell_eq hm
  intro a ha
  have hcell := hcells a ha row
  rcases get?_assignments hm haccepts hvalues ha (hexact a ha) with
    ⟨hnone, hnone'⟩ | ⟨v, w, hv, hw, hcoerce, hadmits⟩
  · rw [hnone'] at hcell
    rw [hnone]
    exact hcell
  · rw [hw] at hcell
    obtain ⟨setter, ready, hassign, hready, hcell⟩ := hcell
    simp only [Database.Setter.ofAssignment, hm.get?_attributeTypes ha, Option.getD_some,
      prepare_of_admits (hexact a ha) hadmits, Outcome.ok_bind] at hassign
    cases hassign
    simp only [Database.Setter.ready, cellOf_bound hadmits] at hready
    cases hready
    rw [hv]
    exact ⟨w, hcoerce, hadmits, hcell.trans (store_storedCell hadmits)⟩

end

/-- An update reads its filter as a test, and changes the rows that the test selects, if there are any. -/
theorem exists_changes (hdb : db.Has m) {spec where_ : Value} {fields : Entries Value}
    (hfields : spec.entries = .ok fields) {counts : ChangeCounts}
    (h : changing m spec where_ db = .ok (db', counts)) :
    ∃ test change, Tests m where_ test ∧ Database.Alters db m test.selects change db' ∧
      ∀ t, db.table m = .ok t → ∀ row ∈ t.rows, test.selects row = true → Changes m fields change := by
  obtain ⟨t, ht, hmodel⟩ := hdb
  obtain ⟨clause, hclause, h⟩ := Outcome.bind_eq_ok.mp h
  rw [hfields, Outcome.ok_bind] at h
  obtain ⟨values, hvalues, h⟩ := Outcome.bind_eq_ok.mp h
  obtain ⟨found, hfound, h⟩ := Outcome.bind_eq_ok.mp h
  obtain ⟨⟨_, test⟩, htest, hcount⟩ := Outcome.bind_eq_ok.mp hfound
  obtain ⟨prepared, hprepare, htest⟩ := Outcome.bind_eq_ok.mp htest
  rw [ht, Outcome.ok_bind] at htest
  obtain ⟨_, hready, htest⟩ := Outcome.bind_eq_ok.mp htest
  cases htest
  cases hcount
  refine ⟨test, ?_⟩
  split_ifs at h with hnone
  · cases h
    have hrows : ∀ row ∈ t.rows, test.selects row ≠ true :=
      List.filter_eq_nil_iff.mp (List.length_eq_zero_iff.mp hnone)
    refine ⟨id, ⟨clause, prepared, hclause, hprepare, hready⟩,
      ⟨fun t' ht' => ⟨t', ht', rfl, by simp⟩, fun _ _ => rfl⟩, fun t' ht' row hrow hselects => ?_⟩
    obtain rfl := Except.ok.inj (ht.symm.trans ht')
    exact absurd hselects (hrows row hrow)
  · obtain ⟨db'', hupdate, h⟩ := Outcome.bind_eq_ok.mp h
    cases h
    obtain ⟨named, hnamed, hupdate⟩ := Outcome.bind_eq_ok.mp hupdate
    rw [hprepare, Outcome.ok_bind, ht, Outcome.ok_bind] at hupdate
    split_ifs at hupdate
    · cases hupdate
    obtain ⟨setters, hsetters, hupdate⟩ := Outcome.bind_eq_ok.mp hupdate
    rw [hready, Outcome.ok_bind] at hupdate
    obtain ⟨t', htable, hupdate⟩ := Outcome.bind_eq_ok.mp hupdate
    cases hupdate
    have hrows := Table.update_eq_ok (Database.ofTable_eq_ok.mp htable)
    rw [hmodel] at hrows
    rw [hrows]
    exact ⟨_, ⟨clause, prepared, hclause, hprepare, hready⟩, .put ht hmodel hmodel.symm rfl,
      fun _ _ _ _ _ => ⟨values, named, setters, hvalues, hnamed, hsetters, rfl⟩⟩

/-- An update rewrites the rows that its filter selects. -/
theorem alters_changing (hr : r.IsSound) (hdb : db.IsTyped r) (hm : r.table name = .ok m)
    (hexact : ∀ a ∈ m.attributes, a.type.isExact = true) {where_ : Value} {f : Formula Requirement}
    (hf : Requires m where_ f) {spec : Value} {fields : Entries Value}
    (hfields : spec.entries = .ok fields) (haccepts : AcceptsValues m fields)
    {counts : ChangeCounts} (h : changing m spec where_ db = .ok (db', counts)) :
    ∃ change, Database.Alters db m (testOf m f).selects change db' ∧
      ∀ t, db.table m = .ok t → ∀ row ∈ t.rows, (testOf m f).selects row = true →
        Rewrites m fields row (change row) := by
  obtain ⟨test, change, htest, halters, hchanges⟩ := exists_changes (hdb.has hm) hfields h
  obtain rfl := htest.unique (Tests.of_requires hf)
  have hproper := hr.isProper (Registry.model?_of_table hm)
  exact ⟨change, halters, fun t ht row hrow hselects =>
    (hchanges t ht row hrow hselects).rewrites hproper hexact haccepts row⟩

/-! ## Cells of inserted rows -/

/-- A value is prepared for its column, and nothing else is there. -/
theorem get?_of_prepareRow (hm : m.IsProper) {values prepared : Entries Value}
    (h : Database.prepareRow m values = .ok prepared) {a : Attribute} (ha : a ∈ m.attributes) {v : Value}
    (hv : Entries.get? values a.name = some v) :
    ∃ w, (Binding.ofType a.type).prepare v = .ok w ∧ Entries.get? prepared a.name = some w := by
  have hgiven : a ∈ m.attributes.filter fun a => Entries.has values a.name :=
    List.mem_filter.mpr ⟨ha, Entries.has_iff.mpr (Entries.mem_keys_of_mem (Entries.mem_of_get? hv))⟩
  obtain ⟨e, he, hprepare⟩ := Outcome.exists_result_of_mem h hgiven
  obtain ⟨w, hw, heq⟩ := Outcome.bind_eq_ok.mp hprepare
  obtain rfl := Except.ok.inj heq
  rw [hv, Option.getD_some] at hw
  have hkeys : Entries.keys prepared =
      (m.attributes.filter fun a => Entries.has values a.name).map (·.name) :=
    Outcome.map_eq_of_mapM h fun b e hb => by
      obtain ⟨w, -, heq⟩ := Outcome.bind_eq_ok.mp hb
      obtain rfl := Except.ok.inj heq
      rfl
  refine ⟨w, hw, Entries.get?_of_mem ?_ he⟩
  rw [hkeys]
  exact List.Nodup.sublist (List.filter_sublist.map _) hm

/-- A column that cannot be the generated key has the cell that the value of the record becomes. -/
theorem MakesRow.cell_eq {values : Entries Value} {row : Row} (h : MakesRow m values row)
    (hm : m.IsProper) {a : Attribute} (ha : a ∈ m.attributes) (htype : a.type ≠ .int) {v : Value}
    (hv : Entries.get? values a.name = some v) :
    ∃ w c, (Binding.ofType a.type).prepare v = .ok w ∧ cellOf w = .ok c ∧
      row.cell a.name = (Affinity.ofType a.type).store c := by
  obtain ⟨t, prepared, cells, rfl, hprepared, hcells, rfl⟩ := h
  obtain ⟨w, hprepare, hw⟩ := get?_of_prepareRow hm hprepared ha hv
  obtain ⟨hnone, -⟩ | ⟨w', c, hw', hc, hcell⟩ := @get?_of_mapM _ _ (fun e => cellOf e.2) _ _ hcells a.name
  · rw [hw] at hnone
    cases hnone
  · obtain rfl := Option.some.inj (hw.symm.trans hw')
    have hrow : (Table.rowOf t.model cells).cell a.name = (Affinity.ofType a.type).store c := by
      rw [Table.rowOf, cell_map hm _ ha, hc, Option.getD_some]
    refine ⟨w, c, hprepare, hcell, ?_⟩
    unfold Table.withKey
    split
    · next column hgenerated =>
      obtain ⟨b, hb, rfl, hbtype⟩ := exists_generated hgenerated
      have hname : a.name ≠ b.name := fun heq => htype (List.inj_on_of_nodup_map hm ha hb heq ▸ hbtype)
      split_ifs
      · rw [Row.cell, Entries.get?_set_of_ne _ _ hname]
        exact hrow
      · exact hrow
    · exact hrow

end TwinStore.Primary
