import TwinStore.Proofs.CacheUpdate
import TwinStore.Proofs.StoreEndings
import TwinStore.Proofs.StoredChanges

/-!
# What saving leaves in both stores

Several records are inserted all or none.  They become the rows that they would become one at a time,
unless records that fill the same columns name a field that is no column: the one statement that then
inserts them all leaves it out without a word, where the statement for a single record fails.

Main definitions:

- `MisnamesTogether`: several records of the same columns that name a field that is none.
- `creationsEach`: the statements that insert records one at a time.
- `Twin.HasSaved`: what a successful save leaves in the primary store.

Main results:

- Theorem `creationsEach_of_insertion`: records inserted together become what they become one at a
  time.
- Theorem `Twin.save_is_all_or_nothing`: saving leaves both stores alone, or leaves one row for each
  record and their members.
-/

namespace TwinStore

namespace Primary

open Filter Action

variable {d : Deployment} {model : String} {m : Model} {db db' : Database} {t t' : Table}

/-! ## One statement for several records -/

theorem Database.put_put (h : t'.model = t.model) : (db.put t).put t' = db.put t' := by
  rw [put, put, put, h, Entries.set_set]

theorem Database.put_self (ht : db.table t.model = .ok t) : db.put t = db := by
  unfold table at ht
  split at ht
  · next hget =>
    obtain rfl := Except.ok.inj ht
    rw [put, Entries.set_get? hget]
  · cases ht

/-- Rows that are inserted into a table one after another are inserted by one statement each, where
all their fields are columns. -/
theorem InsertsEach.insertEach {rows : List (Entries Value)} {inserted : List Row}
    {records : List Record} (h : InsertsEach m t rows inserted t')
    (hcolumns : ∀ row ∈ rows, row.all fun e => m.hasAttribute e.1)
    (hrecords : inserted.mapM (Database.recordOf m) = .ok records) :
    (db.put t).insertEach m rows = .ok (db.put t', records) := by
  rw [Outcome.mapM_eq_ok_iff] at hrecords
  induction h generalizing records with
  | nil =>
    cases hrecords
    rfl
  | @cons t t₁ _ values _ _ _ rows _ hmodel hprepared hcells hinsert _ ih =>
    obtain ⟨record, others, hrecord, hothers, rfl⟩ := List.forall₂_cons_left_iff.mp hrecords
    have hmodel₁ : t₁.model = t.model := by rw [Table.insert_eq_ok hinsert]
    have hstatement : (db.put t).insert m values = .ok (db.put t₁, record) := by
      have ht : (db.put t).table m = .ok t := (Database.tables_put db hmodel).1
      rw [Database.insert, if_pos (hcolumns values List.mem_cons_self), hprepared, ht]
      simp only [Outcome.ok_bind, hcells, hinsert, Database.ofTable, hrecord]
      rw [Database.put_put hmodel₁]
      rfl
    have hrest := ih (fun row hrow => hcolumns row (List.mem_cons_of_mem values hrow)) hothers
    rw [Database.insertEach, hstatement, Outcome.ok_bind]
    show (db.put t₁).insertEach m rows >>= _ = _
    rw [hrest]
    rfl

/-- Whether several rows that fill the same columns name a field that is no column. -/
def MisnamesTogether (m : Model) (rows : List (Entries Value)) : Prop :=
  (rows.all fun row => rows.head?.all (sameColumns row)) = true ∧ 1 < rows.length ∧
    ∃ row ∈ rows, ∃ e ∈ row, m.hasAttribute e.1 = false

/-- Rows that are inserted together are inserted by one statement each, unless they are inserted by
one statement that leaves out what is no column. -/
theorem insertEach_of_insertRows {rows : List (Entries Value)} {records : List Record}
    (hdb : ∀ t, db.table m = .ok t → t.model = m) (hmany : rows.length ≠ 1)
    (hnames : ¬ MisnamesTogether m rows) (h : insertRows m rows db = .ok (db', records)) :
    db.insertEach m rows = .ok (db', records) := by
  unfold insertRows at h
  split_ifs at h with huniform
  · obtain ⟨prepared, t, cells, t', inserted, hprepared, ht, hcells, hinserted, hrecords, rfl⟩ :=
      Database.insertMany_eq_ok h
    have hmodel := hdb t ht
    have hcolumns : ∀ row ∈ rows, row.all fun e => m.hasAttribute e.1 := by
      intro row hrow
      by_contra hmissing
      have hlength : 0 < rows.length := List.length_pos_of_mem hrow
      simp only [List.all_eq_true, not_forall, Bool.not_eq_true] at hmissing
      obtain ⟨e, he, hattribute⟩ := hmissing
      exact hnames ⟨huniform, by omega, row, hrow, e, he, hattribute⟩
    have heach := @InsertsEach.insertEach m db _ _ rows inserted records
      (insertsEach_of_insertAll hmodel hprepared hcells hinserted) hcolumns hrecords
    rwa [Database.put_self (hmodel ▸ ht)] at heach
  · exact h

/-! ## One record at a time -/

/-- The statements that insert records one at a time. -/
def creationsEach (d : Deployment) (m : Model) (model : String) :
    List Value → Database → Outcome (Database × List Record)
  | [], db => .ok (db, [])
  | record :: rest, db => do
    let (db, stored) ← creation d m model record db
    let (db, others) ← creationsEach d m model rest db
    return (db, stored :: others)

theorem length_creationsEach {items : List Value} {stored : List Record}
    (h : creationsEach d m model items db = .ok (db', stored)) : stored.length = items.length := by
  induction items generalizing db stored with
  | nil =>
    obtain ⟨-, rfl⟩ := Prod.mk.inj (Except.ok.inj h)
    rfl
  | cons item items ih =>
    obtain ⟨⟨db₁, first⟩, _, h⟩ := Outcome.bind_eq_ok.mp h
    obtain ⟨⟨db₂, rest⟩, hrest, h⟩ := Outcome.bind_eq_ok.mp h
    obtain ⟨rfl, rfl⟩ := Prod.mk.inj (Except.ok.inj h)
    rw [List.length_cons, List.length_cons, ih hrest]

theorem creationsEach_of_insertEach {items : List Value} {rows : List (Entries Value)}
    {stored : List Record} (hrows : items.mapM (columnValues d.registry model) = .ok rows)
    (h : db.insertEach m rows = .ok (db', stored)) :
    creationsEach d m model items db = .ok (db', stored) := by
  induction items generalizing db rows stored with
  | nil =>
    obtain rfl : [] = rows := Except.ok.inj hrows
    exact h
  | cons item items ih =>
    rw [Outcome.mapM_cons] at hrows
    obtain ⟨row, hrow, hrows⟩ := Outcome.bind_eq_ok.mp hrows
    obtain ⟨others, hothers, heq⟩ := Outcome.bind_eq_ok.mp hrows
    obtain rfl := Except.ok.inj heq
    obtain ⟨⟨db₁, first⟩, hfirst, h⟩ := Outcome.bind_eq_ok.mp h
    obtain ⟨⟨db₂, rest⟩, hrest, h⟩ := Outcome.bind_eq_ok.mp h
    obtain ⟨rfl, rfl⟩ := Prod.mk.inj (Except.ok.inj h)
    rw [creationsEach, creation, hrow, Outcome.ok_bind, hfirst, Outcome.ok_bind]
    show creationsEach d m model items db₁ >>= _ = _
    rw [ih hothers hrest]
    rfl

/-- Records that are inserted one at a time leave what the statements leave. -/
theorem createEach_gives (hm : d.registry.table model = .ok m) (given : Option CorrelationRef)
    {items : List Value} {stored : List Record} {c : Stores}
    (h : creationsEach d m model items c.database = .ok (db', stored)) :
    Gives (items.mapM (create d given model)) c (.ok (stored.map some)) { c with database := db' } := by
  induction items generalizing c stored with
  | nil =>
    obtain ⟨rfl, rfl⟩ := Prod.mk.inj (Except.ok.inj h)
    exact Gives.pure _ _
  | cons item items ih =>
    obtain ⟨⟨db₁, first⟩, hfirst, h⟩ := Outcome.bind_eq_ok.mp h
    obtain ⟨⟨db₂, rest⟩, hrest, h⟩ := Outcome.bind_eq_ok.mp h
    obtain ⟨rfl, rfl⟩ := Prod.mk.inj (Except.ok.inj h)
    have hcreate := create_gives hm given item c
    rw [hfirst] at hcreate
    rw [List.mapM_cons]
    exact Gives.bind hcreate (Gives.bind (ih (c := { c with database := db₁ }) hrest) (Gives.pure _ _))

end Primary

namespace Twin

open Primary Filter Action Cache

variable {d : Deployment} {model : String} {m : Model} {db db' : Database} {h : Holding}

/-- Whether several records that fill the same columns name a field that is neither a column nor a
model. -/
def MisnamesTogether (d : Deployment) (m : Model) (model : String) (items : List Value) : Prop :=
  ∃ rows, items.mapM (columnValues d.registry model) = .ok rows ∧ Primary.MisnamesTogether m rows

/-- Records that are inserted together become what they become one at a time. -/
theorem creationsEach_of_insertion (hdb : ∀ t, db.table m = .ok t → t.model = m) {records : Value}
    {items : List Value} (hitems : records.items = .ok items)
    (hnames : ¬ MisnamesTogether d m model items) {stored : List Record}
    (h : insertion d m model records items db = .ok (db', stored)) :
    creationsEach d m model items db = .ok (db', stored) := by
  have hmany (hlength : items.length ≠ 1) (h : creations d m model records db = .ok (db', stored)) :
      creationsEach d m model items db = .ok (db', stored) := by
    rw [creations, hitems, Outcome.ok_bind] at h
    obtain ⟨rows, hrows, h⟩ := Outcome.bind_eq_ok.mp h
    have hsame : rows.length = items.length := by
      rw [(Outcome.mapM_eq_ok_iff.mp hrows).length_eq]
    exact creationsEach_of_insertEach hrows (insertEach_of_insertRows hdb (hsame ▸ hlength)
      (fun hmis => hnames ⟨rows, hrows, hmis⟩) h)
  rcases items with _ | ⟨record, _ | ⟨record', rest⟩⟩
  · exact hmany (by simp) h
  · obtain ⟨⟨db₁, first⟩, hfirst, heq⟩ := Outcome.map_eq_ok.mp h
    obtain ⟨rfl, rfl⟩ := Prod.mk.inj heq
    rw [creationsEach, hfirst, Outcome.ok_bind]
    rfl
  · exact hmany (by simp) h

/-- Inserted records have one row each. -/
theorem gains_insertion (hdb : db.Has m) {records : Value} {items : List Value}
    (hitems : records.items = .ok items) {stored : List Record}
    (h : insertion d m model records items db = .ok (db', stored)) :
    ∃ rows, Database.Gains db m rows db' ∧ rows.mapM (Database.recordOf m) = .ok stored ∧
      List.Forall₂ (MakesRowOf d model m) items rows := by
  rcases items with _ | ⟨record, _ | ⟨record', rest⟩⟩
  · exact gains_creations hdb hitems h
  · obtain ⟨⟨db₁, first⟩, hfirst, heq⟩ := Outcome.map_eq_ok.mp h
    obtain ⟨rfl, rfl⟩ := Prod.mk.inj heq
    obtain ⟨row, hgains, hrecord, hmade⟩ := gains_creation hdb hfirst
    exact ⟨[row], hgains, by rw [Outcome.mapM_cons, hrecord]; rfl, .cons hmade .nil⟩
  · exact gains_creations hdb hitems h

/-- A table whose rows can all be read is selected as a whole. -/
theorem query_all_gives (hm : d.registry.table model = .ok m) (given : Option CorrelationRef)
    {c : Stores} {t : Table} (ht : c.database.table m = .ok t) {records : List Record}
    (hrecords : t.rows.mapM (Database.recordOf m) = .ok records) :
    ∃ found, (query d given model (.filter .null) .null []).Gives c (.ok (some found)) c ∧
      found.Perm records := by
  have hall : t.select .always = Table.sorted t.model t.rows := by
    rw [Table.select]
    exact congrArg _ (List.filter_eq_self.mpr fun _ _ => rfl)
  have hperm : (t.select .always).Perm t.rows := by
    rw [hall]
    exact List.mergeSort_perm _ _
  obtain ⟨found, hfound, hsame⟩ := Outcome.exists_mapM_of_perm hrecords hperm
  refine ⟨found, ?_, hsame⟩
  have hselect : c.database.select m .always = .ok found := by
    rw [Database.select, Database.tableAndTest, ht]
    exact hfound
  have hquery := query_gives hm given (.filter .null) [] c
  have hclause : ((Selection.filter .null).toClause m).run.2 = .ok .always := rfl
  rw [hclause, Outcome.ok_bind, selectWith_nil, hselect] at hquery
  exact hquery

/-- A table that records are inserted into is there. -/
theorem has_of_insertion (hdb : ∀ t, db.table m = .ok t → t.model = m) {records : Value}
    {items : List Value} {stored : List Record}
    (h : insertion d m model records items db = .ok (db', stored)) : db.Has m := by
  have hinsert {values : Entries Value} {db' : Database} {record : Record}
      (h : db.insert m values = .ok (db', record)) : db.Has m := by
    obtain ⟨_, t, _, _, _, _, ht, _⟩ := Database.insert_eq_ok h
    exact ⟨t, ht, hdb t ht⟩
  have hmany (h : creations d m model records db = .ok (db', stored)) : db.Has m := by
    obtain ⟨items, _, h⟩ := Outcome.bind_eq_ok.mp h
    obtain ⟨rows, _, h⟩ := Outcome.bind_eq_ok.mp h
    unfold insertRows at h
    split_ifs at h with huniform
    · obtain ⟨_, t, _, _, _, _, ht, _⟩ := Database.insertMany_eq_ok h
      exact ⟨t, ht, hdb t ht⟩
    · cases rows with
      | nil => exact absurd rfl huniform
      | cons row rows =>
        obtain ⟨⟨db₁, first⟩, hfirst, _⟩ := Outcome.bind_eq_ok.mp h
        exact hinsert hfirst
  rcases items with _ | ⟨record, _ | ⟨record', rest⟩⟩
  · exact hmany h
  · obtain ⟨⟨db₁, first⟩, hfirst, _⟩ := Outcome.map_eq_ok.mp h
    obtain ⟨values, _, hfirst⟩ := Outcome.bind_eq_ok.mp hfirst
    exact hinsert hfirst
  · exact hmany h

/-! ## Saving -/

/-- What records that were saved leave in the primary store: one row each behind the rows that were
there, which a later query reads, and the same database as if they had been inserted one at a
time. -/
structure HasSaved (d : Deployment) (m : Model) (model : String) (items : List Value) (s : Stores)
    (stored : List Record) (s' : Stores) : Prop where
  rows : ∃ t t' new, s.database.table m = .ok t ∧ s'.database.table m = .ok t' ∧
    t'.rows = t.rows ++ new ∧ new.length = items.length ∧
    new.mapM (Database.recordOf m) = .ok stored
  others : ∀ m' : Model, m'.name ≠ m.name → s'.database.table m' = s.database.table m'
  isRead : ∀ given t old, s.database.table m = .ok t → t.rows.mapM (Database.recordOf m) = .ok old →
    ∃ found s'', runFrom (query d given model (.filter .null) .null []) s' = (.ok (some found), s'') ∧
      found.Perm (old ++ stored)
  each : ∀ given, ∃ s'', runFrom (items.mapM (Primary.create d given model)) s =
    (.ok (stored.map some), s'') ∧ s''.database = s'.database

/-- The members of records that were saved. -/
def savedMembers (d : Deployment) (stored : List Record) : Set String :=
  {raw | ∃ record ∈ stored, memberOf d.registry.modelNames (.map record) = .ok raw}

/-- The members of inserted records are added to the cache. -/
theorem mem_membersOf_asValue {stored : List Record} {members : List String}
    (h : membersOf d.registry.modelNames (asValue stored) = .ok members) :
    {raw | raw ∈ members} = savedMembers d stored ∧
      ∀ record ∈ stored, ∃ raw, memberOf d.registry.modelNames (.map record) = .ok raw := by
  have hmembers : (stored.map Value.map).mapM (memberOf d.registry.modelNames) = .ok members := h
  have hmember (record : Record) (hrecord : record ∈ stored) :
      ∃ raw ∈ members, memberOf d.registry.modelNames (.map record) = .ok raw :=
    Outcome.exists_result_of_mem hmembers (List.mem_map_of_mem hrecord)
  refine ⟨?_, fun record hrecord => ?_⟩
  · ext raw
    constructor
    · intro hraw
      obtain ⟨value, hvalue, hencoded⟩ := Outcome.exists_of_mem_mapM hmembers hraw
      obtain ⟨record, hrecord, rfl⟩ := List.mem_map.mp hvalue
      exact ⟨record, hrecord, hencoded⟩
    · rintro ⟨record, hrecord, hencoded⟩
      obtain ⟨raw', hraw', hencoded'⟩ := hmember record hrecord
      rw [hencoded] at hencoded'
      exact Except.ok.inj hencoded' ▸ hraw'
  · obtain ⟨raw, _, hencoded⟩ := hmember record hrecord
    exact ⟨raw, hencoded⟩

/-- A statement that inserts records leaves their rows. -/
theorem hasSaved_of_insertion {s s' : Stores} {records : Value} {items : List Value}
    {stored : List Record} (htable : d.registry.table model = .ok m)
    (hown : ∀ t, s.database.table m = .ok t → t.model = m) (hitems : records.items = .ok items)
    (hnames : ¬ MisnamesTogether d m model items)
    (hinserted : insertion d m model records items s.database = .ok (s'.database, stored)) :
    HasSaved d m model items s stored s' := by
  obtain ⟨t, ht, hmodel⟩ := has_of_insertion hown hinserted
  obtain ⟨new, hgains, hread, -⟩ := gains_insertion ⟨t, ht, hmodel⟩ hitems hinserted
  have heach := creationsEach_of_insertion hown hitems hnames hinserted
  obtain ⟨t', ht', _, hrows⟩ := hgains.rows t ht
  refine ⟨⟨t, t', new, ht, ht', hrows, ?_, hread⟩, hgains.others, fun given t₀ old ht₀ hold => ?_,
    fun given => ?_⟩
  · rw [(Outcome.mapM_eq_ok_iff.mp hread).length_eq, length_creationsEach heach]
  · obtain rfl : t = t₀ := Except.ok.inj (ht.symm.trans ht₀)
    have hall := Outcome.mapM_append hold hread
    rw [← hrows] at hall
    obtain ⟨found, hquery, hperm⟩ := @query_all_gives d model m htable given s'.content t' ht' _ hall
    obtain ⟨s'', hrun, _⟩ := hquery s' rfl
    exact ⟨found, s'', hrun, hperm⟩
  · have hgives := @createEach_gives d model m _ htable given items stored s.content heach
    obtain ⟨s'', hrun, hs''⟩ := hgives s rfl
    have hdatabase : s''.content.database = s'.database := by rw [hs'']
    exact ⟨s'', hrun, hdatabase⟩

/-- Where records are inserted and have members, saving them gives them, unless the command that adds
the members makes no sense. -/
theorem exists_saved {s : Stores} {records : Value} {items : List Value} {stored : List Record}
    {members : List String} (htruthy : (severalOf records).isTruthy = true)
    (hitems : (severalOf records).items = .ok items) (htable : d.registry.table model = .ok m)
    (hinserted : insertion d m model (severalOf records) items s.database = .ok (db, stored))
    (hmembers : membersOf d.registry.modelNames (asValue stored) = .ok members)
    (hanswers : s.server.outage? .add ≠ some .badValue) (given : Option CorrelationRef) :
    ∃ cache s', runFrom (save d given model records) s =
      (.ok { primary := some true, cache := cache, records := some stored }, s') := by
  have hend := save_ends d given model records s rfl
  generalize ho : (runFrom (save d given model records) s).1 = o at hend
  generalize (runFrom (save d given model records) s).2.holding = c at hend
  have hknown := Registry.hasModel_of_table htable
  cases hend with
  | unknown hunknown =>
    rw [hknown] at hunknown
    cases hunknown
  | nothing _ hempty =>
    rw [htruthy] at hempty
    cases hempty
  | unlisted _ _ hlists =>
    rw [hitems] at hlists
    cases hlists
  | untabled _ _ _ htable' =>
    rw [htable] at htable'
    cases htable'
  | refused _ hitems' htable' hfault | failed _ hitems' htable' hfault =>
    obtain rfl := Except.ok.inj (hitems.symm.trans hitems')
    obtain rfl := Except.ok.inj (htable.symm.trans htable')
    cases hinserted.symm.trans hfault
  | saved _ hitems' htable' hinserted' =>
    obtain rfl := Except.ok.inj (hitems.symm.trans hitems')
    obtain rfl := Except.ok.inj (htable.symm.trans htable')
    obtain ⟨rfl, rfl⟩ := Prod.mk.inj (Except.ok.inj (hinserted.symm.trans hinserted'))
    exact ⟨_, _, runFrom_eq ho⟩
  | uncached _ hitems' htable' hinserted' hcached =>
    obtain rfl := Except.ok.inj (hitems.symm.trans hitems')
    obtain rfl := Except.ok.inj (htable.symm.trans htable')
    obtain ⟨rfl, rfl⟩ := Prod.mk.inj (Except.ok.inj (hinserted.symm.trans hinserted'))
    cases hcached with
    | unwritable hmembers' => cases hmembers.symm.trans hmembers'
    | ended hfails => exact absurd hfails hanswers

/-- Saving leaves both stores alone, or leaves one row for each record, and their members in the
cache unless that fails. -/
theorem save_is_all_or_nothing {d : Deployment} {model : String} {records : Value} {s s' : Stores}
    {given : Option CorrelationRef} {outcome : Saved}
    (htables : ∀ m t, d.registry.table model = .ok m → s.database.table m = .ok t → t.model = m)
    (hnames : ∀ m items, d.registry.table model = .ok m → (severalOf records).items = .ok items →
      ¬ MisnamesTogether d m model items)
    (hrun : runFrom (save d given model records) s = (.ok outcome, s')) :
    (outcome.primary = none ∧ outcome.cache = none ∧ outcome.records = none ∧
      s'.database = s.database ∧ s'.server.sets = s.server.sets) ∨
    ∃ m items stored, d.registry.table model = .ok m ∧ (severalOf records).items = .ok items ∧
      outcome.primary = some true ∧ outcome.records = some stored ∧
      HasSaved d m model items s stored s' ∧
      ((outcome.cache = some true ∧
          (∀ record ∈ stored, ∃ raw, memberOf d.registry.modelNames (.map record) = .ok raw) ∧
          heldSet d model s' = heldSet d model s ∪ savedMembers d stored ∧
          ∀ other ≠ model, heldSet d other s' = heldSet d other s) ∨
        (outcome.cache ≠ some true ∧ s'.server.sets = s.server.sets)) := by
  have hend := save_ends d given model records s rfl
  rw [hrun] at hend
  generalize hholding : s'.holding = c at hend
  have hdatabase : s'.database = c.database := congrArg Holding.database hholding
  have hsets : s'.server.sets = c.sets := congrArg Holding.sets hholding
  cases hend with
  | unknown | nothing | refused => exact .inl ⟨rfl, rfl, rfl, hdatabase, hsets⟩
  | @saved items m db stored cache _ htruthy hitems htable hinserted hcached =>
    have hdb : s'.database = db := by
      rw [hdatabase]
      cases hcached <;> rfl
    have hsaved : HasSaved d m model items s stored s' := by
      refine hasSaved_of_insertion htable (fun t => htables m t htable) hitems
        (hnames m items htable hitems) ?_
      rw [hdb]
      exact hinserted
    refine .inr ⟨m, items, stored, htable, hitems, rfl, rfl, hsaved, ?_⟩
    cases hcached with
    | refused | nothing => exact .inr ⟨nofun, hsets⟩
    | added hmembers =>
      obtain ⟨hadded, hothers⟩ := heldSet_added hsets
      obtain ⟨hset, hencoded⟩ := mem_membersOf_asValue hmembers
      exact .inl ⟨rfl, hencoded, hset ▸ hadded, hothers⟩

/-! ## Items with a field too many -/

/-- Two items. -/
def twoItems : List Value := [.map [("n", .int 5)], .map [("n", .int 6)]]

/-- Two items that name a field that items do not have. -/
def twoSizedItems : List Value :=
  [.map [("n", .int 5), ("size", .int 1)], .map [("n", .int 6), ("size", .int 2)]]

/-- Two items as they are stored in empty tables. -/
def twoStored : List Record := [[("id", .int 1), ("n", .int 5)], [("id", .int 2), ("n", .int 6)]]

theorem two_items_are_saved :
    (∀ m t, countedItems.registry.table "item" = .ok m → noItems.database.table m = .ok t →
      t.model = m) ∧
    (∀ m items, countedItems.registry.table "item" = .ok m →
      (severalOf (.list twoItems)).items = .ok items →
      ¬ MisnamesTogether countedItems m "item" items) ∧
    ∃ cache s', runFrom (save countedItems none "item" (.list twoItems)) noItems =
        (.ok ⟨some true, cache, some twoStored⟩, s') ∧
      ∃ m items stored, countedItems.registry.table "item" = .ok m ∧
        (severalOf (.list twoItems)).items = .ok items ∧ some twoStored = some stored ∧
        HasSaved countedItems m "item" items noItems stored s' := by
  have htables : ∀ m t, countedItems.registry.table "item" = .ok m →
      noItems.database.table m = .ok t → t.model = m := by
    intro m t hm ht
    obtain rfl : countedItem = m := Except.ok.inj hm
    obtain rfl := Except.ok.inj ht
    rfl
  have hnames : ∀ m items, countedItems.registry.table "item" = .ok m →
      (severalOf (.list twoItems)).items = .ok items →
      ¬ MisnamesTogether countedItems m "item" items := by
    rintro m items hm hitems ⟨rows, hrows, _, _, row, hrow, e, he, hattribute⟩
    obtain rfl : countedItem = m := Except.ok.inj hm
    obtain rfl : twoItems = items := Except.ok.inj hitems
    obtain rfl : [[("n", .int 5)], [("n", .int 6)]] = rows := Except.ok.inj hrows
    rcases List.mem_pair.mp hrow with rfl | rfl
    all_goals
      obtain rfl := List.mem_singleton.mp he
      cases hattribute
  obtain ⟨cache, s', hrun⟩ := @exists_saved countedItems "item" countedItem _ noItems
    (.list twoItems) twoItems twoStored _ rfl rfl rfl (by cbv) (by cbv) nofun none
  refine ⟨htables, hnames, cache, s', hrun, ?_⟩
  rcases save_is_all_or_nothing htables hnames hrun with ⟨hnone, _⟩ | ⟨m, items, stored, hm, hitems,
    _, hstored, hsaved, _⟩
  · cases hnone
  · exact ⟨m, items, stored, hm, hitems, hstored, hsaved⟩

/-- One statement for two items leaves out the field that they do not have; the statement for a single
one fails. -/
theorem sized_items_are_saved_together : ∃ cache s',
    runFrom (save countedItems none "item" (.list twoSizedItems)) noItems =
      (.ok ⟨some true, cache, some twoStored⟩, s') ∧
    ∀ item ∈ twoSizedItems,
      (runFrom (Primary.create countedItems none "item" item) noItems).1 = .ok none := by
  obtain ⟨cache, s', hrun⟩ := @exists_saved countedItems "item" countedItem _ noItems
    (.list twoSizedItems) twoSizedItems twoStored _ rfl rfl rfl (by cbv) (by cbv) nofun none
  refine ⟨cache, s', hrun, ?_⟩
  rw [twoSizedItems, List.forall_mem_cons, List.forall_mem_singleton]
  constructor <;> cbv

end Twin

end TwinStore
