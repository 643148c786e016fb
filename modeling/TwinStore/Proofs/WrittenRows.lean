import Mathlib
import TwinStore.Proofs.PrimaryEffects
import TwinStore.Proofs.Statements

/-!
# Rows that were written

What a program inserts and changes by the operations of the primary store makes its tables, from
empty ones on.  If all new values are accepted by their attributes, every row stands for a record on
which both stores answer every accepted filter alike.

Main definitions:

- `AcceptsRecord`: a record all of whose values are accepted by their attributes.
- `Stores.Written`: the stores that a program reaches with such records.

Main results:

- Theorem `Written.isTyped`: their tables are typed.
- Theorem `filter_agrees_on_written_rows`: on their rows both stores answer alike.
- Theorem `filter_differs_on_unaccepted_value`: a value that is not accepted tells the stores apart.
-/

namespace TwinStore

open Primary Filter

namespace Primary

/-! ## Typed statements -/

/-- Whether all values of a record are accepted by the attributes that they are given for, as far as
those are of exact types. -/
def AcceptsRecord (m : Model) (record : Value) : Prop :=
  ∀ fields, record.entries = .ok fields → AcceptsValues m fields

section

variable {d : Deployment} {model : String} {m : Model} {db db' : Database}

/-- A database with an empty table for each model is typed. -/
theorem Database.isTyped_create {r : Registry} (hr : r.IsSound) :
    (Database.create (r.models.map (·.2))).IsTyped r := by
  intro name m hm
  have hmodel := Registry.model?_of_table hm
  refine ⟨⟨m, []⟩, ?_, rfl, ⟨by simp, List.Pairwise.nil⟩, by simp⟩
  have htables : (Database.create (r.models.map (·.2))).tables =
      r.models.map fun e => (e.1, ⟨e.2, []⟩) := by
    rw [Database.create, List.map_map, List.map_inj_left]
    intro e he
    rw [Function.comp_apply, hr.isNamed he]
  rw [Database.table, htables, hr.name_eq hmodel, Entries.get?_map (fun m => (⟨m, []⟩ : Table)),
    ← Registry.model?, hmodel]
  rfl

/-- Inserting an accepted record keeps a database typed. -/
theorem isTyped_creation (hr : d.registry.IsSound) (hm : d.registry.table model = .ok m)
    (hdb : db.IsTyped d.registry) {record : Value} (haccepts : AcceptsRecord m record) {stored : Record}
    (h : creation d m model record db = .ok (db', stored)) : db'.IsTyped d.registry := by
  obtain ⟨values, hvalues, h⟩ := Outcome.bind_eq_ok.mp h
  obtain ⟨fields, hfields, _⟩ := Outcome.bind_eq_ok.mp hvalues
  exact hdb.insert hr hm (admitsValues_columnValues (hr.isProper (Registry.model?_of_table hm))
    (Registry.attributeTypes_of_table hm) hfields (haccepts fields hfields) hvalues) h

/-- Inserting accepted records keeps a database typed. -/
theorem isTyped_creations (hr : d.registry.IsSound) (hm : d.registry.table model = .ok m)
    (hdb : db.IsTyped d.registry) {records : Value} {items : List Value}
    (hitems : records.items = .ok items) (haccepts : ∀ record ∈ items, AcceptsRecord m record)
    {stored : List Record} (h : creations d m model records db = .ok (db', stored)) :
    db'.IsTyped d.registry := by
  obtain ⟨items', hitems', h⟩ := Outcome.bind_eq_ok.mp h
  obtain rfl : items = items' := Except.ok.inj (hitems.symm.trans hitems')
  obtain ⟨rows, hrows, h⟩ := Outcome.bind_eq_ok.mp h
  refine hdb.insertRows hr hm (fun values hvalues => ?_) h
  obtain ⟨record, hrecord, hvalues⟩ := Outcome.exists_of_mem_mapM hrows hvalues
  obtain ⟨fields, hfields, _⟩ := Outcome.bind_eq_ok.mp hvalues
  exact admitsValues_columnValues (hr.isProper (Registry.model?_of_table hm))
    (Registry.attributeTypes_of_table hm) hfields (haccepts record hrecord fields hfields) hvalues

/-- Changing records to accepted values keeps a database typed. -/
theorem isTyped_changing (hr : d.registry.IsSound) (hm : d.registry.table model = .ok m)
    (hdb : db.IsTyped d.registry) {spec where_ : Value} (haccepts : AcceptsRecord m spec)
    {counts : ChangeCounts} (h : changing m spec where_ db = .ok (db', counts)) :
    db'.IsTyped d.registry := by
  obtain ⟨clause, _, h⟩ := Outcome.bind_eq_ok.mp h
  obtain ⟨fields, hfields, h⟩ := Outcome.bind_eq_ok.mp h
  obtain ⟨values, hvalues, h⟩ := Outcome.bind_eq_ok.mp h
  obtain ⟨found, _, h⟩ := Outcome.bind_eq_ok.mp h
  split_ifs at h
  · cases h
    exact hdb
  · obtain ⟨db'', hupdate, h⟩ := Outcome.bind_eq_ok.mp h
    cases h
    exact hdb.update hr hm (Database.admitsAssignments_of_accepts
      (hr.isProper (Registry.model?_of_table hm)) (haccepts fields hfields) hvalues) hupdate

/-- Deleting a record keeps a database typed. -/
theorem isTyped_deletion (hr : d.registry.IsSound) (hm : d.registry.table model = .ok m)
    (hdb : db.IsTyped d.registry) {row : Value} {found : Bool}
    (h : deletion m row db = .ok (db', found)) : db'.IsTyped d.registry := by
  obtain ⟨where_, _, h⟩ := Outcome.bind_eq_ok.mp h
  obtain ⟨clause, _, h⟩ := Outcome.bind_eq_ok.mp h
  obtain ⟨⟨db'', deleted⟩, hdelete, h⟩ := Outcome.bind_eq_ok.mp h
  cases h
  exact hdb.delete hr hm hdelete

end

end Primary

/-! ## Stores that were written -/

/-- The stores that a program reaches from empty tables by inserting and changing records with
accepted values, by deleting records, and by whatever leaves the tables alone. -/
inductive Stores.Written (d : Deployment) : Stores → Prop
  | start {s : Stores} (h : s.database = Database.create (d.registry.models.map (·.2))) :
      Written d s
  | create {s s' : Stores} {given : Option CorrelationRef} {model : String} {m : Model}
      {record : Value} {o : Outcome (Option Record)} (hs : Written d s)
      (hm : d.registry.table model = .ok m) (haccepts : AcceptsRecord m record)
      (h : runFrom (Primary.create d given model record) s = (o, s')) : Written d s'
  | createAll {s s' : Stores} {given : Option CorrelationRef} {model : String} {m : Model}
      {records : Value} {items : List Value} {o : Outcome (Option (List Record))} (hs : Written d s)
      (hm : d.registry.table model = .ok m) (hitems : records.items = .ok items)
      (haccepts : ∀ record ∈ items, AcceptsRecord m record)
      (h : runFrom (Primary.createAll d given model records) s = (o, s')) : Written d s'
  | update {s s' : Stores} {given : Option CorrelationRef} {model : String} {m : Model}
      {spec where_ : Value} {o : Outcome (Option ChangeCounts)} (hs : Written d s)
      (hm : d.registry.table model = .ok m) (haccepts : AcceptsRecord m spec)
      (h : runFrom (Primary.update d given model spec where_) s = (o, s')) : Written d s'
  | destroy {s s' : Stores} {given : Option CorrelationRef} {model : String} {m : Model}
      {row : Value} {o : Outcome (Option Bool)} (hs : Written d s)
      (hm : d.registry.table model = .ok m)
      (h : runFrom (Primary.destroy d given model row) s = (o, s')) : Written d s'
  | other {s s' : Stores} (hs : Written d s) (h : s'.database = s.database) : Written d s'

/-- A statement that keeps databases typed does so as part of an operation. -/
theorem Stores.isTyped_after {α : Type} {r : Registry} {s s' : Stores}
    {x : Outcome (Database × α)} (hs : s.database.IsTyped r) (hafter : s'.content = s.content.after x)
    (hx : ∀ db a, x = .ok (db, a) → db.IsTyped r) : s'.database.IsTyped r := by
  have hdatabase : s'.database = (s.content.after x).database := by
    rw [← hafter]
    rfl
  rw [hdatabase]
  cases x with
  | error fault => exact hs
  | ok result => exact hx result.1 result.2 rfl

/-- The tables that a program writes with accepted values are typed. -/
theorem Stores.Written.isTyped {d : Deployment} (hr : d.registry.IsSound) {s : Stores}
    (h : Written d s) : s.database.IsTyped d.registry := by
  induction h with
  | start h =>
    rw [h]
    exact Database.isTyped_create hr
  | create _ hm haccepts h ih =>
    exact Stores.isTyped_after ih ((create_gives hm _ _ _).outcome_eq rfl h).2
      fun db stored hx => isTyped_creation hr hm ih haccepts hx
  | @createAll s s' given _ m records items o _ hm hitems haccepts h ih =>
    cases htruthy : records.isTruthy with
    | true =>
      exact Stores.isTyped_after ih ((createAll_gives hm _ htruthy _).outcome_eq rfl h).2
        fun db stored hx => isTyped_creations hr hm ih hitems haccepts hx
    | false =>
      have hgives : (Primary.createAll d given _ records).Gives s.content (.ok (some [])) s.content :=
        onTable_gives hm fun ref => by
          rw [htruthy]
          exact Action.Gives.pure _ _
      exact @Stores.isTyped_after Unit _ _ _ (.error .missingKey) ih
        (hgives.outcome_eq rfl h).2 (by simp)
  | update _ hm haccepts h ih =>
    exact Stores.isTyped_after ih ((update_gives hm _ _ _ _).outcome_eq rfl h).2
      fun db counts hx => isTyped_changing hr hm ih haccepts hx
  | @destroy s s' given model m row o _ hm h ih =>
    cases hplanned : s.plannedDeletions with
    | nil =>
      exact Stores.isTyped_after ih ((destroy_gives (c := s.content) hm _ _ hplanned).outcome_eq rfl h).2
        fun db found hx => isTyped_deletion hr hm ih hx
    | cons outcome rest =>
      have hrun : runFrom (Primary.destroy d given model row) s =
          (.ok outcome, { s with plannedDeletions := rest }) := by
        rw [Primary.destroy, runFrom_bind_of_ok (runFrom_get s), hplanned]
        rfl
      rw [h] at hrun
      rw [(Prod.mk.inj hrun).2]
      exact ih
  | other _ h ih =>
    rw [h]
    exact ih

/-! ## Filters on written rows -/

/-- An accepted filter is read by both stores with the same warnings.  On a written row its clause is
true exactly where its predicate holds of the record that is read from the row. -/
theorem filter_agrees_on_written_rows {d : Deployment} (hd : d.registry.Built) {s : Stores}
    (hs : s.Written d) {model : String} {m : Model} (hm : d.registry.table model = .ok m)
    {where_ : Value} {f : Formula Requirement} (hf : Requires m where_ f) :
    ∃ lines clause test predicate t,
      (toClause where_ m).run = (lines, .ok clause) ∧
      (Predicate.ofFilter where_ (some (d.registry.attributeTypes model))).run =
        (lines, .ok predicate) ∧
      s.database.table m = .ok t ∧ s.database.tableAndTest m clause = .ok (t, test) ∧
      ∀ row ∈ t.rows, ∀ record, Database.recordOf m row = .ok record →
        predicate record = .ok (test.holds? row == some true) := by
  obtain ⟨t, ht, htyped⟩ := hs.isTyped hd.isSound model m hm
  obtain ⟨lines, hclause, hpredicate⟩ := hf.run_eq
  refine ⟨lines, clauseOf m f, testOf m f, fun record => (checksOf m f).holdsFor record, t, hclause,
    ?_, ht, Database.tableAndTest_eq hf.2 ht, ?_⟩
  · rw [Registry.attributeTypes_of_table hm]
    exact hpredicate
  · intro row hrow record hrecord
    have hproper := hd.isSound.isProper (Registry.model?_of_table hm)
    exact hf.selects_eq (represents_of_recordOf hproper (htyped.rows row hrow) hrecord)

/-- A model with an integer beside its key. -/
def countedItem : Model := ⟨"item", [⟨"id", .int, true, true, false⟩, { name := "n", type := .int }], []⟩

/-- The registry of that model alone. -/
def countedItems : Deployment := ⟨(Registry.register {} [countedItem]).1, "", true, none⟩

/-- Empty stores for that model. -/
def noItems : Stores := { database := Database.create (countedItems.registry.models.map (·.2)) }

/-- The filter for integers above five. -/
def aboveFive : Value := .map [("n", .map [("$gt", .int 5)])]

/-- That filter as a formula. -/
def isAboveFive : Formula Requirement := .conj [.leaf ⟨"n", .gt, .int 5⟩]

theorem requires_aboveFive : Requires countedItem aboveFive isAboveFive := by
  refine ⟨⟨[], by cbv⟩, fun c hc => ?_⟩
  rw [isAboveFive, Formula.leaves, Formula.leavesOf, Formula.leavesOf, List.append_nil, Formula.leaves,
    List.mem_singleton] at hc
  subst hc
  exact ⟨.int, by decide, rfl, ⟨.int 5, rfl, Or.inr (.int (by decide))⟩, rfl⟩

/-- The stores after a record with a value for `n` was inserted. -/
def withItem (n : Value) : Stores :=
  (runFrom (Primary.create countedItems none "item" (.map [("n", n)])) noItems).2

theorem built_countedItems : countedItems.registry.Built := by
  refine @Registry.Built.register _ _ [countedItem] [] .empty (fun m hm => ?_) rfl
  rw [List.mem_singleton.mp hm]
  exact ⟨by decide, by decide⟩

theorem written_withItem : (withItem (.int 7)).Written countedItems := by
  refine @Stores.Written.create countedItems noItems _ none "item" countedItem
    (.map [("n", .int 7)]) _ (.start rfl) rfl (fun fields hfields a ha hexact v hv => ?_) rfl
  cases hfields
  rw [List.mem_singleton, Prod.mk.injEq] at hv
  obtain ⟨hname, rfl⟩ := hv
  have htype : ∀ a ∈ countedItem.attributes, a.name = "n" → a.type = .int := by decide
  rw [htype a ha hname]
  exact ⟨.int 7, rfl, Or.inr (.int (by decide))⟩

theorem filter_agrees_on_item_seven :
    countedItems.registry.table "item" = .ok countedItem ∧
    ∃ lines clause test predicate t,
      (toClause aboveFive countedItem).run = (lines, .ok clause) ∧
      (Predicate.ofFilter aboveFive (some (countedItems.registry.attributeTypes "item"))).run =
        (lines, .ok predicate) ∧
      (withItem (.int 7)).database.table countedItem = .ok t ∧
      (withItem (.int 7)).database.tableAndTest countedItem clause = .ok (t, test) ∧
      ∀ row ∈ t.rows, ∀ record, Database.recordOf countedItem row = .ok record →
        predicate record = .ok (test.holds? row == some true) :=
  ⟨rfl, filter_agrees_on_written_rows built_countedItems written_withItem rfl
    requires_aboveFive⟩

/-- A text that is inserted where integers belong comes after every integer in the table, and has no
place in the order of records. -/
theorem filter_differs_on_unaccepted_value :
    Requires countedItem aboveFive isAboveFive ∧
    (do
      let clause ← (toClause aboveFive countedItem).run.2
      let (t, test) ← (withItem (.text "abc")).database.tableAndTest countedItem clause
      return t.rows.map fun row => test.holds? row == some true : Outcome (List Bool)).toOption =
        some [true] ∧
    (do
      let predicate ← (Predicate.ofFilter aboveFive (some countedItem.attributeTypes)).run.2
      let t ← (withItem (.text "abc")).database.table countedItem
      let records ← t.rows.mapM (Database.recordOf countedItem)
      records.mapM predicate : Outcome (List Bool)).toOption = some [false] := by
  refine ⟨requires_aboveFive, ?_, ?_⟩ <;> cbv

end TwinStore
