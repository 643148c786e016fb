import TwinStore.Proofs.Members
import TwinStore.Proofs.SavedRows
import TwinStore.Proofs.TameMembers
import TwinStore.Proofs.WholeRows

/-!
# Members of stored rows

What is saved is read back from its row before it goes into the cache.  Whatever was given, a row of
exact types gives values that have documents, byte strings apart, and its points of time have no
offset.

Main definitions:

- `Database.IsOwn`: databases whose tables belong to their models.
- `Value.IsOfCalendar`: values that are no times outside the calendar.
- `BecomesInstant`: the ways in which coercion makes points of time.
- `IsFromRow`: the records that rows of exact types give.

Main results:

- Theorem `isFromRow_of_insertion`: inserted records are such records.
- Theorem `either_membersOf`: stored records have tame members, or one of them has a byte string.
-/

namespace TwinStore

open Number Calendar Primary Filter

/-! ## Tables of their models -/

namespace Primary.Database

variable {r : Registry} {db db' : Database} {name : String} {m : Model} {t t' : Table}

/-- Whether the tables of a database belong to their models. -/
def IsOwn (r : Registry) (db : Database) : Prop :=
  ∀ name m t, r.table name = .ok m → db.table m = .ok t → t.model = m

theorem IsOwn.put (hr : r.IsSound) (hdb : db.IsOwn r) (hm : r.table name = .ok m)
    (ht : t.model = m) : (db.put t).IsOwn r := by
  intro name' m' t' hm' ht'
  rcases table_put_cases db hr hm ht hm' with ⟨-, rfl, hself⟩ | ⟨-, hother⟩
  · rw [← Except.ok.inj (hself.symm.trans ht'), ht]
  · exact hdb name' m' t' hm' (hother ▸ ht')

/-- Whether a statement puts a table of the same model into a database, or changes nothing. -/
def Puts (m : Model) (db db' : Database) : Prop :=
  db' = db ∨ ∃ t t', db.table m = .ok t ∧ t'.model = t.model ∧ db' = db.put t'

theorem Puts.isOwn (h : Puts m db db') (hr : r.IsSound) (hm : r.table name = .ok m)
    (hdb : db.IsOwn r) : db'.IsOwn r := by
  rcases h with rfl | ⟨t, t', ht, hmodel, rfl⟩
  · exact hdb
  · exact hdb.put hr hm (hmodel.trans (hdb name m t hm ht))

theorem puts_insert {values : Entries Value} {record : Record}
    (h : db.insert m values = .ok (db', record)) : Puts m db db' := by
  obtain ⟨_, t, _, t', _, _, ht, _, hinsert, _, rfl⟩ := insert_eq_ok h
  exact .inr ⟨t, t', ht, by rw [Table.insert_eq_ok hinsert], rfl⟩

theorem puts_insertMany {rows : List (Entries Value)} {records : List Record}
    (h : db.insertMany m rows = .ok (db', records)) : Puts m db db' := by
  obtain ⟨_, t, _, t', _, _, ht, _, hinsert, _, rfl⟩ := insertMany_eq_ok h
  exact .inr ⟨t, t', ht, (Table.insertAll_eq_ok hinsert).1, rfl⟩

theorem puts_update {clause : Clause Comparison} {values : Entries Assignment}
    (h : db.update m clause values = .ok db') : Puts m db db' := by
  obtain ⟨_, _, h⟩ := Outcome.bind_eq_ok.mp h
  obtain ⟨_, _, h⟩ := Outcome.bind_eq_ok.mp h
  obtain ⟨t, ht, h⟩ := Outcome.bind_eq_ok.mp h
  split_ifs at h
  · cases h
  · obtain ⟨_, _, h⟩ := Outcome.bind_eq_ok.mp h
    obtain ⟨_, _, h⟩ := Outcome.bind_eq_ok.mp h
    obtain ⟨t', hupdate, h⟩ := Outcome.bind_eq_ok.mp h
    cases h
    exact .inr ⟨t, t', ht, by rw [Table.update_eq_ok (ofTable_eq_ok.mp hupdate)], rfl⟩

theorem puts_delete {clause : Clause Comparison} {deleted : Nat}
    (h : db.delete m clause = .ok (db', deleted)) : Puts m db db' := by
  obtain ⟨⟨t, test⟩, htest, h⟩ := Outcome.bind_eq_ok.mp h
  cases h
  obtain ⟨_, _, htest⟩ := Outcome.bind_eq_ok.mp htest
  obtain ⟨t₀, ht, htest⟩ := Outcome.bind_eq_ok.mp htest
  obtain ⟨_, _, htest⟩ := Outcome.bind_eq_ok.mp htest
  cases htest
  exact .inr ⟨t, (t.delete test).1, ht, rfl, rfl⟩

/-- Insertions by one statement each keep what each of them keeps. -/
theorem insertEach_keeps {P : Database → Prop} {Q : Record → Prop} {rows : List (Entries Value)}
    {records : List Record}
    (hinsert : ∀ db db' record, ∀ values ∈ rows, P db → db.insert m values = .ok (db', record) →
      P db' ∧ Q record)
    (hdb : P db) (h : db.insertEach m rows = .ok (db', records)) :
    P db' ∧ ∀ record ∈ records, Q record := by
  induction rows generalizing db records with
  | nil =>
    cases h
    exact ⟨hdb, nofun⟩
  | cons values rows ih =>
    obtain ⟨⟨db₁, first⟩, hfirst, h⟩ := Outcome.bind_eq_ok.mp h
    obtain ⟨⟨db₂, rest⟩, hrest, h⟩ := Outcome.bind_eq_ok.mp h
    cases h
    obtain ⟨hdb₁, hrecord⟩ := hinsert db db₁ first values List.mem_cons_self hdb hfirst
    obtain ⟨hdb₂, hrecords⟩ := ih (fun db db' record v hv =>
      hinsert db db' record v (List.mem_cons_of_mem values hv)) hdb₁ hrest
    exact ⟨hdb₂, List.forall_mem_cons.mpr ⟨hrecord, hrecords⟩⟩

end Primary.Database

/-! ## Values of the calendar -/

/-- Whether a value is no day and no point of time outside the calendar. -/
def Value.IsOfCalendar : Value → Prop
  | .instant t => t.isValid = true
  | .date d => d.isValid = true
  | _ => True

/-- A point of time from a number is naive and of the calendar. -/
theorem isValid_of_instantOfSeconds {x : Float} {t : DateTime} (h : instantOfSeconds x = .ok t) :
    t.isValid = true ∧ t.offset = none := by
  unfold instantOfSeconds at h
  split at h
  · split_ifs at h
  · obtain ⟨⟨whole, micros⟩, _, h⟩ := Outcome.bind_eq_ok.mp h
    simp only at h
    split_ifs at h
    split at h
    · next t' hmicros =>
      obtain rfl := Except.ok.inj h
      exact DateTime.isValid_of_ofMicros? hmicros
    · cases h

/-- Universal times have no offset. -/
theorem offset_of_toUniversal? {t u : DateTime} (h : t.toUniversal? = some u) : u.offset = none := by
  unfold DateTime.toUniversal? at h
  split at h
  · next hnone => exact Option.some.inj h ▸ hnone
  · exact (DateTime.isValid_of_ofMicros? h).2

/-- How coercion comes by a point of time: from milliseconds, from a text or a point of time that is
taken to universal time, or from a day. -/
inductive BecomesInstant : Value → DateTime → Prop
  | millis {n : Int} {x : Float} {t : DateTime} (hseconds : secondsOfMillis n = .ok x)
    (h : instantOfSeconds x = .ok t) : BecomesInstant (.int n) t
  | double {x : Float} {t : DateTime} (h : instantOfSeconds (x / 1000.0) = .ok t) :
    BecomesInstant (.float x) t
  | text {s : String} {t u : DateTime} (hread : IsoReader.parse? s = some t)
    (h : t.toUniversal? = some u) : BecomesInstant (.text s) u
  | instant {t u : DateTime} (h : t.toUniversal? = some u) : BecomesInstant (.instant t) u
  | date (d : Date) : BecomesInstant (.date d) (DateTime.ofDate d)

/-- Coercion makes a point of time in one of these ways. -/
theorem BecomesInstant.of_coerceInstant {v : Value} {t : DateTime}
    (h : coerceInstant v = .ok (.instant t)) : BecomesInstant v t := by
  have huniversal {t t' : DateTime} (h : universal t = .ok t') : t.toUniversal? = some t' := by
    unfold universal at h
    split at h
    · next hu => exact hu.trans (congrArg some (Except.ok.inj h))
    · cases h
  cases v with
  | int n =>
    obtain ⟨x, hseconds, h⟩ := Outcome.bind_eq_ok.mp h
    obtain ⟨t, ht, heq⟩ := Outcome.bind_eq_ok.mp h
    cases heq
    exact .millis hseconds ht
  | float x =>
    obtain ⟨t, ht, heq⟩ := Outcome.bind_eq_ok.mp h
    cases heq
    exact .double ht
  | text s =>
    obtain ⟨t, ht, h⟩ := Outcome.bind_eq_ok.mp h
    obtain ⟨t', ht', heq⟩ := Outcome.bind_eq_ok.mp h
    cases heq
    unfold instantOfText at ht
    split at ht
    · next hread => exact .text (hread.trans (congrArg some (Except.ok.inj ht))) (huniversal ht')
    · cases ht
  | instant t =>
    obtain ⟨t', ht', heq⟩ := Outcome.bind_eq_ok.mp h
    cases heq
    exact .instant (huniversal ht')
  | date d =>
    cases h
    exact .date d
  | _ => cases h

/-- A point of time that coercion makes is naive. -/
theorem offset_of_coerceInstant {v : Value} {t : DateTime} (h : coerceInstant v = .ok (.instant t)) :
    t.offset = none := by
  cases BecomesInstant.of_coerceInstant h with
  | millis _ h | double h => exact (isValid_of_instantOfSeconds h).2
  | text _ h | instant h => exact offset_of_toUniversal? h
  | date => rfl

/-- A point of time that coercion makes is naive and of the calendar. -/
theorem isValid_of_coerceInstant {u : Value} {t : DateTime} (hu : u.IsOfCalendar)
    (h : coerceInstant u = .ok (.instant t)) : t.isValid = true ∧ t.offset = none := by
  cases BecomesInstant.of_coerceInstant h with
  | millis _ h | double h => exact isValid_of_instantOfSeconds h
  | text hread h => exact DateTime.isValid_of_toUniversal? h (IsoReader.isValid_of_parse? hread)
  | instant h => exact DateTime.isValid_of_toUniversal? h hu
  | date => exact ⟨DateTime.isValid_ofDate hu, rfl⟩

/-- What coercion makes of a value for a column of points of time is null or a naive point of time, if
it has a form in such a column. -/
theorem admits_of_coerceInstant {u v w : Value} (hu : u.IsOfCalendar) (h : coerceInstant u = .ok v)
    (hv : Binding.instant.prepare v = .ok w) : AttributeType.datetime.Admits v := by
  have hinstant {t : DateTime} (h : coerceInstant u = .ok (.instant t)) :
      AttributeType.datetime.Admits (.instant t) := by
    obtain ⟨hvalid, hnaive⟩ := isValid_of_coerceInstant hu h
    exact .inr (.datetime hvalid hnaive)
  rcases coerceInstant_cases h with rfl | ⟨⟨t, rfl⟩, _⟩
  · cases v with
    | null => exact .inl rfl
    | instant t => exact hinstant h
    | date d => cases h
    | _ => cases hv
  · exact hinstant h

/-! ## Stored records -/

/-- Whether a value has a document, or is a byte string, which documents do not take. -/
def Value.IsWritable (v : Value) : Prop := Cache.HasDocument v ∨ ∃ bs, v = .bytes bs

/-- Whether a record has distinct fields, which hold what their types say and have documents, or are
byte strings. -/
def IsFromRow (types : Entries AttributeType) (record : Record) : Prop :=
  (Entries.keys record).Nodup ∧ ∀ e ∈ record, Cache.Suits (Entries.get? types e.1) e.2 ∧
    e.2.IsWritable

section

variable {m : Model}

/-- The value of a cell of an exact type suits the type, where a point of time was stored as one. -/
theorem suits_valueOf {type : AttributeType} {cell : Cell} {v : Value}
    (hexact : type.isExact = true) (hfits : type = .datetime → cell.Fits .datetime)
    (h : valueOf type cell = .ok v) : Cache.Suits (some type) v := by
  cases Reads.of_valueOf h with
  | null => cases type with
    | datetime | date | uuid => exact .inl rfl
    | decimal => cases hexact
    | _ => trivial
  | instant hread =>
    -- a text in such a column may have an offset: that it has none is known of what was stored
    obtain ⟨w, hw, hcell⟩ := hfits rfl
    rw [hcell, valueOf_storedCell hw] at h
    obtain rfl := Except.ok.inj h
    rcases hw with hnull | hw
    · cases hnull
    · cases hw with
      | datetime ht hnaive => exact .inr ⟨_, rfl, ht, hnaive⟩
  | date => exact .inr ⟨_, rfl⟩
  | uuid => exact .inr ⟨_, rfl⟩
  | integer | real => cases hexact
  | _ => trivial

/-- The value of a cell of an exact type has a document, a byte string apart. -/
theorem isWritable_valueOf {type : AttributeType} {cell : Cell} {v : Value}
    (hexact : type.isExact = true) (hshort : ∀ n, cell = .int n → fitsWord n = true)
    (h : valueOf type cell = .ok v) : v.IsWritable := by
  have hraw : (rawValue cell).IsWritable := by
    cases cell with
    | int n =>
      exact .inl (Cache.hasDocument_of_isDocument (Cache.decimalLength_le (hshort n rfl)))
    | blob bs => exact .inr ⟨bs, rfl⟩
    | _ => exact .inl ⟨_, rfl⟩
  cases Reads.of_valueOf h with
  | str | text | int => exact hraw
  | null | bool | date | instant | uuid => exact .inl ⟨_, rfl⟩
  | _ => cases hexact

/-- What is read from an inserted row is a stored record. -/
theorem isFromRow_of_insert (hm : m.IsProper) (hexact : ∀ a ∈ m.attributes, a.type.isExact = true)
    {values prepared : Entries Value} (hprepared : Database.prepareRow m values = .ok prepared)
    {cells : Entries Cell} (hcells : Database.readyRow prepared = .ok cells)
    (hvalues : ∀ a ∈ m.attributes, a.type = .datetime → ∀ v w,
      Entries.get? values a.name = some v → Binding.instant.prepare v = .ok w →
      AttributeType.datetime.Admits v)
    {t t' : Table} (ht : t.model = m) {row : Row} (hinsert : t.insert cells = .ok (t', row))
    {record : Record} (hrecord : Database.recordOf m row = .ok record) :
    IsFromRow m.attributeTypes record := by
  have hkeys := Registry.keys_of_recordOf hrecord
  refine ⟨hkeys ▸ hm, fun e he => ?_⟩
  obtain ⟨a, ha, hfield⟩ := Outcome.exists_of_mem_mapM hrecord he
  obtain ⟨v, hvalue, heq⟩ := Outcome.bind_eq_ok.mp hfield
  obtain rfl := Except.ok.inj heq
  simp only [hm.get?_attributeTypes ha]
  constructor
  · refine suits_valueOf (hexact a ha) (fun htype => ?_) hvalue
    subst ht
    rw [← htype]
    refine fits_insert hm hinsert ha (fits_readyRow hm hprepared hcells ha (hexact a ha) ?_)
    intro v w hv hw
    rw [htype] at hw ⊢
    exact hvalues a ha htype v w hv hw
  · refine isWritable_valueOf (hexact a ha) (fun n hn => ?_) hvalue
    simp only [Table.insert] at hinsert
    split_ifs at hinsert with hadmits
    cases hinsert
    rw [Table.admits, Bool.and_eq_true] at hadmits
    exact fitsWord_of_isFilled hadmits.1 (ht ▸ ha) hn

end

/-! ## Insertion -/

section

variable {d : Deployment} {name : String} {m : Model} {db db' : Database} {stored : List Record}

/-- Whether a record that is to be inserted names no times outside the calendar. -/
def KeepsCalendar (record : Value) : Prop :=
  ∀ fields, record.entries = .ok fields → ∀ e ∈ fields, e.2.IsOfCalendar

/-- Whether values of columns are points of time of the calendar wherever they have a form in a column
of points of time. -/
def AdmitInstants (m : Model) (values : Entries Value) : Prop :=
  ∀ a ∈ m.attributes, a.type = .datetime → ∀ v w, Entries.get? values a.name = some v →
    Binding.instant.prepare v = .ok w → AttributeType.datetime.Admits v

theorem admitInstants_columnValues (hm : m.IsProper) (htable : d.registry.table name = .ok m)
    {record : Value} (hrecord : KeepsCalendar record) {values : Entries Value}
    (h : columnValues d.registry name record = .ok values) : AdmitInstants m values := by
  intro a ha htype v w hv hw
  obtain ⟨fields, hfields, h⟩ := Outcome.bind_eq_ok.mp h
  obtain ⟨⟨k, u⟩, hku, hcoerce⟩ := Outcome.exists_of_mem_mapM h (Entries.mem_of_get? hv)
  obtain ⟨v', hcoerce, heq⟩ := Outcome.bind_eq_ok.mp hcoerce
  cases heq
  rw [Registry.attributeTypes_of_table htable, hm.get?_attributeTypes ha, htype] at hcoerce
  exact admits_of_coerceInstant (hrecord fields hfields _ (List.mem_filter.mp hku).1) hcoerce hw

/-- Rows that are inserted into a table of their model are read as stored records. -/
theorem Primary.InsertsEach.isFromRow {t t' : Table} {rows : List (Entries Value)} {inserted : List Row}
    (h : InsertsEach m t rows inserted t') (hm : m.IsProper)
    (hexact : ∀ a ∈ m.attributes, a.type.isExact = true)
    (hrows : ∀ values ∈ rows, AdmitInstants m values)
    (hstored : inserted.mapM (Database.recordOf m) = .ok stored) :
    ∀ record ∈ stored, IsFromRow m.attributeTypes record := by
  rw [Outcome.mapM_eq_ok_iff] at hstored
  induction h generalizing stored with
  | nil =>
    cases hstored
    nofun
  | @cons _ _ _ values _ _ _ _ _ hmodel hprepared hcells hinsert _ ih =>
    obtain ⟨record, records, hrecord, hrecords, rfl⟩ := List.forall₂_cons_left_iff.mp hstored
    refine List.forall_mem_cons.mpr ⟨?_, ?_⟩
    · exact isFromRow_of_insert hm hexact hprepared hcells (hrows values List.mem_cons_self) hmodel
        hinsert hrecord
    · exact ih (fun v hv => hrows v (List.mem_cons_of_mem values hv)) hrecords

/-- Rows that are inserted by whatever statements are read as stored records, and tables stay with
their models. -/
theorem isFromRow_of_insertRows (hr : d.registry.IsSound) (htable : d.registry.table name = .ok m)
    (hexact : ∀ a ∈ m.attributes, a.type.isExact = true) {rows : List (Entries Value)}
    (hrows : ∀ values ∈ rows, AdmitInstants m values) (hdb : db.IsOwn d.registry)
    (h : insertRows m rows db = .ok (db', stored)) :
    db'.IsOwn d.registry ∧ ∀ record ∈ stored, IsFromRow m.attributeTypes record := by
  have hm := hr.isProper (Registry.model?_of_table htable)
  unfold insertRows at h
  split_ifs at h
  · refine ⟨(Database.puts_insertMany h).isOwn hr htable hdb, ?_⟩
    obtain ⟨prepared, t, cells, t', inserted, hprepared, ht, hcells, hinserted, hstored, rfl⟩ :=
      Database.insertMany_eq_ok h
    exact (insertsEach_of_insertAll (hdb name m t htable ht) hprepared hcells hinserted).isFromRow hm
      hexact hrows hstored
  · refine Database.insertEach_keeps (fun db db' record values hvalues hdb hinsert => ?_) hdb h
    refine ⟨(Database.puts_insert hinsert).isOwn hr htable hdb, ?_⟩
    obtain ⟨prepared, t, cells, t', row, hprepared, ht, hcells, hinserted, hrecord, rfl⟩ :=
      Database.insert_eq_ok hinsert
    exact isFromRow_of_insert hm hexact hprepared hcells (hrows values hvalues)
      (hdb name m t htable ht) hinserted hrecord

/-- Inserted records are stored records, and tables stay with their models. -/
theorem isFromRow_of_insertion (hr : d.registry.IsSound) (htable : d.registry.table name = .ok m)
    (hexact : ∀ a ∈ m.attributes, a.type.isExact = true) {records : Value} {items : List Value}
    (hitems : records.items = .ok items) (hcalendar : ∀ item ∈ items, KeepsCalendar item)
    (hdb : db.IsOwn d.registry)
    (h : Twin.insertion d m name records items db = .ok (db', stored)) :
    db'.IsOwn d.registry ∧ ∀ record ∈ stored, IsFromRow m.attributeTypes record := by
  have hm := hr.isProper (Registry.model?_of_table htable)
  have hmany (h : creations d m name records db = .ok (db', stored)) :
      db'.IsOwn d.registry ∧ ∀ record ∈ stored, IsFromRow m.attributeTypes record := by
    rw [creations, hitems, Outcome.ok_bind] at h
    obtain ⟨rows, hrows, h⟩ := Outcome.bind_eq_ok.mp h
    refine isFromRow_of_insertRows hr htable hexact (fun values hvalues => ?_) hdb h
    obtain ⟨item, hitem, hcolumns⟩ := Outcome.exists_of_mem_mapM hrows hvalues
    exact admitInstants_columnValues hm htable (hcalendar item hitem) hcolumns
  rcases items with _ | ⟨item, _ | ⟨item', rest⟩⟩
  · exact hmany h
  · obtain ⟨⟨db₁, record⟩, hcreated, heq⟩ := Outcome.map_eq_ok.mp h
    obtain ⟨rfl, rfl⟩ := Prod.mk.inj heq
    obtain ⟨values, hvalues, hinsert⟩ := Outcome.bind_eq_ok.mp hcreated
    have hadmit := admitInstants_columnValues hm htable (hcalendar item List.mem_cons_self) hvalues
    refine ⟨(Database.puts_insert hinsert).isOwn hr htable hdb, List.forall_mem_singleton.mpr ?_⟩
    obtain ⟨prepared, t, cells, t', row, hprepared, ht, hcells, hinserted, hrecord, rfl⟩ :=
      Database.insert_eq_ok hinsert
    exact isFromRow_of_insert hm hexact hprepared hcells hadmit (hdb name m t htable ht) hinserted
      hrecord
  · exact hmany h

end

/-! ## Members of stored records -/

namespace Cache

variable {types : Entries AttributeType}

/-- Whether a fault says that a value has a kind that documents do not take. -/
def IsWrongKind (fault : Fault) : Prop := ∃ detail, fault = .wrongKind detail

/-- A record of values that can be written has a member, or a byte string. -/
theorem either_encode {record : Record} (h : ∀ e ∈ record, e.2.IsWritable) :
    Either (fun raw => encode record = .ok raw) IsWrongKind (encode record) := by
  cases hencode : encode record with
  | ok raw => rfl
  | error fault =>
    rw [encode, document_map] at hencode
    cases hms : (Entries.inOrder record).mapM entryDocument with
    | ok ms =>
      rw [hms] at hencode
      cases hencode
    | error fault' =>
      rw [hms] at hencode
      cases hencode
      obtain ⟨e, he, hfault⟩ := Outcome.exists_error_of_mapM hms
      rcases h e ((Entries.inOrder_perm _).mem_iff.mp he) with ⟨j, hj⟩ | ⟨bs, hbytes⟩
      · rw [entryDocument, hj] at hfault
        cases hfault
      · rw [entryDocument, hbytes] at hfault
        exact ⟨_, (Except.error.inj hfault).symm⟩

/-- A stored record has a tame member, or a byte string. -/
theorem either_memberOf {record : Record} (h : IsFromRow types record) (names : List String) :
    Either (IsTame types) IsWrongKind (memberOf names (.map record)) := by
  have hfields : ∀ e ∈ record.filter (fun e => !names.contains e.1),
      Suits (Entries.get? types e.1) e.2 ∧ e.2.IsWritable :=
    fun e he => h.2 e (List.mem_filter.mp he).1
  apply (either_encode fun e he => (hfields e he).2).imp _ fun _ => id
  intro raw hencode
  apply isTame_of_encode _ (fun e he => (hfields e he).1) hencode
  exact (List.filter_sublist.map Prod.fst).nodup h.1

/-- Stored records have tame members, or one of them has a byte string. -/
theorem either_membersOf {stored : List Record} (h : ∀ record ∈ stored, IsFromRow types record)
    (names : List String) : Either (fun members => ∀ raw ∈ members, IsTame types raw) IsWrongKind
      (membersOf names (Twin.asValue stored)) := by
  show Either _ _ ((stored.map Value.map).mapM (memberOf names))
  apply Either.mapM
  intro v hv
  obtain ⟨record, hrecord, rfl⟩ := List.mem_map.mp hv
  exact either_memberOf (h record hrecord) names

end Cache

/-! ## Other statements -/

section

variable {r : Registry} {name : String} {m : Model} {db db' : Database}

/-- Changing records leaves tables with their models. -/
theorem isOwn_changing (hr : r.IsSound) (htable : r.table name = .ok m) (hdb : db.IsOwn r)
    {spec where_ : Value} {counts : ChangeCounts}
    (h : changing m spec where_ db = .ok (db', counts)) : db'.IsOwn r := by
  obtain ⟨_, _, h⟩ := Outcome.bind_eq_ok.mp h
  obtain ⟨_, _, h⟩ := Outcome.bind_eq_ok.mp h
  obtain ⟨values, _, h⟩ := Outcome.bind_eq_ok.mp h
  obtain ⟨found, _, h⟩ := Outcome.bind_eq_ok.mp h
  split_ifs at h
  · cases h
    exact hdb
  · obtain ⟨db₁, hupdate, heq⟩ := Outcome.bind_eq_ok.mp h
    cases heq
    exact (Database.puts_update hupdate).isOwn hr htable hdb

/-- Deleting a record leaves tables with their models. -/
theorem isOwn_deletion (hr : r.IsSound) (htable : r.table name = .ok m) (hdb : db.IsOwn r)
    {row : Value} {found : Bool} (h : deletion m row db = .ok (db', found)) : db'.IsOwn r := by
  obtain ⟨_, _, h⟩ := Outcome.bind_eq_ok.mp h
  obtain ⟨_, _, h⟩ := Outcome.bind_eq_ok.mp h
  obtain ⟨⟨db₁, deleted⟩, hdelete, heq⟩ := Outcome.bind_eq_ok.mp h
  cases heq
  exact (Database.puts_delete hdelete).isOwn hr htable hdb

end

end TwinStore
