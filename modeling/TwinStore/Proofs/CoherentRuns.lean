import TwinStore.Proofs.CoherentDeletion
import TwinStore.Proofs.SearchAgreement

/-!
# Runs that keep the stores coherent

From empty stores on, operations in which no store fails leave every set with exactly the members of
the rows in the table of its model.  A read then gives what a query of the primary store gives.

Main definitions:

- `Stores.Mirrored`: stores that answer, with typed tables that their sets mirror.
- `Operation.IsAccepted`: an operation all of whose values are accepted by their attributes.
- `Stores.Coordinated`: the stores that such operations reach from empty ones.

Main results:

- Theorem `perform_ensures`: every operation in which no store fails keeps the stores mirrored.
- Theorem `stores_stay_coherent`: the sets mirror the tables, and reads agree with queries.
-/

namespace TwinStore

open Primary Filter Include Action Twin

/-! ## Mirrored stores -/

/-- Stores that answer, with typed tables that their sets mirror. -/
structure Stores.Mirrored (d : Deployment) (s : Stores) : Prop where
  isUp : s.IsUp d
  planned : s.plannedDeletions = []
  typed : s.database.IsTyped d.registry
  sorted : Cache.AreSorted s.server.sets
  coherent : Coherent d s.server.sets s.database

section

variable {d : Deployment} {c : Stores} {sets : Entries (List String)} {db : Database} {name : String}
  {m : Model}

theorem Stores.Mirrored.stands (h : c.Mirrored d) :
    Stores.Stands d c.server.sets (c.database, []) c :=
  ⟨h.isUp, rfl, by rw [Stores.primary, h.planned]⟩

theorem Stores.Mirrored.of_stands (h : Stores.Stands d sets (db, []) c)
    (hdb : db.IsTyped d.registry) (hsorted : Cache.AreSorted sets) (hc : Coherent d sets db) :
    c.Mirrored d := by
  have hdatabase : c.database = db := congrArg Prod.fst h.primary_eq
  exact ⟨h.isUp, congrArg Prod.snd h.primary_eq, hdatabase ▸ hdb, h.sets_eq ▸ hsorted,
    hdatabase ▸ h.sets_eq ▸ hc⟩

/-! ## Reads -/

/-- Where the sets mirror the tables, a read changes nothing and gives what a query gives. -/
theorem Twin.exists_read_leads (hr : d.registry.IsMirrored) (hdb : db.IsTyped d.registry)
    (hc : Coherent d sets db) (hm : d.registry.table name = .ok m) {where_ : Value}
    {f : Formula Requirement} (hf : Requires m where_ f) {tokens : List Token}
    (htokens : AcceptsRequest d.registry name none tokens) (planned : List (Option Bool)) :
    ∃ plans found rows, (resolve d.registry (tableForm d.registry) name tokens).run.2 = .ok plans ∧
      (∀ given attributes, (Twin.read d given name where_ attributes tokens).Leads
        (Stores.Stands d sets (db, planned)) ((shown d.registry.modelNames attributes found).map some)
        (Stores.Stands d sets (db, planned))) ∧
      (∀ given, (query d given name (.filter where_) .null plans).Leads
        (Stores.Stands d sets (db, planned)) (.ok (some rows)) (Stores.Stands d sets (db, planned))) ∧
      (asValue found).Alike (asValue rows) := by
  obtain ⟨plans, plans', hplans, hplans', hagree⟩ := resolve_agree hr.sound htokens
  obtain ⟨found, hfind, hfound⟩ : ∃ found, (∀ given, (Cache.find d given name where_ plans).Leads
      (Stores.Stands d sets (db, planned)) (.ok (some found)) (Stores.Stands d sets (db, planned))) ∧
      Matched m.Matches found (join d.registry db plans'
        (selected d.registry db name (some (clauseOf m f)))) :=
    Cache.find_matches hr hdb hc hm hf hagree
  obtain ⟨rows, hselect, hrows⟩ := selectWith_matches hr hdb hm hf.2 hagree
  have hquery := query_leads hm hf hselect sets planned
  have hmodel := Registry.hasModel_of_table hm
  have hempty : found.isEmpty = rows.isEmpty := hfound.isEmpty_eq.trans hrows.isEmpty_eq.symm
  refine ⟨plans', found, rows, hplans', fun given attributes => ?_, hquery,
    hfound.alike_asValue.trans hrows.alike_asValue.symm⟩
  by_cases hnone : found = []
  · obtain rfl : rows = [] := List.isEmpty_iff.mp (hempty ▸ List.isEmpty_iff.mpr hnone)
    subst hnone
    exact read_miss_leads hmodel given hplans (fun ref => hfind (some ref)) hplans'
      (fun ref => hquery (some ref)) (fun _ _ => id) fun hne => absurd rfl hne
  · exact read_hit_leads hmodel given hplans hnone fun ref => hfind (some ref)

/-! ## Accepted operations -/

/-- Whether all values that an operation is given are accepted: the filters for their models, and the
new values for their attributes, of which an update names none twice. -/
def Twin.Operation.IsAccepted (r : Registry) : Operation → Prop
  | .read model where_ _ tokens => AcceptedFor r model where_ ∧ AcceptsRequest r model none tokens
  | .save model records => ∃ m, r.table model = .ok m ∧ AcceptsRecord m records ∧
      ∀ items, records.items = .ok items → ∀ record ∈ items, AcceptsRecord m record
  | .update model spec where_ => ∃ m, r.table model = .ok m ∧ AcceptsRecord m spec ∧
      (∀ fields, spec.entries = .ok fields → (Entries.keys fields).Nodup) ∧ AcceptedFor r model where_
  | .delete model where_ => AcceptedFor r model where_

/-! ## Steps -/

namespace Twin

/-- A read keeps the stores mirrored. -/
theorem read_ensures (hr : d.registry.IsMirrored) {where_ : Value} {tokens : List Token}
    (hwhere : AcceptedFor d.registry name where_)
    (htokens : AcceptsRequest d.registry name none tokens) (given : Option CorrelationRef)
    (attributes : Value) :
    Ensures (Stores.Mirrored d) (read d given name where_ attributes tokens)
      fun _ c => c.Mirrored d := by
  obtain ⟨m, f, hm, hf⟩ := hwhere
  refine Ensures.of_content fun c h => ?_
  obtain ⟨_, _, _, _, hread, _⟩ := exists_read_leads hr h.typed h.coherent hm hf htokens []
  exact Ensures.of_leads ((hread given attributes).weaken (fun c' hc' => hc' ▸ h.stands) fun _ => id)
    fun _ c' _ hc' => .of_stands hc' h.typed h.sorted h.coherent

/-- A statement that gives something leaves the database that it makes. -/
theorem ensures_of_statement {α : Type} {x : Action (Option α)} {o : Outcome (Database × α)}
    (h : x.Gives c (answered (o.map (·.2))) (c.after o)) :
    Ensures (· = c) x fun answer c' =>
      ∀ a, answer = some a → ∃ db', o = .ok (db', a) ∧ c' = { c with database := db' } := by
  refine Ensures.of_leads h fun answer c' hanswer hc' a ha => ?_
  subst hc' ha
  cases o with
  | error fault =>
    simp only [Except.map, answered] at hanswer
    split_ifs at hanswer
    cases hanswer
  | ok result =>
    obtain ⟨db', b⟩ := result
    obtain rfl := Option.some.inj (Except.ok.inj hanswer)
    exact ⟨db', rfl, rfl⟩

/-- What records leave that were inserted: their rows are in the table. -/
def HasInserted (d : Deployment) (m : Model) (c : Stores) (stored : List Record) (c' : Stores) : Prop :=
  ∃ db' rows, c' = { c with database := db' } ∧ db'.IsTyped d.registry ∧
    Database.Gains c.database m rows db' ∧ rows.mapM (Database.recordOf m) = .ok stored

/-- Records that are inserted leave their rows. -/
theorem insertAll_ensures (hr : d.registry.IsMirrored) (hdb : c.database.IsTyped d.registry)
    (hm : d.registry.table name = .ok m) {records : Value} (htruthy : records.isTruthy = true)
    (haccepts : ∀ items, records.items = .ok items → ∀ record ∈ items, AcceptsRecord m record)
    (ref : CorrelationRef) :
    Ensures (· = c) (insertAll d ref name records) fun answer c' =>
      ∀ stored, answer = some stored → HasInserted d m c stored c' := by
  cases hitems : records.items with
  | error fault =>
    rw [insertAll, hitems]
    exact Ensures.of_leads (Leads.bind_error (Leads.throw fault _)) nofun
  | ok items =>
    have hitem := haccepts items hitems
    rw [insertAll, hitems]
    refine Ensures.leads_bind (Leads.ofOutcome (.ok items) _) ?_
    split
    · next record =>
      refine Ensures.bind (ensures_of_statement (create_gives hm (some ref) record c)) fun answer => ?_
      refine Ensures.pure fun c' h stored hstored => ?_
      obtain ⟨first, rfl, rfl⟩ := Option.map_eq_some_iff.mp hstored
      obtain ⟨db', hcreation, rfl⟩ := h first rfl
      obtain ⟨row, hgains, hrecord, -⟩ := gains_creation (hdb.has hm) hcreation
      exact ⟨db', [row], rfl, isTyped_creation hr.sound hm hdb (hitem record List.mem_cons_self)
        hcreation, hgains, by rw [Outcome.mapM_cons, hrecord]; rfl⟩
    · refine (ensures_of_statement (createAll_gives hm (some ref) htruthy c)).weaken (fun _ => id)
        fun answer c' h stored hstored => ?_
      obtain ⟨db', hcreations, rfl⟩ := h stored hstored
      obtain ⟨rows, hgains, hrecords, -⟩ := gains_creations (hdb.has hm) hitems hcreations
      exact ⟨db', rows, rfl, isTyped_creations hr.sound hm hdb hitems hitem hcreations, hgains,
        hrecords⟩

/-- Records that were inserted and added to the cache keep the stores mirrored. -/
theorem HasInserted.create_ensures (hr : d.registry.IsMirrored) (h : c.Mirrored d)
    (hm : d.registry.table name = .ok m) {stored : List Record} {c' : Stores}
    (hinserted : HasInserted d m c stored c') (ref : CorrelationRef) :
    Ensures (· = c') (Cache.create d (some ref) name (asValue stored)) fun _ c => c.Mirrored d := by
  obtain ⟨db', rows, rfl, hdb', hgains, hstored⟩ := hinserted
  have hstands : Stores.Stands d c.server.sets (db', []) { c with database := db' } :=
    ⟨⟨h.isUp.answers, h.isUp.reachable⟩, rfl, by rw [Stores.primary, h.planned]⟩
  have hknown := Registry.hasModel_of_table hm
  have hleads : ∃ sets' answer, Grown d [(name, stored)] c.server.sets sets' ∧
      (Cache.create d (some ref) name (asValue stored)).Leads (Stores.Stands d c.server.sets (db', []))
        (.ok (some answer)) (Stores.Stands d sets' (db', [])) := by
    by_cases hnone : stored = []
    · subst hnone
      exact ⟨_, false, ⟨fun name raw => by simp, id⟩, Cache.create_nothing_leads hknown _ rfl _⟩
    · obtain ⟨t, ht, htyped⟩ := hdb' name m hm
      obtain ⟨t₀, ht₀, _⟩ := h.typed name m hm
      obtain ⟨t₁, ht₁, _, hrows⟩ := hgains.rows t₀ ht₀
      obtain rfl : t = t₁ := Except.ok.inj (ht.symm.trans ht₁)
      have hmembers : ∀ record ∈ stored, ∃ raw, IsMemberOf d record raw := by
        intro record hrecord
        obtain ⟨row, hrow, hread⟩ := Outcome.exists_of_mem_mapM hstored hrecord
        have hmem : row ∈ t.rows := hrows ▸ List.mem_append_right _ hrow
        have hmodel := Registry.model?_of_table hm
        exact ⟨_, memberOf_record hr hm (isRecord_of_recordOf (hr.sound.isProper hmodel)
          (hr.exact hmodel) (htyped.rows row hmem) hread)⟩
      obtain ⟨sets', hgrown, hcreate⟩ := create_group_leads c.server.sets (db', []) hknown hnone hmembers
        (some ref)
      exact ⟨sets', true, hgrown, hcreate⟩
  obtain ⟨sets', answer, hgrown, hcreate⟩ := hleads
  exact Ensures.of_leads (hcreate.weaken (fun c' hc' => hc' ▸ hstands) fun _ => id) fun _ c' _ hc' =>
    .of_stands hc' hdb' (hgrown.sorted h.sorted)
      (h.coherent.grown hr h.typed hdb' h.sorted hm hgains hstored hgrown)

/-- Saving accepted records keeps the stores mirrored, if no store fails. -/
theorem save_ensures (hr : d.registry.IsMirrored) {records : Value}
    (haccepts : (Operation.save name records).IsAccepted d.registry) (given : Option CorrelationRef) :
    Ensures (Stores.Mirrored d) (save d given name records)
      fun outcome c => (Answer.saved outcome).IsComplete → c.Mirrored d := by
  obtain ⟨m, hm, haccepts, hitems⟩ := haccepts
  refine Ensures.of_content fun c h => Ensures.inScope fun ref => ?_
  refine Ensures.leads_bind (Leads.knows (Registry.hasModel_of_table hm) ref component _) ?_
  simp only
  have hseveral : ∀ items, (if records.isMap then .list [records] else records : Value).items =
      .ok items → ∀ record ∈ items, AcceptsRecord m record := by
    split_ifs
    · rintro items ⟨⟩ record hrecord
      rwa [List.mem_singleton.mp hrecord]
    · exact hitems
  generalize (if records.isMap then .list [records] else records : Value) = several at hseveral ⊢
  cases htruthy : several.isTruthy with
  | false =>
    refine Ensures.of_leads (Leads.bind (Leads.report _ _ _ _ _ _) (Leads.pure _ _)) ?_
    rintro _ c' ⟨⟩ _ ⟨hprimary, _⟩
    cases hprimary
  | true =>
    refine Ensures.bind (insertAll_ensures hr h.typed hm htruthy hseveral ref) fun answer => ?_
    cases answer with
    | none => exact Ensures.pure fun c' _ hcomplete => by cases hcomplete.1
    | some stored =>
      refine Ensures.of_content fun c' hc' => Ensures.bind
        ((hc' stored rfl).create_ensures hr h hm ref) fun cache => ?_
      split_ifs
      · exact Ensures.of_leads (Leads.bind (Leads.report _ _ _ _ _ _) (Leads.pure _ _))
          fun _ _ _ hc _ => hc
      · exact Ensures.of_leads (Leads.bind (Leads.pure _ _) (Leads.pure _ _)) fun _ _ _ hc _ => hc

/-- Updating records with accepted values keeps the stores mirrored, if no store fails. -/
theorem update_ensures (hr : d.registry.IsMirrored) {spec where_ : Value}
    (haccepts : (Operation.update name spec where_).IsAccepted d.registry)
    (given : Option CorrelationRef) :
    Ensures (Stores.Mirrored d) (update d given name spec where_)
      fun outcome c => (Answer.updated outcome).IsComplete → c.Mirrored d := by
  obtain ⟨m, hm, haccepts, hkeys, m', f, hm', hf⟩ := haccepts
  obtain rfl : m = m' := Except.ok.inj (hm.symm.trans hm')
  refine Ensures.of_content fun c h => Ensures.inScope fun ref => ?_
  refine Ensures.leads_bind (Leads.knows (Registry.hasModel_of_table hm) ref component _) ?_
  refine Ensures.bind (ensures_of_statement (update_gives hm (some ref) spec where_ c))
    fun primary => ?_
  cases primary with
  | none =>
    refine Ensures.bind (Q := fun _ _ => True) (fun _ _ _ _ _ => trivial) fun cache => ?_
    exact Ensures.pure fun _ _ hcomplete => by cases hcomplete.1
  | some counts =>
    refine Ensures.of_content fun c' hc' => ?_
    obtain ⟨db', hchanging, rfl⟩ := hc' counts rfl
    obtain ⟨sets', answer, hcache, hsorted, hcoherent⟩ :=
      exists_update_leads hr h.typed h.sorted h.coherent hm haccepts hkeys hf hchanging
    have hstands : Stores.Stands d c.server.sets (db', []) { c with database := db' } :=
      ⟨⟨h.isUp.answers, h.isUp.reachable⟩, rfl, by rw [Stores.primary, h.planned]⟩
    refine Ensures.leads_bind ((hcache (some ref)).weaken (fun c' hc' => hc' ▸ hstands) fun _ => id)
      (Ensures.pure fun c' hc' _ => .of_stands hc' ?_ hsorted hcoherent)
    exact isTyped_changing hr.sound hm h.typed haccepts hchanging

/-- Deleting records by an accepted filter keeps the stores mirrored, if no store fails. -/
theorem delete_ensures (hr : d.registry.IsMirrored) {where_ : Value}
    (haccepts : AcceptedFor d.registry name where_) (given : Option CorrelationRef) :
    Ensures (Stores.Mirrored d) (delete d given name where_)
      fun outcome c => outcome.IsComplete → c.Mirrored d := by
  obtain ⟨m, f, hm, hf⟩ := haccepts
  refine Ensures.of_content fun c h => Ensures.inScope fun ref => ?_
  refine Ensures.leads_bind (Leads.knows (Registry.hasModel_of_table hm) ref component _) ?_
  refine Ensures.get_bind fun s hs => ?_
  refine Ensures.bind ((deletes_deleteWithin hr h.typed ref (s.database.size + 1) name where_ [] []
    [] ⟨m, f, hm, hf⟩ fun _ => by simp).weaken (fun c' hc' => ?_) fun _ _ => id) fun a => ?_
  · rw [hc', hs]
    exact .start hr h.isUp h.planned h.typed h.sorted h.coherent
  · refine Ensures.pure fun c' hc' hcomplete => ?_
    obtain ⟨new, _, _, hdeleting⟩ := hc' hcomplete
    obtain ⟨htyped, hcoherent⟩ := hdeleting.coherent hr h.typed
    exact ⟨hdeleting.isUp, hdeleting.planned, htyped, hdeleting.sorted, hcoherent⟩

/-- Every operation with accepted values keeps the stores mirrored, if no store fails. -/
theorem perform_ensures (hr : d.registry.IsMirrored) {operation : Operation}
    (haccepts : operation.IsAccepted d.registry) (given : Option CorrelationRef) :
    Ensures (Stores.Mirrored d) (operation.perform d given)
      fun answer c => answer.IsComplete → c.Mirrored d := by
  cases operation with
  | read model where_ attributes tokens =>
    exact Ensures.map ((read_ensures hr haccepts.1 haccepts.2 given attributes).weaken (fun _ => id)
      fun _ _ hc _ => hc)
  | save model records => exact Ensures.map (save_ensures hr haccepts given)
  | update model spec where_ => exact Ensures.map (update_ensures hr haccepts given)
  | delete model where_ => exact Ensures.map (delete_ensures hr haccepts given)

end Twin

end

/-! ## Runs -/

/-- The stores that operations with accepted values reach from empty ones while no store fails. -/
inductive Stores.Coordinated (d : Deployment) : Stores → Prop
  | start {s : Stores} (hup : s.IsUp d) (hplanned : s.plannedDeletions = [])
      (hsets : s.server.sets = [])
      (hdatabase : s.database = Database.create (d.registry.models.map (·.2))) : Coordinated d s
  | step {s s' : Stores} {given : Option CorrelationRef} {operation : Operation} {answer : Answer}
      (hs : Coordinated d s) (haccepts : operation.IsAccepted d.registry)
      (hrun : runFrom (operation.perform d given) s = (.ok answer, s'))
      (hcomplete : answer.IsComplete) : Coordinated d s'

/-- The tables that are created have no rows. -/
theorem Primary.Database.rows_create {models : List Model} {m : Model} {t : Table}
    (ht : (Database.create models).table m = .ok t) : t.rows = [] := by
  unfold Database.table at ht
  split at ht
  · next t' hget =>
    obtain ⟨m', _, heq⟩ := List.mem_map.mp (Entries.mem_of_get? hget)
    rw [← Except.ok.inj ht, ← (Prod.mk.inj heq).2]
  · cases ht

/-- Empty stores are mirrored. -/
theorem Stores.Mirrored.empty {d : Deployment} (hr : d.registry.IsMirrored) {c : Stores}
    (hup : c.IsUp d) (hplanned : c.plannedDeletions = []) (hsets : c.server.sets = [])
    (hdatabase : c.database = Database.create (d.registry.models.map (·.2))) : c.Mirrored d := by
  have htyped : c.database.IsTyped d.registry := hdatabase ▸ Database.isTyped_create hr.sound
  refine ⟨hup, hplanned, htyped, hsets ▸ Cache.AreSorted.empty,
    Coherent.of_perm hr htyped fun name m t hm ht => ?_⟩
  have hrows : t.rows = [] := by
    rw [hdatabase] at ht
    exact Database.rows_create ht
  rw [hrows, setOf, hsets]
  exact List.Perm.refl _

/-- Operations with accepted values in which no store fails keep the stores mirrored. -/
theorem Stores.Coordinated.mirrored {d : Deployment} (hr : d.registry.IsMirrored) {s : Stores}
    (h : s.Coordinated d) : s.content.Mirrored d := by
  induction h with
  | start hup hplanned hsets hdatabase =>
    exact .empty hr ⟨hup.answers, hup.reachable⟩ hplanned hsets hdatabase
  | step _ haccepts hrun hcomplete ih =>
    exact perform_ensures hr haccepts _ _ _ _ ih hrun hcomplete

/-- While no store fails, operations with accepted values leave each set with exactly the encoded
records of the rows in the table of its model, and a read gives the records that a query of the primary
store gives. -/
theorem stores_stay_coherent {d : Deployment} (hr : d.registry.IsMirrored) {s : Stores}
    (h : s.Coordinated d) :
    Coherent d s.server.sets s.database ∧
    ∀ (name : String) (where_ attributes : Value) (tokens : List Token)
      (given given' : Option CorrelationRef), AcceptedFor d.registry name where_ →
      AcceptsRequest d.registry name none tokens →
      ∃ plans found rows s₁ s₂,
        (resolve d.registry (tableForm d.registry) name tokens).run.2 = .ok plans ∧
        runFrom (Twin.read d given name where_ attributes tokens) s =
          ((shown d.registry.modelNames attributes found).map some, s₁) ∧
        runFrom (query d given' name (.filter where_) .null plans) s = (.ok (some rows), s₂) ∧
        (asValue found).Alike (asValue rows) := by
  have hmirrored := h.mirrored hr
  refine ⟨hmirrored.coherent, ?_⟩
  rintro name where_ attributes tokens given given' ⟨m, f, hm, hf⟩ htokens
  obtain ⟨plans, found, rows, hplans, hread, hquery, hsame⟩ :=
    exists_read_leads hr hmirrored.typed hmirrored.coherent hm hf htokens []
  obtain ⟨s₁, hrun, _⟩ := hread given attributes s hmirrored.stands
  obtain ⟨s₂, hrun', _⟩ := hquery given' s hmirrored.stands
  exact ⟨plans, found, rows, s₁, s₂, hplans, hrun, hrun', hsame⟩

/-! ## A record in both stores -/

/-- Empty stores for the model of nodes. -/
def noNodes : Stores := { database := Database.create (nodes.registry.models.map (·.2)) }

/-- A record that names itself as its parent is saved. -/
def saveLoop : Operation := .save "node" (.map [("id", .int 1), ("parent", .int 1)])

/-- The stores with that record. -/
def savedLoop : Stores := (runFrom (saveLoop.perform nodes none) noNodes).2

/-- The record gives its parent up. -/
def openLoop : Operation := .update "node" (.map [("parent", .null)]) firstNode

/-- The stores with the record without a parent. -/
def openedLoop : Stores := (runFrom (openLoop.perform nodes none) savedLoop).2

/-- Integers and nulls are accepted by all attributes of a node. -/
theorem acceptsRecord_node {fields : Entries Value}
    (hfields : ∀ e ∈ fields, e.2 = .null ∨ ∃ n, e.2 = .int n ∧ fitsWord n = true) :
    AcceptsRecord node (.map fields) := by
  rintro _ ⟨⟩ a ha _ v hv
  have hint : ∀ a ∈ node.attributes, a.type = .int := by decide
  rw [hint a ha]
  obtain rfl | ⟨n, rfl, hword⟩ : v = .null ∨ ∃ n, v = .int n ∧ fitsWord n = true := hfields _ hv
  · exact ⟨.null, rfl, Or.inl rfl⟩
  · exact ⟨.int n, rfl, Or.inr (.int hword)⟩

theorem requires_firstNode :
    Requires node firstNode (.conj [.leaf ⟨"id", .eq, .int 1⟩]) := by
  refine ⟨⟨[], by cbv⟩, fun c hc => ?_⟩
  rw [Formula.leaves, Formula.leavesOf, Formula.leavesOf, List.append_nil, Formula.leaves,
    List.mem_singleton] at hc
  subst hc
  exact ⟨.int, by decide, rfl, .int 1, rfl, Or.inr (.int (by decide))⟩

theorem accepts_saveLoop : saveLoop.IsAccepted nodes.registry := by
  refine ⟨node, rfl, acceptsRecord_node ?_, fun items hitems record hrecord => ?_⟩
  · simp only [List.forall_mem_cons]
    exact ⟨.inr ⟨1, rfl, by decide⟩, .inr ⟨1, rfl, by decide⟩, nofun⟩
  · cases hitems
    obtain ⟨e, _, rfl⟩ := List.mem_map.mp hrecord
    exact nofun

theorem accepts_openLoop : openLoop.IsAccepted nodes.registry := by
  refine ⟨node, rfl, acceptsRecord_node ?_, ?_, node, _, rfl, requires_firstNode⟩
  · exact List.forall_mem_singleton.mpr (.inl rfl)
  · rintro _ ⟨⟩
    decide

theorem coordinated_savedLoop : savedLoop.Coordinated nodes := by
  have hsave : (runFrom (saveLoop.perform nodes none) noNodes).1 = .ok (.saved
      ⟨some true, some true, some [[("id", .int 1), ("parent", .int 1)]]⟩) := by cbv
  have hstart : noNodes.Coordinated nodes := .start ⟨fun _ => rfl, .inr (.inl rfl)⟩ rfl rfl rfl
  exact .step hstart accepts_saveLoop (Prod.ext hsave rfl) ⟨rfl, rfl⟩

theorem coordinated_openedLoop : openedLoop.Coordinated nodes := by
  have hopen : (runFrom (openLoop.perform nodes none) savedLoop).1 = .ok (.updated
      ⟨some ⟨1, 1, false⟩, some ⟨1, 1, false⟩⟩) := by cbv
  exact .step coordinated_savedLoop accepts_openLoop (Prod.ext hopen rfl) ⟨rfl, rfl⟩

theorem opened_loop_is_coherent :
    openedLoop.Coordinated nodes ∧ Coherent nodes openedLoop.server.sets openedLoop.database ∧
    ∃ plans found rows s₁ s₂,
      (resolve nodes.registry (tableForm nodes.registry) "node" laterChildren).run.2 = .ok plans ∧
      runFrom (Twin.read nodes none "node" .null (.text "all") laterChildren) openedLoop =
        ((shown nodes.registry.modelNames (.text "all") found).map some, s₁) ∧
      runFrom (query nodes none "node" (.filter .null) .null plans) openedLoop =
        (.ok (some rows), s₂) ∧
      (asValue found).Alike (asValue rows) := by
  obtain ⟨hcoherent, hread⟩ := stores_stay_coherent isMirrored_nodes coordinated_openedLoop
  exact ⟨coordinated_openedLoop, hcoherent, hread "node" .null (.text "all") laterChildren none none
    ⟨node, _, rfl, requires_null node⟩ accepts_laterChildren⟩

end TwinStore
