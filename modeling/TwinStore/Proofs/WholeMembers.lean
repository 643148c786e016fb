import Mathlib
import TwinStore.Proofs.CascadeDelete
import TwinStore.Proofs.Maintained
import TwinStore.Proofs.Operations
import TwinStore.Proofs.Refilling
import TwinStore.Proofs.WholeRows

/-!
# Whole members of the cache

A record in the cache has all attributes of its model.  Every operation keeps it so, whatever the filters
and whichever commands of the cache fail, as long as the plans of its request are shown whole records
wherever they leave no field out.

Main definitions:

- `HoldsWhole`: sets of which every member has exactly the attributes of its model.
- `Operation.ShowsWhole`: an operation whose request includes no relation twice, first with all fields
  and then with some.
- `Stores.Served`: the stores that such operations reach from an empty cache.

Main results:

- Theorem `perform_maintains`: every operation keeps the members whole.
- Theorem `members_are_whole`: all members of the cache are whole.
- Theorem `projected_twice_is_cached`: a relation that is included a second time with some of its
  fields leaves partial records in the cache.
-/

namespace TwinStore

open Primary Filter Include Action Cache

/-! ## Whole members -/

/-- Whether a text is the member of a record with exactly the attributes of a model. -/
def Cache.IsWholeMember (m : Model) (raw : String) : Prop :=
  ∃ record : Record, (Entries.keys record).Perm (m.attributes.map (·.name)) ∧
    encode record = .ok raw

/-- Whether the members of every set have exactly the attributes of their model. -/
def HoldsWhole (d : Deployment) (sets : Entries (List String)) : Prop :=
  ∀ name m, d.registry.model? name = some m → ∀ raw ∈ setOf d sets name, IsWholeMember m raw

section

variable {d : Deployment} {name model : String} {m : Model} {server : Server} {record : Record}
  {members : List String} {raw : String}

/-- Adding whole members keeps the members whole. -/
theorem HoldsWhole.add (h : HoldsWhole d server.sets)
    (hmembers : ∀ m, d.registry.model? model = some m → ∀ raw ∈ members, IsWholeMember m raw) :
    HoldsWhole d (server.add (setKey d model) members).sets := by
  intro name m hm raw hraw
  rcases Server.mem_members_add.mp hraw with hold | ⟨hkey, hnew⟩
  · exact h name m hm raw hold
  · obtain rfl := setKey_inj.mp hkey
    exact hmembers m hm raw hnew

/-- Removing members keeps the members whole. -/
theorem HoldsWhole.remove (h : HoldsWhole d server.sets) (key : String) (members : List String) :
    HoldsWhole d (server.remove key members).sets :=
  fun name m hm raw hraw => h name m hm raw (Server.mem_members_remove.mp hraw).1

/-- The member of a whole record is whole. -/
theorem isWholeMember_of_isWhole (h : d.registry.IsWhole model record)
    (hm : d.registry.model? model = some m)
    (hraw : memberOf d.registry.modelNames (.map record) = .ok raw) : IsWholeMember m raw := by
  obtain ⟨m', hm', hkeys⟩ := h
  obtain rfl : m' = m := Option.some.inj ((Registry.model?_of_table hm').symm.trans hm)
  exact ⟨d.registry.ownFields record, List.Perm.of_eq hkeys, hraw⟩

/-- The members of whole records are whole. -/
theorem isWholeMember_of_membersOf {records : List Record}
    (hrecords : ∀ record ∈ records, d.registry.IsWhole model record)
    (hm : d.registry.model? model = some m)
    (h : membersOf d.registry.modelNames (Twin.asValue records) = .ok members) :
    ∀ raw ∈ members, IsWholeMember m raw := by
  intro raw hraw
  obtain ⟨item, hitem, hmember⟩ := Outcome.exists_of_mem_mapM h hraw
  obtain ⟨record, hrecord, rfl⟩ := List.mem_map.mp hitem
  exact isWholeMember_of_isWhole (hrecords record hrecord) hm hmember

/-! ## Updated records -/

/-- An update of known fields leaves the fields of a record as they are. -/
theorem keys_revise {spec : Entries Value} {types : Entries AttributeType} {updated : Record}
    (hspec : ∀ e ∈ spec, e.1 ∈ Entries.keys record) (h : revise spec record types = .ok updated) :
    Entries.keys updated = Entries.keys record := by
  apply revise_induction (P := fun before => Entries.keys before = Entries.keys record) h rfl
  intro before hbefore e he v _
  rw [Entries.keys_set, if_pos (hbefore ▸ hspec e he), hbefore]

/-- The members of updated records are whole. -/
theorem isWholeMember_of_updatedMembers (hr : d.registry.IsSound) (hapart : d.registry.NamesApart)
    (hm : d.registry.model? model = some m) {spec : Value} {fields : List String}
    (hfields : updatedFields spec = .ok fields)
    (hknown : ∀ field ∈ fields, Entries.has (d.registry.attributeTypes model) field = true)
    {found : List (String × Record)} (hfound : ∀ e ∈ found, IsWholeMember m e.1 ∧
      decode e.1 (d.registry.attributeTypes model) = .ok e.2)
    (h : updatedMembers d model spec (found.map (·.2)) = .ok members) :
    ∀ raw ∈ members, IsWholeMember m raw := by
  have hproper := hr.isProper hm
  have hnames : Entries.keys (d.registry.attributeTypes model) = m.attributes.map (·.name) := by
    rw [Registry.attributeTypes, hm]
    show Entries.keys m.attributeTypes = _
    rw [hproper.attributeTypes_eq, Entries.keys, List.map_map]
    rfl
  obtain ⟨entries, hentries, hrest⟩ := Outcome.bind_eq_ok.mp h
  obtain ⟨updated, hupdated, hall⟩ := Outcome.bind_eq_ok.mp hrest
  obtain rfl : spec = .map entries := by
    cases spec with
    | map fields => exact congrArg Value.map (Except.ok.inj hentries)
    | _ => cases hentries
  obtain rfl := Except.ok.inj ((updatedFields_map entries).symm.trans hfields)
  intro raw hraw
  obtain ⟨record', hrecord', hmember⟩ := Outcome.exists_of_mem_mapM hall hraw
  obtain ⟨record, hrecord, hrevise⟩ := Outcome.exists_of_mem_mapM hupdated hrecord'
  obtain ⟨e, he, rfl⟩ := List.mem_map.mp hrecord
  obtain ⟨⟨written, hkeys, hencode⟩, hdecode⟩ := hfound e he
  have hread : (Entries.keys e.2).Perm (m.attributes.map (·.name)) :=
    (keys_decode (hkeys.nodup_iff.mpr hproper) hencode hdecode).trans hkeys
  have hsame : Entries.keys record' = Entries.keys e.2 := by
    refine keys_revise (fun entry hentry => ?_) hrevise
    have hmem := Entries.has_iff.mp (hknown entry.1 (Entries.mem_keys_of_mem hentry))
    rwa [hnames, ← hread.mem_iff] at hmem
  refine ⟨d.registry.ownFields record', ?_, hmember⟩
  rw [Registry.ownFields_eq_self hapart hm fun key hkey => ?_, hsame]
  · exact hread
  · rw [hsame] at hkey
    exact hread.mem_iff.mp hkey

/-! ## Changes of the cache -/

/-- Adding whole records keeps the members whole. -/
theorem create_maintains_whole (given : Option CorrelationRef) {records : List Record}
    (hrecords : ∀ record ∈ records, d.registry.IsWhole model record) :
    Maintains (HoldsWhole d) (fun _ => True) (Cache.create d given model (Twin.asValue records)) :=
  create_maintains given model _ fun _ _ hmembers _ hserver =>
    hserver.add fun _ hm => isWholeMember_of_membersOf hrecords hm hmembers

/-- Removing records keeps the members whole. -/
theorem delete_maintains_whole (given : Option CorrelationRef) (model : String) (where_ : Value) :
    Maintains (HoldsWhole d) (fun _ => True) (Cache.delete d given model where_) :=
  delete_maintains given model where_ fun _ _ hserver => hserver.remove _ _

/-- Updating records keeps the members whole. -/
theorem update_maintains_whole (hr : d.registry.IsSound) (hapart : d.registry.NamesApart)
    (given : Option CorrelationRef) (model : String) (spec where_ : Value) :
    Maintains (HoldsWhole d) (fun _ => True) (Cache.update d given model spec where_) := by
  refine update_maintains given model spec where_
    (P := fun raw => ∀ m, d.registry.model? model = some m → IsWholeMember m raw)
    (fun sets hsets raw hraw m hm => hsets model m hm raw hraw)
    (fun _ _ hserver => hserver.remove _ _)
    fun _ fields hfields hknown found hfound members hmembers _ hserver => ?_
  exact hserver.add fun m hm => isWholeMember_of_updatedMembers hr hapart hm hfields hknown
    (fun e he => ⟨(hfound e he).1 m hm, (hfound e he).2⟩) hmembers

/-! ## Records of the primary store -/

variable {I : SetCondition}

/-- What is inserted is read back as whole records. -/
theorem isWhole_of_insert (hapart : d.registry.NamesApart) (hm : d.registry.table model = .ok m)
    {values : Entries Value} {db db' : Database} (h : db.insert m values = .ok (db', record)) :
    d.registry.IsWhole model record := by
  obtain ⟨_, _, _, _, row, _, _, _, _, hrow, _⟩ := Database.insert_eq_ok h
  exact Registry.isWhole_of_recordOf hapart hm hrow

/-- What is inserted row by row is read back as whole records. -/
theorem isWhole_of_insertEach (hapart : d.registry.NamesApart)
    (hm : d.registry.table model = .ok m) {rows : List (Entries Value)} {db db' : Database}
    {records : List Record} (h : db.insertEach m rows = .ok (db', records)) :
    ∀ record ∈ records, d.registry.IsWhole model record := by
  induction rows generalizing db db' records with
  | nil =>
    obtain rfl := (Prod.mk.inj (Except.ok.inj h)).2
    exact List.forall_mem_nil _
  | cons values rows ih =>
    obtain ⟨⟨db₁, first⟩, hfirst, h⟩ := Outcome.bind_eq_ok.mp h
    obtain ⟨⟨db₂, others⟩, hothers, h⟩ := Outcome.bind_eq_ok.mp h
    obtain rfl := (Prod.mk.inj (Except.ok.inj h)).2
    exact List.forall_mem_cons.mpr ⟨isWhole_of_insert hapart hm hfirst, ih hothers⟩

/-- What is inserted together is read back as whole records. -/
theorem isWhole_of_insertRows (hapart : d.registry.NamesApart)
    (hm : d.registry.table model = .ok m) {rows : List (Entries Value)} {db db' : Database}
    {records : List Record} (h : insertRows m rows db = .ok (db', records)) :
    ∀ record ∈ records, d.registry.IsWhole model record := by
  unfold insertRows at h
  split_ifs at h
  · obtain ⟨_, _, _, _, _, _, _, _, _, hrecords, _⟩ := Database.insertMany_eq_ok h
    intro record hrecord
    obtain ⟨row, _, hrow⟩ := Outcome.exists_of_mem_mapM hrecords hrecord
    exact Registry.isWhole_of_recordOf hapart hm hrow
  · exact isWhole_of_insertEach hapart hm h

/-- What was saved is whole. -/
theorem insertAll_maintains (hapart : d.registry.NamesApart) (ref : CorrelationRef)
    (model : String) (records : Value) :
    Maintains I (fun o => ∀ stored, o = some stored → ∀ record ∈ stored,
      d.registry.IsWhole model record) (Twin.insertAll d ref model records) := by
  refine Maintains.bind (Maintains.ofOutcome fun _ _ => trivial) fun items _ => ?_
  have hone (record : Value) : Maintains I (fun o => ∀ stored, o = some stored →
      d.registry.IsWhole model stored) (Primary.create d (some ref) model record) := by
    refine onTable_maintains fun ref m hm => guarded_maintains _ _ ?_
    refine Maintains.bind (Maintains.ofOutcome fun _ _ => trivial) fun values _ => ?_
    exact run_maintains fun db db' stored h => isWhole_of_insert hapart hm h
  have hmany : Maintains I (fun o => ∀ stored, o = some stored → ∀ record ∈ stored,
      d.registry.IsWhole model record) (Primary.createAll d (some ref) model records) := by
    refine onTable_maintains fun ref m hm => Maintains.ite (fun _ => ?_) fun _ => ?_
    · refine Maintains.bind (guarded_maintains _ _ (Maintains.bind
        (Maintains.ofOutcome fun _ _ => trivial) fun items _ => Maintains.bind
          (Maintains.ofOutcome fun _ _ => trivial) fun rows _ =>
            run_maintains fun db db' stored h => isWhole_of_insertRows hapart hm h)) ?_
      intro created hcreated
      cases created with
      | none => exact Maintains.pure hcreated
      | some stored =>
        exact Maintains.bind (Maintains.report _ _ _ _ _) fun _ _ => Maintains.pure hcreated
    · exact Maintains.pure fun stored heq => Option.some.inj heq ▸ List.forall_mem_nil _
  split
  · refine Maintains.bind (hone _) fun o ho => Maintains.pure fun stored heq => ?_
    obtain ⟨record, rfl, rfl⟩ := Option.map_eq_some_iff.mp heq
    intro record' hrecord'
    rw [List.mem_singleton.mp hrecord']
    exact ho record rfl
  · exact hmany

/-- What a query finds is whole, and what its plans find is whole wherever they are shown whole
records. -/
theorem query_maintains (hapart : d.registry.NamesApart) (ref : CorrelationRef) (model : String)
    (where_ : Value) {plans : List ClausePlan} (hplans : AreBound d.registry plans)
    (hshown : AllShowWhole plans plans) :
    Maintains I (fun o => ∀ rows, o = some rows → ∀ row ∈ rows, IsNested d.registry row ∧
        d.registry.IsWhole model row ∧ Twin.EachBelowAll d.registry.IsWhole row plans)
      (Primary.query d (some ref) model (.filter where_) .null plans) := by
  refine onTable_maintains fun ref m hm => ?_
  refine Maintains.bind (guarded_maintains (P := fun rows => ∀ row ∈ rows, IsNested d.registry row ∧
    d.registry.IsWhole model row ∧ Twin.EachBelowAll d.registry.IsWhole row plans) _ _ ?_)
    fun selected h => ?_
  · refine Maintains.bind (Maintains.ofReported fun _ _ => trivial) fun clause _ => ?_
    refine Maintains.get_bind fun s _ => Maintains.ofOutcome fun rows hrows => ?_
    exact fun row hrow => ⟨(isHereditary_isNested hapart _).selectWith hm hplans hrows row hrow,
      isWhole_selectWith hapart hm hplans hshown hrows row hrow⟩
  · cases selected with
    | none => exact Maintains.pure nofun
    | some rows =>
      have hall : rows.mapM (projectNamed d.registry.modelNames .null) = .ok (rows.map id) :=
        Outcome.mapM_eq_ok fun _ _ => rfl
      simp only [hall, List.map_id]
      refine Maintains.bind (Maintains.ofOutcome (P := fun rows' => rows' = rows)
        fun _ heq => (Except.ok.inj heq).symm) fun rows' heq => ?_
      rw [heq]
      exact Maintains.pure h

end

/-! ## Operations -/

namespace Twin

section

variable {d : Deployment} {model : String} {I : SetCondition}

/-- Notices are passed on without a change of the sets; plans are those of the resolution. -/
theorem resolved_maintains {α : Type} (ref : CorrelationRef) (x : Resolving α) :
    Maintains I (fun a => x.run.2 = .ok a) (resolved ref x) := by
  have hpass (notices : List Notice) :
      Maintains I (fun _ => True) (notices.forM (passOn ref) : Action PUnit) := by
    induction notices with
    | nil => exact Maintains.pure trivial
    | cons notice notices ih =>
      refine Maintains.bind (P := fun _ => True) ?_ fun _ _ => ih
      cases notice with
      | request message name => exact Maintains.report _ _ _ _ _
      | filter line => exact Maintains.writeLog _
  exact Maintains.bind (hpass _) fun _ _ => Maintains.ofOutcome fun a ha => ha

/-- The plans for the primary store are those of the request. -/
theorem tablePlans_maintains (d : Deployment) (ref : CorrelationRef) (model : String)
    (tokens : List Token) :
    Maintains I (fun o => ∀ plans, o = some plans →
        (resolve d.registry (tableForm d.registry) model tokens).run.2 = .ok plans)
      (tablePlans d ref model tokens) := by
  refine Maintains.bind (resolved_maintains ref _).attempt fun o ho => ?_
  split
  · exact Maintains.pure fun plans heq => Option.some.inj heq ▸ ho _ rfl
  · exact Maintains.bind (Maintains.report _ _ _ _ _) fun _ _ => Maintains.pure nofun
  · exact Maintains.throw _

/-- Whether a request includes no relation with all fields at a place where it includes it later with
some. -/
def ShowsWhole (r : Registry) (model : String) (tokens : List Token) : Prop :=
  ∀ plans, (resolve r (tableForm r) model tokens).run.2 = .ok plans → AllShowWhole plans plans

/-- Writing an answer into the cache keeps the members whole. -/
theorem refill_maintains {φ : Type} (ref : CorrelationRef) {rows : List Record}
    {plans : List (Plan φ)} (hplans : AreBound d.registry plans) (hrows : ∀ row ∈ rows,
      IsNested d.registry row ∧ d.registry.IsWhole model row ∧
        EachBelowAll d.registry.IsWhole row plans) :
    Maintains (HoldsWhole d) (fun _ => True) (refill d ref model rows plans) := by
  rw [refill_eq ref (fun row hrow => (hrows row hrow).1) hplans]
  refine Maintains.bind (Maintains.each (Q := fun _ => True) fun group hgroup => ?_) fun _ _ =>
    Maintains.pure trivial
  refine create_maintains_whole _ fun record hrecord => ?_
  obtain ⟨g, hg, hname, hmem⟩ := mem_byModel (List.mem_filter.mp hgroup).1 hrecord
  rw [← hname]
  rcases List.mem_cons.mp hg with rfl | hg
  · exact (hrows record hmem).2.1
  · exact (eachBelowAll_iff plans).mp (fun row hrow => (hrows row hrow).2.2) g hg record hmem

/-- A read keeps the members whole. -/
theorem read_maintains (hr : d.registry.IsSound) (hapart : d.registry.NamesApart)
    (given : Option CorrelationRef) (where_ attributes : Value) {tokens : List Token}
    (htokens : ShowsWhole d.registry model tokens) :
    Maintains (HoldsWhole d) (fun _ => True)
      (Twin.read d given model where_ attributes tokens) := by
  have hprimary (ref : CorrelationRef) : Maintains (HoldsWhole d) (fun _ => True)
      (readPrimary d ref model where_ tokens) := by
    refine Maintains.bind (tablePlans_maintains d ref model tokens) fun o ho => ?_
    cases o with
    | none => exact Maintains.pure trivial
    | some plans =>
      have hplans := ho plans rfl
      refine Maintains.bind (query_maintains hapart ref model where_ (isBound_resolve hr hplans)
        (htokens plans hplans)) fun rows hrows => ?_
      split
      · exact Maintains.pure trivial
      · exact Maintains.pure trivial
      · exact Maintains.bind (refill_maintains ref (isBound_resolve hr hplans) (hrows _ rfl))
          fun _ _ => Maintains.pure trivial
  refine Maintains.inScope fun ref => Maintains.bind (Maintains.knows _ _ _ _) fun known _ => ?_
  split_ifs
  · refine Maintains.bind (resolved_maintains ref _) fun plans _ =>
      Maintains.bind (find_maintains _ _ _ _) fun cached _ => ?_
    have hanswered (answer : Option (List Record)) : Maintains (HoldsWhole d) (fun _ => True)
        (showAnswer d attributes answer) := by
      cases answer with
      | none => exact Maintains.pure trivial
      | some records =>
        exact Maintains.bind (Maintains.ofOutcome fun _ _ => trivial) fun _ _ =>
          Maintains.pure trivial
    split
    · exact Maintains.bind (P := fun _ => True) (Maintains.pure trivial) fun answer _ =>
        hanswered answer
    all_goals
      exact Maintains.bind (Maintains.report _ _ _ _ _) fun _ _ =>
        Maintains.bind (hprimary ref) fun answer _ => hanswered answer
  · exact Maintains.pure trivial

/-- Saving records keeps the members whole. -/
theorem save_maintains (hapart : d.registry.NamesApart) (given : Option CorrelationRef)
    (model : String) (records : Value) :
    Maintains (HoldsWhole d) (fun _ => True) (save d given model records) := by
  refine Maintains.inScope fun ref => Maintains.bind (Maintains.knows _ _ _ _) fun known _ => ?_
  refine Maintains.ite (fun _ => Maintains.ite (fun _ => ?_) fun _ => ?_) fun _ => ?_
  · refine Maintains.bind (insertAll_maintains hapart ref model _) fun o ho => ?_
    cases o with
    | none => exact Maintains.pure trivial
    | some stored =>
      refine Maintains.bind (create_maintains_whole _ (ho stored rfl)) fun cached _ => ?_
      split_ifs
      · exact Maintains.bind (Maintains.report _ _ _ _ _) fun _ _ => Maintains.pure trivial
      · exact Maintains.pure trivial
  · exact Maintains.bind (Maintains.report _ _ _ _ _) fun _ _ => Maintains.pure trivial
  · exact Maintains.pure trivial

/-- Updating records keeps the members whole. -/
theorem update_maintains (hr : d.registry.IsSound) (hapart : d.registry.NamesApart)
    (given : Option CorrelationRef) (model : String) (spec where_ : Value) :
    Maintains (HoldsWhole d) (fun _ => True) (update d given model spec where_) := by
  refine Maintains.inScope fun ref => Maintains.bind (Maintains.knows _ _ _ _) fun known _ =>
    Maintains.ite (fun _ => ?_) fun _ => Maintains.pure trivial
  have hprimary : Maintains (HoldsWhole d) (fun o => ∀ a, o = some a → True)
      (Primary.update d (some ref) model spec where_) := by
    refine onTable_maintains fun ref m _ => guarded_maintains _ _ ?_
    refine Maintains.bind (Maintains.ofReported fun _ _ => trivial) fun clause _ => ?_
    refine Maintains.bind (Maintains.ofOutcome fun _ _ => trivial) fun values _ => ?_
    exact run_maintains fun _ _ _ _ => trivial
  exact Maintains.bind hprimary fun _ _ =>
    Maintains.bind (update_maintains_whole hr hapart _ _ _ _) fun _ _ => Maintains.pure trivial

/-- Deleting rows leaves the sets alone. -/
theorem destroyRows_maintains (ref : CorrelationRef) (rows : List Record) :
    Maintains I (fun _ => True) (destroyRows d ref model rows) := by
  have hrow (row : Value) : Maintains I (fun _ => True) (Primary.destroy d (some ref) model row) := by
    refine Maintains.get_bind fun s hs => ?_
    split
    · exact Maintains.bind (Maintains.of_modify fun _ => id) fun _ _ => Maintains.pure trivial
    · refine (onTable_maintains (P := fun _ => True) fun ref m _ => guarded_maintains _ _ ?_).weaken
        fun _ _ => trivial
      refine Maintains.bind (Maintains.ofOutcome fun _ _ => trivial) fun where_ _ => ?_
      refine Maintains.bind (Maintains.ofReported fun _ _ => trivial) fun clause _ => ?_
      exact Maintains.bind (run_maintains fun _ _ _ _ => trivial) fun _ _ => Maintains.pure trivial
  refine Maintains.bind (Maintains.each fun row _ => hrow _) fun outcomes _ => ?_
  refine Maintains.ite (fun _ => ?_) fun _ => ?_
  · refine Maintains.bind (Maintains.report _ _ _ _ _) fun _ _ => ?_
    exact Maintains.ite (fun _ => Maintains.pure trivial) fun _ => Maintains.pure trivial
  · exact Maintains.ite (fun _ => Maintains.pure trivial) fun _ => Maintains.pure trivial

/-- Deleting what belongs to records keeps the members whole, if each deletion does. -/
theorem deleteTargets_maintains
    {deletion : String → Value → List Identity → Action (Deleted × List Identity)}
    (h : ∀ name where_ pending, Maintains I (fun _ => True) (deletion name where_ pending)) :
    ∀ (filters : List (String × Value)) (pending : List Identity),
      Maintains I (fun _ => True) (deleteTargets deletion filters pending)
  | [], _ => Maintains.pure trivial
  | (name, where_) :: rest, pending =>
    Maintains.bind (h name where_ pending) fun r _ =>
      Maintains.bind (deleteTargets_maintains h rest r.2) fun _ _ => Maintains.pure trivial

/-- Deleting records with all that belongs to them keeps the members whole. -/
theorem deleteWithin_maintains (ref : CorrelationRef) : ∀ (depth : Nat) (model : String)
    (where_ : Value) (pending : List Identity),
    Maintains (HoldsWhole d) (fun _ => True) (deleteWithin d ref depth model where_ pending)
  | 0, _, _, _ => Maintains.pure trivial
  | depth + 1, model, where_, pending => by
    have hcache (r : Option Bool → Deleted × List Identity) : Maintains (HoldsWhole d)
        (fun _ => True) (do
          let cache ← Cache.delete d (some ref) model where_
          return r cache : Action (Deleted × List Identity)) :=
      Maintains.bind (delete_maintains_whole _ _ _) fun _ _ => Maintains.pure trivial
    have hquery : Maintains (HoldsWhole d) (fun _ => True)
        (Primary.query d (some ref) model (.filter where_) .null []) := by
      refine (onTable_maintains (P := fun _ => True) fun ref m _ => ?_).weaken fun _ _ => trivial
      refine Maintains.bind (guarded_maintains (P := fun _ => True) _ _ ?_) fun selected _ => ?_
      · exact Maintains.bind (Maintains.ofReported fun _ _ => trivial) fun _ _ =>
          Maintains.get_bind fun _ _ => Maintains.ofOutcome fun _ _ => trivial
      · cases selected with
        | none => exact Maintains.pure nofun
        | some rows =>
          exact Maintains.bind (Maintains.ofOutcome fun _ _ => trivial) fun _ _ =>
            Maintains.pure fun _ _ => trivial
    refine Maintains.bind hquery fun rows _ => ?_
    cases rows with
    | none => exact hcache _
    | some rows =>
      refine Maintains.bind (Maintains.ofOutcome fun _ _ => trivial) fun claimed _ => ?_
      refine Maintains.bind (Maintains.ofOutcome fun _ _ => trivial) fun below _ => ?_
      refine Maintains.bind (deleteTargets_maintains (deleteWithin_maintains ref depth) _ _)
        fun r _ => ?_
      exact Maintains.bind (destroyRows_maintains _ _) fun _ _ => hcache _

/-- Deleting records keeps the members whole. -/
theorem delete_maintains (given : Option CorrelationRef) (model : String) (where_ : Value) :
    Maintains (HoldsWhole d) (fun _ => True) (delete d given model where_) := by
  refine Maintains.inScope fun ref => Maintains.bind (Maintains.knows _ _ _ _) fun known _ =>
    Maintains.ite (fun _ => Maintains.get_bind fun s _ => ?_) fun _ => Maintains.pure trivial
  exact Maintains.bind (deleteWithin_maintains ref _ _ _ _) fun _ _ => Maintains.pure trivial

/-- An operation whose request, if it makes one, is shown whole records. -/
def Operation.ShowsWhole (r : Registry) : Operation → Prop
  | .read model _ _ tokens => Twin.ShowsWhole r model tokens
  | _ => True

/-- Every operation keeps the members whole. -/
theorem perform_maintains (hr : d.registry.IsSound) (hapart : d.registry.NamesApart)
    (given : Option CorrelationRef) {operation : Operation}
    (hshown : operation.ShowsWhole d.registry) :
    Maintains (HoldsWhole d) (fun _ => True) (operation.perform d given) := by
  cases operation with
  | read model where_ attributes tokens =>
    exact Maintains.bind (read_maintains hr hapart given where_ attributes hshown) fun _ _ =>
      Maintains.pure trivial
  | save model records =>
    exact Maintains.bind (save_maintains hapart given model records) fun _ _ =>
      Maintains.pure trivial
  | update model spec where_ =>
    exact Maintains.bind (update_maintains hr hapart given model spec where_) fun _ _ =>
      Maintains.pure trivial
  | delete model where_ =>
    exact Maintains.bind (delete_maintains given model where_) fun _ _ => Maintains.pure trivial

end

end Twin

/-! ## Runs -/

open Twin

/-- The stores that a program reaches from an empty cache, whatever its tables, by operations that
are shown whole records; between them commands of the cache may start to fail or to work again, and the
tables may be changed by others. -/
inductive Stores.Served (d : Deployment) : Stores → Prop
  | start {s : Stores} (h : s.server.sets = []) : Served d s
  | operation {s : Stores} {given : Option CorrelationRef} {operation : Operation} (hs : Served d s)
      (hshown : operation.ShowsWhole d.registry) :
      Served d (runFrom (operation.perform d given) s).2
  | other {s s' : Stores} (hs : Served d s) (h : s'.server.sets = s.server.sets) : Served d s'

/-- All members of the cache are whole: each is the encoding of a record with exactly the attributes
of its model. -/
theorem members_are_whole {d : Deployment} (hd : d.registry.Built) (hapart : d.registry.NamesApart)
    {s : Stores} (hs : s.Served d) : HoldsWhole d s.server.sets := by
  induction hs with
  | start h =>
    rw [h]
    intro name m _ raw hraw
    cases hraw
  | operation _ hshown ih => exact (perform_maintains hd.isSound hapart _ hshown _ ih).1
  | other _ h ih =>
    rw [h]
    exact ih

/-! ## The children of a circle -/

/-- A read of all records with the records that name them as their parent. -/
def readChildren : Operation := .read "node" .null (.text "all") [.name "node"]

theorem showsWhole_readChildren : readChildren.ShowsWhole nodes.registry := by
  intro plans hplans
  have hresolved : (resolve nodes.registry (tableForm nodes.registry) "node" [.name "node"]).run.2 =
      .ok [.node "node" (some true) none none
        (some ⟨"node", "node", .hasMany, "id", "parent", true⟩) []] := by cbv
  obtain rfl := Except.ok.inj (hresolved.symm.trans hplans)
  refine ⟨fun q hq => ?_, trivial⟩
  obtain rfl := Option.some.inj hq
  exact ⟨fun _ => rfl, trivial⟩

theorem namesApart_nodes : nodes.registry.NamesApart := by
  intro name m hm
  rw [eq_node hm]
  decide

theorem circle_members_are_whole :
    (runFrom (readChildren.perform nodes none) circle).2.Served nodes ∧
      HoldsWhole nodes (runFrom (readChildren.perform nodes none) circle).2.server.sets :=
  ⟨.operation (.start rfl) showsWhole_readChildren,
    members_are_whole built_nodes namesApart_nodes (.operation (.start rfl) showsWhole_readChildren)⟩

/-- A request for the children that includes them twice, first with all fields and then with their
key alone. -/
def childrenTwice : List Token := [.name "node", .name "node", .items [.name "*", .name "id"]]

/-- The read with that request. -/
def readChildrenTwice : Operation := .read "node" .null (.text "all") childrenTwice

/-- Its answer: the children of the second inclusion stand for both. -/
def projectedChildren : List Record :=
  [[("id", .int 1), ("parent", .int 2), ("node", .list [.map [("id", .int 2)]])],
   [("id", .int 2), ("parent", .int 1), ("node", .list [.map [("id", .int 1)]])]]

/-- The first inclusion lets its children into the cache, though the second one has left fields
out. -/
theorem projected_twice_is_cached :
    ∃ s, runFrom (readChildrenTwice.perform nodes none) circle =
      (.ok (.found (some projectedChildren)), s) ∧
      memberText [("id", .int 1)] ∈ setOf nodes s.server.sets "node" ∧
      ¬ HoldsWhole nodes s.server.sets := by
  obtain ⟨plans, hplans⟩ : ∃ plans,
    (resolve nodes.registry cacheForm "node" childrenTwice).run.2 = .ok plans := ⟨_, by cbv⟩
  obtain ⟨plans', hplans', hselect, hrelated⟩ : ∃ plans',
      (resolve nodes.registry (tableForm nodes.registry) "node" childrenTwice).run.2 = .ok plans' ∧
      selectWith nodes.registry circle.database node (clauseOf node (.conj [])) plans' =
        .ok projectedChildren ∧
      relatedRowsOf projectedChildren plans' =
        [("node", [[("id", .int 2)], [("id", .int 1)]])] :=
    ⟨_, by cbv, by cbv, by cbv⟩
  have htable : nodes.registry.table "node" = .ok node := rfl
  have hbound := isBound_resolve built_nodes.isSound hplans'
  have hfind (ref : CorrelationRef) : (Cache.find nodes (some ref) "node" .null plans).Leads
      (Stores.Stands nodes [] (circle.database, [])) (.ok (some []))
      (Stores.Stands nodes [] (circle.database, [])) := find_nothing_leads rfl (some ref) fun ref =>
    @Cache.matching_leads nodes ref [] (circle.database, []) "node" node .null (.conj [])
      (requires_null node) rfl [] rfl (fun _ => []) (fun _ => true) (List.forall_mem_nil _)
  have hquery (ref : CorrelationRef) :
      (Primary.query nodes (some ref) "node" (.filter .null) .null plans').Leads
        (Stores.Stands nodes [] (circle.database, [])) (.ok (some projectedChildren))
        (Stores.Stands nodes [] (circle.database, [])) := by
    refine Leads.of_gives fun c hc => ⟨c, ?_, hc⟩
    have hgives := @query_gives nodes "node" node rfl (some ref)
      (.filter .null) plans' c
    have hdatabase : c.database = circle.database := congrArg Prod.fst hc.primary_eq
    have hclause : ((Selection.filter .null).toClause node).run.2 =
        .ok (clauseOf node (.conj [])) := by cbv
    rw [hclause, Outcome.ok_bind, hdatabase, hselect] at hgives
    exact hgives
  have hmembers : ∀ group ∈ ("node", projectedChildren) :: relatedRowsOf projectedChildren plans',
      ∀ record ∈ group.2, nodes.registry.hasModel group.1 = true ∧ ∃ raw,
        IsMemberOf nodes record raw := by
    rw [hrelated, projectedChildren]
    intro group hgroup
    rw [List.mem_cons, List.mem_singleton] at hgroup
    rcases hgroup with rfl | rfl
    · exact List.forall_mem_cons.mpr ⟨⟨rfl, _, by cbv⟩, List.forall_mem_singleton.mpr ⟨rfl, _, by cbv⟩⟩
    · exact List.forall_mem_cons.mpr ⟨⟨rfl, _, by cbv⟩, List.forall_mem_singleton.mpr ⟨rfl, _, by cbv⟩⟩
  have hread : (Twin.read nodes none "node" .null (.text "all") childrenTwice).Leads _ _ _ :=
    read_miss_leads rfl none hplans hfind hplans' hquery (R := fun c => ∃ sets, Grown nodes
      (("node", projectedChildren) :: relatedRowsOf projectedChildren plans') [] sets ∧
        c.server.sets = sets) (fun hnone => by cases hnone) fun _ ref => by
      obtain ⟨sets, hgrown, hleads⟩ :=
        refill_leads ref ((isHereditary_isNested namesApart_nodes _).selectWith htable hbound hselect)
          hbound hmembers [] (circle.database, [])
      exact hleads.weaken (fun _ => id) fun c hc => ⟨sets, hgrown, hc.sets_eq⟩
  have hstands : Stores.Stands nodes [] (circle.database, []) circle.content :=
    ⟨⟨fun _ => rfl, Or.inr (Or.inl rfl)⟩, rfl, rfl⟩
  obtain ⟨s, hrun, sets, hgrown, hsets⟩ := hread circle hstands
  have hmem : memberText [("id", .int 1)] ∈ setOf nodes s.server.sets "node" := by
    rw [show s.server.sets = sets from hsets, hgrown.mem_iff, hrelated]
    refine .inr ⟨("node", [[("id", .int 2)], [("id", .int 1)]]), ?_, rfl, [("id", .int 1)], ?_, ?_⟩
    · exact List.mem_cons_of_mem _ List.mem_cons_self
    · exact List.mem_cons_of_mem _ List.mem_cons_self
    · cbv
  refine ⟨s, ?_, hmem, fun hwhole => ?_⟩
  · rw [readChildrenTwice, Operation.perform, runFrom_map, hrun]
    rfl
  · obtain ⟨record, hkeys, hencode⟩ := hwhole "node" node rfl _ hmem
    have hread : decode (memberText [("id", .int 1)]) [] = .ok [("id", .int 1)] := by cbv
    have hnames := keys_decode (hkeys.nodup_iff.mpr (by decide)) hencode hread
    exact absurd (hnames.trans hkeys).length_eq (by decide)

end TwinStore
