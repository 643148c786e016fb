import TwinStore.Proofs.CacheChanges
import TwinStore.Proofs.Coherence
import TwinStore.Proofs.NestedRows
import TwinStore.Proofs.PrimaryEffects

/-!
# Reads through a cache that answers

A read that the cache can answer changes nothing.  A read that it cannot answer is answered by the
primary store, and the members of all records that count are added to their sets.

Main definitions:

- `IsMemberOf`: the member of a record, without the fields that hold related records.
- `Grown`: sets to which the members of some groups of records were added.

Main results:

- Theorem `writeGroups_leads`, `refill_leads`: what is written into the cache.
- Theorem `read_hit_leads`, `read_miss_leads`: what a read gives and does.
-/

namespace TwinStore.Twin

open Primary Filter Include Action Cache

variable {d : Deployment} {sets sets' : Entries (List String)} {model : String}
  {primary : Database × List (Option Bool)}

/-! ## Writing groups -/

/-- Whether a text is the member of a record. -/
def IsMemberOf (d : Deployment) (record : Record) (raw : String) : Prop :=
  memberOf d.registry.modelNames (.map record) = .ok raw

/-- Whether sets came from others by adding the members of some groups of records. -/
structure Grown (d : Deployment) (groups : List (String × List Record))
    (sets sets' : Entries (List String)) : Prop where
  mem_iff : ∀ name raw, raw ∈ setOf d sets' name ↔ raw ∈ setOf d sets name ∨
    ∃ group ∈ groups, group.1 = name ∧ ∃ record ∈ group.2, IsMemberOf d record raw
  sorted : AreSorted sets → AreSorted sets'

/-- The records of a group that have members are added. -/
theorem create_group_leads (sets : Entries (List String)) (primary : Database × List (Option Bool))
    {records : List Record} (hm : d.registry.hasModel model = true)
    (hne : records ≠ []) (hmembers : ∀ record ∈ records, ∃ raw, IsMemberOf d record raw)
    (given : Option CorrelationRef) :
    ∃ sets', Grown d [(model, records)] sets sets' ∧
      (Cache.create d given model (asValue records)).Leads (Stores.Stands d sets primary)
        (.ok (some true)) (Stores.Stands d sets' primary) := by
  obtain ⟨members, hall⟩ : ∃ members,
      membersOf d.registry.modelNames (asValue records) = .ok members := by
    refine ⟨_, Outcome.mapM_eq_ok (g := fun v => (memberOf d.registry.modelNames v).get) ?_⟩
    intro item hitem
    obtain ⟨record, hrecord, rfl⟩ := List.mem_map.mp hitem
    obtain ⟨raw, hraw⟩ := hmembers record hrecord
    rw [hraw]
    rfl
  have htruthy : (asValue records).isTruthy = true := by
    cases records with
    | nil => exact absurd rfl hne
    | cons record records => rfl
  refine ⟨_, ⟨fun name raw => ?_, fun h => h.added _ _⟩, create_leads hm given htruthy hall⟩
  rw [setOf, mem_added, setOf]
  refine or_congr_right ?_
  have hraw : raw ∈ members ↔ ∃ record ∈ records, IsMemberOf d record raw := by
    constructor
    · intro hraw
      obtain ⟨item, hitem, hmember⟩ := Outcome.exists_of_mem_mapM hall hraw
      obtain ⟨record, hrecord, rfl⟩ := List.mem_map.mp hitem
      exact ⟨record, hrecord, hmember⟩
    · rintro ⟨record, hrecord, hmember⟩
      have hget := (Outcome.eq_map_of_mapM hall).1
      rw [hget]
      exact List.mem_map.mpr ⟨.map record, List.mem_map_of_mem hrecord, by rw [hmember]; rfl⟩
  rw [setKey_inj, hraw]
  simp [eq_comm]

/-- Groups of records that have members are added one after another. -/
theorem each_create_leads (ref : CorrelationRef) {groups : List (String × List Record)}
    (hgroups : ∀ group ∈ groups, d.registry.hasModel group.1 = true ∧ group.2 ≠ [] ∧
      ∀ record ∈ group.2, ∃ raw, IsMemberOf d record raw) (sets : Entries (List String))
    (primary : Database × List (Option Bool)) :
    ∃ sets' answers, Grown d groups sets sets' ∧
      (Action.each (fun (name, records) => Cache.create d (some ref) name (asValue records))
        groups).Leads (Stores.Stands d sets primary) (.ok answers)
        (Stores.Stands d sets' primary) := by
  induction groups generalizing sets with
  | nil =>
    refine ⟨sets, [], ⟨fun name raw => ?_, id⟩, Leads.pure _ _⟩
    simp
  | cons group groups ih =>
    obtain ⟨name, records⟩ := group
    obtain ⟨hm, hne, hmembers⟩ := hgroups _ List.mem_cons_self
    obtain ⟨sets₁, hgrown, hfirst⟩ := create_group_leads sets primary hm hne
      hmembers (some ref)
    obtain ⟨sets₂, answers, hgrown', hrest⟩ :=
      ih (fun group hgroup => hgroups group (List.mem_cons_of_mem _ hgroup)) sets₁
    refine ⟨sets₂, some true :: answers, ⟨fun name' raw => ?_, fun h => hgrown'.sorted (hgrown.sorted h)⟩,
      Leads.bind (Leads.both hfirst hrest) (Leads.pure _ _)⟩
    rw [hgrown'.mem_iff, hgrown.mem_iff, or_assoc]
    simp only [List.exists_mem_cons_iff, List.not_mem_nil, false_and, exists_false, or_false]

/-- Groups of records that have members are put together and added to their sets. -/
theorem writeGroups_leads (ref : CorrelationRef) {groups : List (String × List Record)}
    (hrows : ∀ group ∈ groups, ∀ record ∈ group.2,
      d.registry.hasModel group.1 = true ∧ ∃ raw, IsMemberOf d record raw)
    (sets : Entries (List String)) (primary : Database × List (Option Bool)) :
    ∃ sets', Grown d groups sets sets' ∧
      (writeGroups d ref groups).Leads (Stores.Stands d sets primary) (.ok ())
        (Stores.Stands d sets' primary) := by
  have hgroups : ∀ group ∈ (byModel groups).filter
      (!·.2.isEmpty), d.registry.hasModel group.1 = true ∧ group.2 ≠ [] ∧
        ∀ record ∈ group.2, ∃ raw, IsMemberOf d record raw := by
    intro group hgroup
    obtain ⟨hgroup, hne⟩ := List.mem_filter.mp hgroup
    have hne : group.2 ≠ [] := by simpa using hne
    obtain ⟨first, hfirst⟩ := List.exists_mem_of_ne_nil _ hne
    obtain ⟨g, hg, hname, hmem⟩ := mem_byModel hgroup hfirst
    refine ⟨hname ▸ (hrows g hg first hmem).1, hne, fun record hrecord => ?_⟩
    obtain ⟨g, hg, _, hmem⟩ := mem_byModel hgroup hrecord
    exact (hrows g hg record hmem).2
  obtain ⟨sets', answers, hgrown, hleads⟩ :=
    each_create_leads ref hgroups sets primary
  refine ⟨sets', ⟨fun name raw => ?_, hgrown.sorted⟩, Leads.bind hleads (Leads.pure _ _)⟩
  rw [hgrown.mem_iff]
  refine or_congr_right ⟨?_, ?_⟩
  · rintro ⟨group, hgroup, rfl, record, hrecord, hraw⟩
    obtain ⟨g, hg, hname, hmem⟩ := mem_byModel (List.mem_filter.mp hgroup).1 hrecord
    exact ⟨g, hg, hname, record, hmem, hraw⟩
  · rintro ⟨g, hg, rfl, record, hrecord, hraw⟩
    have hmem : record ∈ (Entries.get? (byModel groups)
        g.1).getD [] := mem_get?_byModel.mpr ⟨g, hg, rfl, hrecord⟩
    cases hget : Entries.get? (byModel groups) g.1 with
    | none =>
      rw [hget] at hmem
      cases hmem
    | some records =>
      rw [hget] at hmem
      refine ⟨(g.1, records), List.mem_filter.mpr ⟨Entries.mem_of_get? hget, ?_⟩, rfl, record, hmem,
        hraw⟩
      cases records with
      | nil => cases hmem
      | cons => rfl

/-- The records of a nested answer that have members, and the related ones that count, are added to
their sets. -/
theorem refill_leads {φ : Type} (ref : CorrelationRef) {rows : List Record} {plans : List (Plan φ)}
    (hnested : ∀ row ∈ rows, IsNested d.registry row) (hplans : AreBound d.registry plans)
    (hrows : ∀ group ∈ (model, rows) :: relatedRowsOf rows plans, ∀ record ∈ group.2,
      d.registry.hasModel group.1 = true ∧ ∃ raw, IsMemberOf d record raw)
    (sets : Entries (List String)) (primary : Database × List (Option Bool)) :
    ∃ sets', Grown d ((model, rows) :: relatedRowsOf rows plans) sets sets' ∧
      (refill d ref model rows plans).Leads (Stores.Stands d sets primary) (.ok ())
        (Stores.Stands d sets' primary) := by
  rw [refill_eq ref hnested hplans]
  exact writeGroups_leads ref hrows sets primary

/-! ## Reading -/

section

variable {where_ attributes : Value} {tokens : List Token} {plans : List Builder}
  {plans' : List ClausePlan} {P Q : Stores → Prop} {rows : List Record}

/-- A resolution passes its notices on and changes nothing. -/
theorem resolved_leads {α : Type} (ref : CorrelationRef) (x : Resolving α) (P : Stores → Prop) :
    (resolved ref x).Leads P x.run.2 P := by
  have hpass (notices : List Notice) :
      (notices.forM (passOn ref) : Action PUnit).Leads P (.ok ⟨⟩) P := by
    induction notices with
    | nil => exact Leads.pure _ _
    | cons notice notices ih =>
      refine Leads.bind (a := ()) (R := P) ?_ ih
      cases notice with
      | request message name => exact Leads.report _ _ _ _ _ _
      | filter line => exact Leads.writeLog _ _
  exact Leads.bind (hpass _) (Leads.ofOutcome _ _)

/-- What the caller is shown of an answer. -/
theorem shown_leads (records : List Record) (P : Stores → Prop) :
    (do return some (← Action.ofOutcome (shown d.registry.modelNames attributes records)) :
      Action (Option (List Record))).Leads P
        ((shown d.registry.modelNames attributes records).map some) P := by
  cases shown d.registry.modelNames attributes records with
  | ok answer => exact Leads.bind (Leads.ofOutcome (.ok answer) _) (Leads.pure _ _)
  | error fault => exact Leads.bind_error (Leads.ofOutcome (.error fault) _)

/-- Where no record matches the filter, no plan has to be searched. -/
theorem find_nothing_leads (hm : d.registry.hasModel model = true) (given : Option CorrelationRef)
    (hmatching : ∀ ref, (matching d ref model where_).Leads P (.ok (some [])) Q) :
    (Cache.find d given model where_ plans).Leads P (.ok (some [])) Q := by
  refine Leads.inScope fun ref => Leads.bind (Leads.knows hm ref Cache.component _)
    (Leads.bind (hmatching ref) ?_)
  simp only [List.map_nil, List.isEmpty_nil, Bool.or_true, if_true]
  exact Leads.pure _ _

/-- What the cache finds is the answer. -/
theorem read_hit_leads (hm : d.registry.hasModel model = true) (given : Option CorrelationRef)
    (hplans : (resolve d.registry cacheForm model tokens).run.2 = .ok plans)
    {found : List Record} (hne : found ≠ [])
    (hfind : ∀ ref, (Cache.find d (some ref) model where_ plans).Leads P (.ok (some found)) Q) :
    (Twin.read d given model where_ attributes tokens).Leads P
      ((shown d.registry.modelNames attributes found).map some) Q := by
  have hresolved (ref : CorrelationRef) := resolved_leads ref
    (resolve d.registry cacheForm model tokens) P
  rw [hplans] at hresolved
  refine Leads.inScope fun ref => Leads.bind (Leads.knows hm ref component _)
    (Leads.bind (hresolved ref) (Leads.bind (hfind ref) ?_))
  cases found with
  | nil => exact absurd rfl hne
  | cons first rest => exact Leads.bind (Leads.pure _ _) (shown_leads _ _)

/-- Where the cache finds nothing, what the primary store finds is the answer, and is written into the
cache. -/
theorem read_miss_leads {R : Stores → Prop} (hm : d.registry.hasModel model = true)
    (given : Option CorrelationRef)
    (hplans : (resolve d.registry cacheForm model tokens).run.2 = .ok plans)
    (hfind : ∀ ref, (Cache.find d (some ref) model where_ plans).Leads P (.ok (some [])) Q)
    (hplans' : (resolve d.registry (tableForm d.registry) model tokens).run.2 = .ok plans')
    (hquery : ∀ ref, (Primary.query d (some ref) model (.filter where_) .null plans').Leads Q
      (.ok (some rows)) Q)
    (hnone : rows = [] → ∀ c, Q c → R c)
    (hrefill : rows ≠ [] → ∀ ref, (refill d ref model rows plans').Leads Q (.ok ()) R) :
    (Twin.read d given model where_ attributes tokens).Leads P
      ((shown d.registry.modelNames attributes rows).map some) R := by
  have hresolved (ref : CorrelationRef) := resolved_leads ref
    (resolve d.registry cacheForm model tokens) P
  have hresolved' (ref : CorrelationRef) := resolved_leads ref
    (resolve d.registry (tableForm d.registry) model tokens) Q
  rw [hplans] at hresolved
  rw [hplans'] at hresolved'
  have hprimary (ref : CorrelationRef) : (readPrimary d ref model where_ tokens).Leads Q
      (.ok (some rows)) R := by
    have htable : (tablePlans d ref model tokens).Leads Q (.ok (some plans')) Q :=
      Leads.bind (hresolved' ref).attempt (Leads.pure _ _)
    refine Leads.bind htable (Leads.bind (hquery ref) ?_)
    cases rows with
    | nil => exact (Leads.pure _ _).weaken (fun _ => id) (hnone rfl)
    | cons first rest => exact Leads.bind (hrefill (List.cons_ne_nil _ _) ref) (Leads.pure _ _)
  exact Leads.inScope fun ref => Leads.bind (Leads.knows hm ref component _)
    (Leads.bind (hresolved ref) (Leads.bind (hfind ref) (Leads.bind (Leads.report _ _ _ _ _ _)
      (Leads.bind (hprimary ref) (shown_leads _ _)))))

end

end TwinStore.Twin
