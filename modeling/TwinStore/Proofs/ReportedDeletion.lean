import TwinStore.Proofs.CoherentRuns
import TwinStore.Proofs.ErasedRows
import TwinStore.Proofs.FollowedRecords

/-!
# What a deletion reports

A deletion tells of each store whether anything matched.  The primary store tells it of the rows that
were found before anything was deleted, and destroys each of them once, whatever cycles the relations
make.  The cache tells it after everything that belongs to those rows is gone: a member that matched and
follows a deleted record may be gone by then, so that the cache can report that nothing matched.

The keys that refer to each other may have different types.  What follows a record is then found by
comparison in each store, and the cache may drop a member whose row is left; it drops none that follows
no claimed record, which is all that the report depends on.

Main definitions:

- `Deleted.IsThorough`: deletions in which no row failed to be destroyed, at any level.
- `CanDelete`: stores from whose records a deletion can go on to others.
- `Erasing`: the stores while records are deleted, whatever the types of the keys.
- `Erases`: deletions that leave such stores, with all that they claimed gone.
- `Finds`: what a query and a search find.
- `HasCleared`: what a deletion leaves at last, and what it tells.

Main results:

- Theorem `CanDelete.of_coherent`: records can be deleted from stores that mirror each other.
- Theorem `erases_deleteWithin`: a deletion of what follows claimed records destroys all it claims.
- Theorem `deletion_tells_matches`: what a deletion reports of both stores, and what it leaves.
- Theorem `own_parent_is_not_told`: the cache reports that nothing matched, though a member did.
-/

namespace TwinStore.Twin

open Action Cache Filter Primary

mutual

/-- Whether no row failed to be destroyed in a deletion, down to all that belongs to the records. -/
def Deleted.IsThorough : Deleted → Prop
  | ⟨_, _, failedRows, cascade⟩ => failedRows = 0 ∧ AreThorough cascade

/-- Whether no row failed to be destroyed in some deletions. -/
def AreThorough : List (String × Deleted) → Prop
  | [] => True
  | (_, deleted) :: rest => deleted.IsThorough ∧ AreThorough rest

end

/-! ## Stores from which records can be deleted -/

/-- Whether the cache answers, the tables are in order, the members are read as ordinary values or
skipped, and the keys by which stored records are referred to can be compared with the fields that
refer to them. -/
structure CanDelete (d : Deployment) (s : Stores) : Prop where
  isUp : s.IsUp d
  planned : s.plannedDeletions = []
  isOrderly : s.database.IsOrderly d.registry
  members : ∀ name, d.registry.hasModel name = true → ∀ raw ∈ setOf d s.server.sets name,
    IsOrdinaryMember (d.registry.attributeTypes name) raw
  refers : ∀ o, s.database.Holds d.registry o → ∀ target relation,
    (target, relation) ∈ d.registry.relationsOf o.model → relation.cascades = true →
    ∀ type, Entries.get? (d.registry.attributeTypes target) relation.otherKey = some type →
      IsAskable type (o.record.field relation.thisKey)

/-- Records can be deleted from stores that mirror each other, if all types are exact and the fields
that refer to a key are of its type. -/
theorem CanDelete.of_coherent {d : Deployment} {s : Stores} (hr : d.registry.IsSound)
    (hkeys : d.registry.HasKeys) (hexact : ∀ {name m}, d.registry.model? name = some m →
      ∀ a ∈ m.attributes, a.type.isExact = true) (hup : s.IsUp d) (hplanned : s.plannedDeletions = [])
    (hdb : s.database.IsTyped d.registry) (hc : Coherent d s.server.sets s.database) :
    CanDelete d s where
  isUp := hup
  planned := hplanned
  isOrderly := hdb.isOrderly hexact
  members name hname raw hraw := by
    obtain ⟨m, hmodel⟩ := Option.isSome_iff_exists.mp hname
    have hm := hr.table_eq hmodel
    obtain ⟨t, ht, htyped⟩ := hdb name m hm
    obtain ⟨row, hrow, record, hrecord, hencode⟩ := ((hc name m t hm ht).2 raw).mp hraw
    have hrow := htyped.rows row hrow
    have hproper := hr.isProper hmodel
    obtain rfl := Except.ok.inj ((hrow.recordOf_eq (hexact hmodel)).symm.trans hrecord)
    obtain rfl := Except.ok.inj ((hrow.encode_eq hproper (hexact hmodel)).symm.trans hencode)
    rw [IsOrdinaryMember, Registry.attributeTypes_of_table hm, (hrow.read_eq hproper (hexact hmodel)).1]
    have hfields := admits_fields (hrow.isRecord hproper (hexact hmodel)) hproper
    intro e he
    obtain ⟨type, hadmits⟩ := hfields e ((sortedEntries_perm hfields).mem_iff.mp he)
    exact hadmits.isOrdinary
  refers o ho target relation hrelation _ type htype := by
    obtain ⟨_, m, other, hmodel, hother, hthis, hthat⟩ := hr.isRelated hrelation
    obtain ⟨a, ha, hname⟩ := List.any_eq_true.mp hthis
    obtain ⟨b, hb, hname'⟩ := List.any_eq_true.mp hthat
    rw [beq_iff_eq] at hname hname'
    have hsame := hkeys.type_eq hrelation hmodel hother a ha hname b hb hname'
    have hget := (hr.isProper hother).get?_attributeTypes hb
    rw [Registry.attributeTypes_of_table (hr.table_eq hother), ← hname', hget] at htype
    rw [← Option.some.inj htype, ← hsame]
    exact (admits_thisKey hr (hdb.isOrderly hexact) ho hrelation hmodel ha hname).isAskable

/-- The stores while records are deleted.  Members are missing only if their records follow claimed
ones. -/
structure Erasing (d : Deployment) (s : Stores) (claimed gone : List Item) (c : Stores) : Prop
    extends Claiming d s.database claimed gone c where
  isUp : c.IsUp d
  fewer : ∀ name raw, raw ∈ setOf d c.server.sets name → raw ∈ setOf d s.server.sets name
  missing : ∀ name raw, raw ∈ setOf d s.server.sets name → raw ∉ setOf d c.server.sets name →
    ∃ record, decode raw (d.registry.attributeTypes name) = .ok record ∧
      ∃ owner ∈ claimed, Follows d.registry owner ⟨name, record⟩

section

variable {d : Deployment} {s c : Stores} {claimed gone : List Item} {model : String} {m : Model}
  {where_ : Value} {pending : List Identity} {fresh : List Record} {below : List (String × Value)}

namespace Erasing

/-- What is claimed, and what is gone, counts as a set. -/
theorem congr {claimed' gone' : List Item} (h : Erasing d s claimed gone c)
    (hclaimed : ∀ o, o ∈ claimed' ↔ o ∈ claimed) (hgone : ∀ o, o ∈ gone' ↔ o ∈ gone) :
    Erasing d s claimed' gone' c where
  isUp := h.isUp
  planned := h.planned
  stored o ho := h.stored o ((hclaimed o).mp ho)
  owned o ho := (hclaimed o).mpr (h.owned o ((hgone o).mp ho))
  left name m t hm ht := by
    simp only [hgone]
    exact h.left name m t hm ht
  fewer := h.fewer
  missing name raw hraw hout := by
    simp only [hclaimed]
    exact h.missing name raw hraw hout

/-- Before a deletion nothing is claimed. -/
theorem start (hs : CanDelete d s) : Erasing d s [] [] s.content where
  isUp := ⟨hs.isUp.answers, hs.isUp.reachable⟩
  planned := hs.planned
  stored := nofun
  owned := nofun
  left := Database.without_nil _ _
  fewer _ _ := id
  missing _ _ hraw hout := absurd hraw hout

/-- What is taken is claimed. -/
theorem take (h : Erasing d s claimed gone c)
    (htaken : HasTaken d s.database model claimed gone pending fresh below c) :
    Erasing d s (claimed ++ itemsOf model fresh) gone c where
  toClaiming := htaken.claiming
  isUp := h.isUp
  fewer := h.fewer
  missing name raw hraw hout := by
    obtain ⟨record, hdecode, owner, howner, hfollows⟩ := h.missing name raw hraw hout
    exact ⟨record, hdecode, owner, List.mem_append_left _ howner, hfollows⟩

/-- Destroying claimed records that are not gone makes them gone, and fails for none. -/
theorem destroyRows (hr : d.registry.IsSound) (hkeys : d.registry.IsKeyed) (hs : CanDelete d s)
    {rows : List Record} (hrows : ∀ o ∈ itemsOf model rows, o ∈ claimed ∧ o ∉ gone)
    (hnodup : (itemsOf model rows).Nodup) (ref : CorrelationRef) :
    (Twin.destroyRows d ref model rows).Leads (Erasing d s claimed gone)
      (.ok (some !rows.isEmpty, 0)) (Erasing d s claimed (gone ++ itemsOf model rows)) := by
  refine Leads.of_gives fun c h => ?_
  obtain ⟨db', hgives, hclaiming⟩ :=
    h.toClaiming.destroyRows hr hkeys hs.isOrderly hrows hnodup ref
  exact ⟨_, hgives, hclaiming, ⟨h.isUp.answers, h.isUp.reachable⟩, h.fewer, h.missing⟩

end Erasing

/-! ## Queries -/

/-- What the primary store answers for has an answer. -/
theorem exists_answered {α : Type} {P : α → Prop} {o : Outcome α} (h : Either P IsAnswered o) :
    ∃ a, answered o = .ok a := by
  cases o with
  | ok a => exact ⟨some a, rfl⟩
  | error fault => exact ⟨none, if_pos h⟩

/-- A selection by a filter that can be asked is answered for. -/
theorem either_selection {db : Database} (hm : d.registry.table model = .ok m)
    (hasks : Asks m.attributeTypes where_) (hdb : db.IsOrderly d.registry) :
    Either (fun _ => True) IsAnswered (((Selection.filter where_).toClause m).run.2 >>=
      fun clause => selectWith d.registry db m clause []) := by
  apply (either_toClause hasks).bind
  intro clause hclause
  rw [selectWith_nil]
  refine (Database.either_select (P := fun _ => True) hclause fun t ht row hrow => ?_).imp
    (fun _ _ => trivial) fun _ => id
  obtain ⟨t', ht', horderly⟩ := hdb model m hm
  obtain rfl := Except.ok.inj (ht.symm.trans ht')
  exact (horderly.readable row hrow).imp fun _ hrecord => ⟨hrecord, trivial⟩

/-- A query by a filter that can be asked answers, and if it gives records, these are those of the rows
that a test selects. -/
theorem query_yields (hm : d.registry.table model = .ok m) (hasks : Asks m.attributeTypes where_)
    (hdb : c.database.IsOrderly d.registry) (given : Option CorrelationRef) :
    Yields (· = c) (query d given model (.filter where_) .null []) fun found c' => c' = c ∧
      ∀ rows, found = some rows → ∃ t test, c.database.table m = .ok t ∧ rows = recordsOf t test := by
  intro s hs
  obtain ⟨t, ht, horderly⟩ := hdb model m hm
  have hgives := query_gives hm given (.filter where_) [] c
  obtain ⟨found, hfound⟩ := exists_answered (either_selection hm hasks hdb)
  rw [hfound] at hgives
  obtain ⟨s', hrun, hs'⟩ := hgives s hs
  refine ⟨found, s', hrun, hs', ?_⟩
  rintro rows rfl
  obtain ⟨test, htest⟩ := exists_tests hm hrun
  have hrows := ((query_gives_stored hm ht horderly htest given).outcome_eq hs hrun).1
  exact ⟨t, test, ht, Option.some.inj (Except.ok.inj hrows)⟩

/-! ## Deletions of what follows claimed records -/

/-- Whether a filter names what belongs to claimed records. -/
def IsCalled (r : Registry) (claimed : List Item) (model : String) (where_ : Value) : Prop :=
  ∃ name rows, (∀ o ∈ itemsOf name rows, o ∈ claimed) ∧ Names r name rows model where_

/-- More records call for more. -/
theorem IsCalled.mono {r : Registry} {claimed' : List Item} (h : IsCalled r claimed model where_)
    (hsub : ∀ o ∈ claimed, o ∈ claimed') : IsCalled r claimed' model where_ := by
  obtain ⟨name, rows, hrows, hnames⟩ := h
  exact ⟨name, rows, fun o ho => hsub o (hrows o ho), hnames⟩

/-- What is called for is in a table, and can be asked for. -/
theorem IsCalled.exists_table (hr : d.registry.IsSound) (hs : CanDelete d s)
    (h : Erasing d s claimed gone c) (hcalled : IsCalled d.registry claimed model where_) :
    ∃ m, d.registry.table model = .ok m ∧ Asks m.attributeTypes where_ := by
  obtain ⟨name, rows, hrows, hnames⟩ := hcalled
  have hasks := asks_of_names hr hnames fun relation hrelation hcascades type htype row hrow =>
    hs.refers _ (h.stored _ (hrows _ (List.mem_map_of_mem hrow))) model relation hrelation hcascades
      type htype
  obtain ⟨relation, _, hrelation, _⟩ := hnames
  obtain ⟨_, _, m, _, hmodel, _⟩ := hr.isRelated hrelation
  have hm := hr.table_eq hmodel
  exact ⟨m, hm, Registry.attributeTypes_of_table hm ▸ hasks⟩

/-- Members that are removed for claimed records follow these. -/
theorem Erasing.clear (hr : d.registry.IsSound) (hs : CanDelete d s)
    (hcalled : IsCalled d.registry claimed model where_) (given : Option CorrelationRef) :
    Yields (Erasing d s claimed gone) (Cache.delete d given model where_)
      fun _ => Erasing d s claimed gone := by
  refine Yields.of_content fun c h => ?_
  obtain ⟨m, hm, hasks⟩ := hcalled.exists_table hr hs h
  have hknown := Registry.hasModel_of_table hm
  refine (delete_yields hknown (Registry.attributeTypes_of_table hm ▸ hasks) given h.isUp
    fun raw hraw => hs.members model hknown raw (h.fewer model raw hraw)).weaken (fun _ => id)
    fun _ c' hc' => ?_
  obtain ⟨hup, hprimary, hsets⟩ := hc'
  obtain ⟨hdatabase, hplanned⟩ := Prod.mk.inj hprimary
  refine ⟨⟨hplanned.trans h.planned, h.stored, h.owned, hdatabase ▸ h.left⟩, hup,
    fun name raw hraw => h.fewer name raw ((hsets name raw).1 hraw), fun name raw hraw hout => ?_⟩
  by_cases hmem : raw ∈ setOf d c.server.sets name
  · obtain ⟨rfl, predicate, record, hpredicate, hdecode, htrue⟩ :=
      ((hsets name raw).2 hmem).resolve_left hout
    obtain ⟨owner, rows, hrows, hnames⟩ := hcalled
    obtain ⟨row, hrow, hfollows⟩ := exists_followed_of_names hr hnames hpredicate htrue
    exact ⟨record, hdecode, _, hrows _ (List.mem_map_of_mem hrow), hfollows⟩
  · exact h.missing name raw hraw hmem

/-- Whether a deletion of what is called for destroys all that it claims, and no row fails. -/
def Erases (d : Deployment) (s : Stores)
    (deletion : String → Value → List Identity → Action (Deleted × List Identity)) : Prop :=
  ∀ model where_ claimed gone pending, IsCalled d.registry claimed model where_ →
    Pends d.registry pending claimed →
    Yields (Erasing d s claimed gone) (deletion model where_ pending)
      fun a c => a.1.IsThorough ∧ Grows d.registry (Erasing d s) claimed gone a.2 c

/-- Deletions one after another destroy all that they claim. -/
theorem Erases.deleteTargets
    {deletion : String → Value → List Identity → Action (Deleted × List Identity)}
    (h : Erases d s deletion) {below : List (String × Value)}
    (hbelow : ∀ target ∈ below, IsCalled d.registry claimed target.1 target.2)
    {pending : List Identity} (hpending : Pends d.registry pending claimed) :
    Yields (Erasing d s claimed gone) (Twin.deleteTargets deletion below pending)
      fun a c => AreThorough a.1 ∧ Grows d.registry (Erasing d s) claimed gone a.2 c := by
  induction below generalizing claimed gone pending with
  | nil =>
    exact Yields.pure fun c hc => ⟨trivial, .refl hpending hc⟩
  | cons target below ih =>
    obtain ⟨name, where_⟩ := target
    refine Yields.bind (h name where_ claimed gone pending (hbelow _ List.mem_cons_self) hpending) ?_
    rintro ⟨result, pending₁⟩
    refine Yields.of_content ?_
    rintro c ⟨hresult, new, hnew, hpends, hleft⟩
    refine Yields.bind ((ih (fun target htarget => (hbelow target (List.mem_cons_of_mem _ htarget)).mono
      fun o ho => List.mem_append_left _ ho) hpends).weaken (fun c' hc' => hc' ▸ hleft)
      fun _ _ => id) ?_
    rintro ⟨results, pending₂⟩
    exact Yields.pure fun c' hc' => ⟨⟨hresult, hc'.1⟩, .trans hnew hc'.2⟩

/-- After the deletions below, and when its rows are destroyed, everything that a deletion has claimed is
gone when it clears the cache; no row has failed, and the primary store says whether there were any. -/
theorem Erasing.sweep
    {deletion : String → Value → List Identity → Action (Deleted × List Identity)}
    (hr : d.registry.IsSound) (hkeys : d.registry.IsKeyed) (hs : CanDelete d s)
    (hdeletion : Erases d s deletion) (hc : Erasing d s claimed gone c)
    (h : HasTaken d s.database model claimed gone pending fresh below c) (ref : CorrelationRef)
    {R : Deleted × List Identity → Stores → Prop}
    (hclear : ∀ cascade pending' new, AreThorough cascade → (∀ o ∈ itemsOf model fresh, o ∈ new) →
      (∀ o ∈ new, o ∉ claimed) → Pends d.registry pending' (claimed ++ new) →
      Yields (Erasing d s (claimed ++ new) (gone ++ new)) (Cache.delete d (some ref) model where_)
        fun cache => R (⟨some !fresh.isEmpty, cache, 0, cascade⟩, pending')) :
    Yields (· = c) (do
      let (cascade, pending') ← Twin.deleteTargets deletion below pending
      let (primary, failedRows) ← Twin.destroyRows d ref model fresh
      let cache ← Cache.delete d (some ref) model where_
      return ({ primary, cache, failedRows, cascade }, pending')) R := by
  have hcalled : ∀ target ∈ below,
      IsCalled d.registry (claimed ++ itemsOf model fresh) target.1 target.2 := fun target htarget =>
    ⟨model, fresh, fun o ho => List.mem_append_right _ ho, h.names target htarget⟩
  refine Yields.bind ((hdeletion.deleteTargets hcalled h.pends).weaken (fun c' hc' => hc' ▸ hc.take h)
    fun _ _ => id) ?_
  rintro ⟨cascade, pending'⟩
  refine Yields.of_content ?_
  rintro c₁ ⟨hcascade, new, hnew, hpends, hleft⟩
  have hdestroyed := Erasing.destroyRows hr hkeys hs (unharmed_of_free h.free hc.owned hnew) h.distinct ref
  refine Yields.leads_bind (hdestroyed.weaken (fun c' hc' => hc' ▸ hleft) fun _ => id) ?_
  refine Yields.bind ((hclear cascade pending' (itemsOf model fresh ++ new) hcascade
    (fun o ho => List.mem_append_left _ ho) (unclaimed_of_free h.free hnew) ?_).weaken
    (fun c' hc' => hc'.congr ?_ ?_) fun _ _ => id) fun cache => Yields.pure fun _ => id
  · rwa [← List.append_assoc]
  all_goals
    intro o
    simp only [List.mem_append]
    tauto

/-- A deletion of what is called for destroys all that it claims, and no row fails.  The induction is on
the depth: what is found is claimed before the filters below are made, and these name what belongs to
it. -/
theorem erases_deleteWithin (hr : d.registry.IsSound) (hkeys : d.registry.IsKeyed) (hs : CanDelete d s)
    (ref : CorrelationRef) (depth : Nat) : Erases d s (deleteWithin d ref depth) := by
  induction depth with
  | zero =>
    exact fun _ _ _ _ _ _ hpending => Yields.pure fun c hc => ⟨⟨rfl, trivial⟩, .refl hpending hc⟩
  | succ depth ih =>
    intro model where_ claimed gone pending hcalled hpending
    refine Yields.of_content fun c hc => ?_
    obtain ⟨m, hm, hasks⟩ := hcalled.exists_table hr hs hc
    rw [deleteWithin]
    refine Yields.bind (query_yields hm hasks (hc.left.isOrderly hs.isOrderly) (some ref))
      fun found => Yields.of_content ?_
    rintro _ ⟨rfl, hfound⟩
    cases found with
    | none =>
      refine Yields.bind ((Erasing.clear hr hs hcalled (some ref)).weaken (fun c' hc' => hc' ▸ hc)
        fun _ _ => id) fun cache => Yields.pure fun c' hc' => ⟨⟨rfl, trivial⟩, .refl hpending hc'⟩
    | some rows =>
      obtain ⟨t, test, ht, rfl⟩ := hfound rows rfl
      obtain ⟨fresh, pending', below, hclaim, htargets, -, -, h⟩ :=
        hc.exists_taken hr hkeys hs.isOrderly hm ht test hpending
      refine Yields.leads_bind (Leads.of_eq_ok hclaim _) (Yields.leads_bind (Leads.of_eq_ok htargets _) ?_)
      refine hc.sweep hr hkeys hs ih h ref fun cascade pending₁ new hcascade _ hnew hpends => ?_
      have hclear := @Erasing.clear _ _ _ (gone ++ new) _ _ hr hs
        (hcalled.mono fun o ho => List.mem_append_left new ho) (some ref)
      exact hclear.weaken (fun _ => id) fun cache c' hc' => ⟨⟨rfl, hcascade⟩, new, hnew, hpends, hc'⟩

/-! ## Whole deletions -/

/-- Whether a query and a search by a filter find given records in some stores. -/
def Finds (d : Deployment) (s : Stores) (model : String) (where_ : Value) (rows found : List Record) :
    Prop :=
  ∀ given, (runFrom (query d given model (.filter where_) .null []) s).1 = .ok (some rows) ∧
    (runFrom (Cache.find d given model where_ []) s).1 = .ok (some found)

/-- Whether an item follows a record that is stored at first and later is not. -/
def FollowsDestroyed (d : Deployment) (s s' : Stores) (o : Item) : Prop :=
  ∃ owner, s.database.Holds d.registry owner ∧ ¬s'.database.Holds d.registry owner ∧
    Follows d.registry owner o

/-- What an accepted filter finds. -/
theorem exists_finds (hm : d.registry.table model = .ok m) {f : Formula Requirement}
    (hf : Requires m where_ f) {t : Table} (ht : c.database.table m = .ok t)
    (horderly : t.IsOrderly d.registry model m) (hup : c.IsUp d)
    (hread : ∀ raw ∈ setOf d c.server.sets model,
      IsOrdinaryMember (d.registry.attributeTypes model) raw) :
    ∃ found, (∀ s, s.content = c → Finds d s model where_ (recordsOf t (testOf m f)) found) ∧
      ∀ record, record ∈ found ↔ ∃ raw ∈ setOf d c.server.sets model,
        decode raw (d.registry.attributeTypes model) = .ok record ∧
          Matches d model where_ raw := by
  have htypes := Registry.attributeTypes_of_table hm
  obtain ⟨lines, _, hrun⟩ := hf.run_eq
  have hpredicate := congrArg Prod.snd (htypes ▸ hrun)
  obtain ⟨found, hfind, hfound⟩ := exists_find_leads (Registry.hasModel_of_table hm) hpredicate
    (fun raw hraw => (hread raw hraw).isSettled (htypes ▸ hf.isSure)) c.primary
  refine ⟨found, ?_, fun record => (hfound record).trans ?_⟩
  · rintro s rfl given
    obtain ⟨s₁, hquery, _⟩ :=
      query_gives_stored hm ht horderly (Tests.of_requires hf) given s rfl
    obtain ⟨s₂, hsearch, _⟩ := hfind given s ⟨hup, rfl, rfl⟩
    exact ⟨by rw [hquery], by rw [hsearch]⟩
  · refine exists_congr fun raw => and_congr_right fun _ => and_congr_right fun hdecode => ?_
    constructor
    · exact fun htrue => ⟨_, record, hpredicate, hdecode, htrue⟩
    · rintro ⟨predicate, record', hpredicate', hdecode', htrue⟩
      obtain rfl := Except.ok.inj (hdecode.symm.trans hdecode')
      obtain rfl := Except.ok.inj (hpredicate.symm.trans hpredicate')
      exact htrue

/-- What a deletion leaves that has found some rows: all these are gone, and at last the members are
removed that still satisfy the filter. -/
structure HasCleared (d : Deployment) (s : Stores) (model : String) (where_ : Value)
    (rows : List Record) (deleted : Deleted) (c : Stores) : Prop where
  thorough : deleted.IsThorough
  primary : deleted.primary = some !rows.isEmpty
  isUp : c.IsUp d
  cache : ∃ (removed : Bool) (gone : List Item) (c₁ : Stores), deleted.cache = some removed ∧
    (∀ o ∈ itemsOf model rows, o ∈ gone) ∧ Erasing d s gone gone c₁ ∧ c.primary = c₁.primary ∧
    (removed = true ↔ ∃ raw ∈ setOf d c₁.server.sets model, Matches d model where_ raw) ∧
    ∀ name raw, raw ∈ setOf d c.server.sets name ↔
      raw ∈ setOf d c₁.server.sets name ∧ ¬(name = model ∧ Matches d model where_ raw)

/-- A deletion by an accepted filter destroys the rows that the filter selects, and clears the members
after everything that belongs to these rows. -/
theorem deleteWithin_yields (hr : d.registry.IsSound) (hkeys : d.registry.IsKeyed) (hs : CanDelete d s)
    (hm : d.registry.table model = .ok m) {f : Formula Requirement} (hf : Requires m where_ f)
    {t : Table} (ht : s.database.table m = .ok t) (ref : CorrelationRef) (depth : Nat) :
    Yields (· = s.content) (deleteWithin d ref (depth + 1) model where_ []) fun a c =>
      HasCleared d s model where_ (recordsOf t (testOf m f)) a.1 c := by
  have htypes := Registry.attributeTypes_of_table hm
  have hknown := Registry.hasModel_of_table hm
  obtain ⟨lines, _, hrun⟩ := hf.run_eq
  have hpredicate := congrArg Prod.snd (htypes ▸ hrun)
  obtain ⟨t', ht', horderly⟩ := hs.isOrderly model m hm
  obtain rfl := Except.ok.inj (ht.symm.trans ht')
  have hnone : Pends d.registry [] [] := by simp [Pends]
  obtain ⟨fresh, pending, below, hclaim, htargets, -, -, h⟩ :=
    (Erasing.start hs).exists_taken hr hkeys hs.isOrderly hm ht (testOf m f) hnone
  obtain rfl := eq_of_claimRows_nil hclaim
  rw [deleteWithin]
  refine Yields.leads_bind (query_gives_stored (c := s.content) hm ht horderly (Tests.of_requires hf)
    (some ref)) ?_
  refine Yields.leads_bind (Leads.of_eq_ok hclaim _) (Yields.leads_bind (Leads.of_eq_ok htargets _) ?_)
  refine (Erasing.start hs).sweep hr hkeys hs (erases_deleteWithin hr hkeys hs ref depth) h ref
    fun cascade pending' gone hcascade hfresh _ _ => Yields.of_content fun c hc => ?_
  obtain ⟨removed, sets', hdelete, hremoved, hsets⟩ := exists_delete_leads hknown (some ref) hpredicate
    (fun raw hraw => (hs.members model hknown raw (hc.fewer model raw hraw)).isSettled
      (htypes ▸ hf.isSure)) c.primary
  have hstands : Stores.Stands d c.server.sets c.primary c := ⟨hc.isUp, rfl, rfl⟩
  refine Yields.of_leads (hdelete.weaken (fun c' hc' => hc' ▸ hstands) fun _ => id) fun c' hc' => ?_
  refine ⟨⟨rfl, hcascade⟩, rfl, hc'.isUp, removed, gone, c, rfl, hfresh, hc, hc'.primary_eq, hremoved,
    fun name raw => ?_⟩
  rw [hc'.sets_eq, hsets]

namespace HasCleared

variable {f : Formula Requirement} {t : Table} {rows : List Record} {deleted : Deleted} {s' : Stores}

/-- Nothing is left that satisfies the filter. -/
theorem finds_nothing (hs : CanDelete d s) (hm : d.registry.table model = .ok m)
    (hf : Requires m where_ f) (ht : s.database.table m = .ok t)
    (h : HasCleared d s model where_ (recordsOf t (testOf m f)) deleted s'.content) :
    Finds d s' model where_ [] [] := by
  obtain ⟨_, gone, c₁, _, hrows, herasing, hprimary, _, hsets⟩ := h.cache
  have hdatabase : s'.database = c₁.database := congrArg Prod.fst hprimary
  obtain ⟨t₀, ht₀, horderly⟩ := hs.isOrderly model m hm
  obtain rfl := Except.ok.inj (ht.symm.trans ht₀)
  obtain ⟨t', ht', _, hsub, hleft⟩ := herasing.left model m t hm ht
  obtain ⟨t₁, ht₁, horderly'⟩ := herasing.left.isOrderly hs.isOrderly model m hm
  obtain rfl := Except.ok.inj (ht'.symm.trans ht₁)
  obtain ⟨found, hfinds, hfound⟩ := exists_finds (c := s'.content) hm hf
    (show s'.database.table m = .ok t' from hdatabase ▸ ht') horderly' h.isUp fun raw hraw =>
      hs.members model (Registry.hasModel_of_table hm) raw
        (herasing.fewer model raw ((hsets model raw).mp hraw).1)
  have hnoRow : recordsOf t' (testOf m f) = [] := by
    refine List.eq_nil_iff_forall_not_mem.mpr fun record hrecord => ?_
    obtain ⟨row, hrow, hread, hselects⟩ := horderly'.mem_recordsOf.mp hrecord
    have hbefore := horderly.mem_recordsOf.mpr ⟨row, hsub.subset hrow, hread, hselects⟩
    exact (hleft row (hsub.subset hrow) record hread).mp hrow (hrows _ (List.mem_map_of_mem hbefore))
  have hnoMember : found = [] := by
    refine List.eq_nil_iff_forall_not_mem.mpr fun record hrecord => ?_
    obtain ⟨raw, hraw, _, hmatches⟩ := (hfound record).mp hrecord
    exact ((hsets model raw).mp hraw).2 ⟨rfl, hmatches⟩
  rw [hnoRow, hnoMember] at hfinds
  exact hfinds s' rfl

/-- The cache tells that a member satisfied the filter only if one did, and that none did only if all
that did follow destroyed records. -/
theorem exists_removed (hs : CanDelete d s)
    (h : HasCleared d s model where_ rows deleted s'.content) {found : List Record}
    (hfound : ∀ record, record ∈ found ↔ ∃ raw ∈ setOf d s.server.sets model,
      decode raw (d.registry.attributeTypes model) = .ok record ∧ Matches d model where_ raw) :
    ∃ removed, deleted.cache = some removed ∧ (removed = true → found ≠ []) ∧
      (removed = false → ∀ record ∈ found, FollowsDestroyed d s s' ⟨model, record⟩) := by
  obtain ⟨removed, gone, c₁, hcache, _, herasing, hprimary, hremoved, _⟩ := h.cache
  have hdatabase : s'.database = c₁.database := congrArg Prod.fst hprimary
  refine ⟨removed, hcache, fun htrue => ?_, fun hfalse record hrecord => ?_⟩
  · obtain ⟨raw, hraw, hmatches⟩ := hremoved.mp htrue
    obtain ⟨_, record, _, hdecode, _⟩ := id hmatches
    exact List.ne_nil_of_mem ((hfound record).mpr ⟨raw, herasing.fewer model raw hraw, hdecode, hmatches⟩)
  · obtain ⟨raw, hraw, hdecode, hmatches⟩ := (hfound record).mp hrecord
    have hout : raw ∉ setOf d c₁.server.sets model := fun hmem =>
      Bool.false_ne_true (hfalse.symm.trans (hremoved.mpr ⟨raw, hmem, hmatches⟩))
    obtain ⟨record', hdecode', owner, howner, hfollows⟩ := herasing.missing model raw hraw hout
    obtain rfl := Except.ok.inj (hdecode.symm.trans hdecode')
    refine ⟨owner, herasing.stored owner howner, fun hholds => ?_, hfollows⟩
    exact ((herasing.left.holds_iff hs.isOrderly owner).mp (hdatabase ▸ hholds)).2 howner

end HasCleared

/-- A deletion by an accepted filter answers.  It tells of the primary store whether any row satisfied
the filter, and of the cache that a member did only if one did, and that none did only if all that did
follow destroyed records; no row fails at any level, and nothing is left that satisfies the filter. -/
theorem deletion_tells_matches (hd : d.registry.Built) (hkeys : d.registry.IsKeyed)
    (hs : CanDelete d s) (hwhere : AcceptedFor d.registry model where_) (given : Option CorrelationRef) :
    ∃ rows found deleted removed s', Finds d s model where_ rows found ∧
      runFrom (delete d given model where_) s = (.ok deleted, s') ∧
      deleted.primary = some !rows.isEmpty ∧ deleted.cache = some removed ∧
      (removed = true → found ≠ []) ∧
      (removed = false → ∀ record ∈ found, FollowsDestroyed d s s' ⟨model, record⟩) ∧
      deleted.IsThorough ∧ Finds d s' model where_ [] [] := by
  obtain ⟨m, f, hm, hf⟩ := hwhere
  have hknown := Registry.hasModel_of_table hm
  obtain ⟨t, ht, horderly⟩ := hs.isOrderly model m hm
  obtain ⟨found, hfinds, hfound⟩ := exists_finds (c := s.content) hm hf ht horderly
    ⟨hs.isUp.answers, hs.isUp.reachable⟩ (hs.members model hknown)
  have hyields : Yields (· = s.content) (delete d given model where_)
      (HasCleared d s model where_ (recordsOf t (testOf m f))) := by
    refine Yields.inScope fun ref => Yields.leads_bind (Leads.knows hknown ref component _) ?_
    refine Yields.get_bind fun s₁ hs₁ => ?_
    have hwithin := deleteWithin_yields hd.isSound hkeys hs hm hf ht ref s₁.database.size
    exact Yields.bind (hs₁ ▸ hwithin) fun a => Yields.pure fun c hc => hc
  obtain ⟨deleted, s', hrun, hcleared⟩ := hyields s rfl
  obtain ⟨removed, hcache, htrue, hfalse⟩ := hcleared.exists_removed hs hfound
  exact ⟨_, found, deleted, removed, s', hfinds s rfl, hrun, hcleared.primary, hcache, htrue, hfalse,
    hcleared.thorough, hcleared.finds_nothing hs hm hf ht⟩

end

/-! ## Records that follow each other -/

theorem canDelete_mirroredCircle : CanDelete nodes mirroredCircle :=
  .of_coherent built_nodes.isSound hasKeys_nodes isExact_node isUp_mirroredCircle rfl isTyped_circle
    coherent_mirroredCircle

theorem circle_deletion_tells_matches :
    CanDelete nodes mirroredCircle ∧ AcceptedFor nodes.registry "node" firstNode ∧
    ∃ rows found deleted removed s', Finds nodes mirroredCircle "node" firstNode rows found ∧
      runFrom (delete nodes none "node" firstNode) mirroredCircle = (.ok deleted, s') ∧
      deleted.primary = some !rows.isEmpty ∧ deleted.cache = some removed ∧
      (removed = true → found ≠ []) ∧
      (removed = false → ∀ record ∈ found,
        FollowsDestroyed nodes mirroredCircle s' ⟨"node", record⟩) ∧
      deleted.IsThorough ∧ Finds nodes s' "node" firstNode [] [] := by
  have haccepted : AcceptedFor nodes.registry "node" firstNode := ⟨node, _, rfl, requires_firstNode⟩
  exact ⟨canDelete_mirroredCircle, haccepted,
    deletion_tells_matches built_nodes hasKeys_nodes.isKeyed canDelete_mirroredCircle haccepted none⟩

/-- The stores are mirrored in which a record that names itself as its parent has been saved.  A member
satisfies the filter for it, and the cache tells of the deletion that none did: the deletion below has
removed it, as one that follows the record. -/
theorem own_parent_is_not_told :
    Coherent nodes savedLoop.server.sets savedLoop.database ∧
    (runFrom (query nodes none "node" (.filter firstNode) .null []) savedLoop).1 =
      .ok (some [[("id", .int 1), ("parent", .int 1)]]) ∧
    (runFrom (Cache.find nodes none "node" firstNode []) savedLoop).1 =
      .ok (some [[("id", .int 1), ("parent", .int 1)]]) ∧
    (runFrom (delete nodes none "node" firstNode) savedLoop).1 =
      .ok ⟨some true, some false, 0, [("node", ⟨some false, some true, 0, []⟩)]⟩ := by
  refine ⟨(coordinated_savedLoop.mirrored isMirrored_nodes).coherent, ?_, ?_, ?_⟩ <;> cbv

end TwinStore.Twin
