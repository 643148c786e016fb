import TwinStore.Proofs.CascadeClosure
import TwinStore.Proofs.ClaimedRecords
import TwinStore.Proofs.CoherentChanges
import TwinStore.Proofs.Operations
import TwinStore.Proofs.PlanAgreement

/-!
# Deletions that keep the stores coherent

A deletion destroys the records that it claims and removes the members of all records that its filters
select from the cache.  In between the cache lacks members of records that are claimed and not yet
destroyed, but of no others; when a deletion has ended, everything that it claimed is gone from both
stores.

Main definitions:

- `Deleting`: the stores while records are deleted.
- `Deletes`: deletions that leave such stores.

Main results:

- Theorem `deletes_deleteWithin`: a deletion with all that belongs to it is one of them.
- Theorem `Deleting.coherent`: when all claimed records are gone, the sets mirror the tables.
-/

namespace TwinStore.Twin

open Primary Filter Cache Action

/-! ## Stores while records are deleted -/

/-- The stores while records of a content are deleted: some are claimed, of some the members were
removed from the cache, and some are gone from the tables. -/
structure Deleting (d : Deployment) (db : Database) (claimed removed gone : List Item) (c : Stores) :
    Prop where
  isUp : c.IsUp d
  planned : c.plannedDeletions = []
  sorted : AreSorted c.server.sets
  stored : ∀ o ∈ claimed, db.Holds d.registry o
  owned : ∀ o ∈ gone, o ∈ claimed
  left : Database.Without d.registry db gone c.database
  reflects : Reflects d c.server.sets db
  kept : ∀ o, db.Holds d.registry o → o ∉ claimed →
    memberText o.record ∈ setOf d c.server.sets o.model
  absent : ∀ o ∈ removed, memberText o.record ∉ setOf d c.server.sets o.model

section

variable {d : Deployment} {db : Database} {claimed removed gone : List Item} {model : String}
  {m : Model} {t : Table} {c : Stores}

/-- The record of a row is stored. -/
theorem holds_recordIn (hr : d.registry.IsMirrored) (hm : d.registry.table model = .ok m)
    (ht : db.table m = .ok t) (htyped : t.IsTyped m) {row : Row} (hrow : row ∈ t.rows) :
    db.Holds d.registry ⟨model, recordIn m row⟩ :=
  ⟨m, t, row, hm, ht, hrow, (encode_recordIn hr hm htyped hrow).1⟩

namespace Deleting

/-- What is gone, and what is claimed, counts as a set. -/
theorem congr {claimed' removed' gone' : List Item} (h : Deleting d db claimed removed gone c)
    (hclaimed : ∀ o, o ∈ claimed' ↔ o ∈ claimed) (hremoved : ∀ o, o ∈ removed' ↔ o ∈ removed)
    (hgone : ∀ o, o ∈ gone' ↔ o ∈ gone) : Deleting d db claimed' removed' gone' c where
  isUp := h.isUp
  planned := h.planned
  sorted := h.sorted
  stored o ho := h.stored o ((hclaimed o).mp ho)
  owned o ho := (hclaimed o).mpr (h.owned o ((hgone o).mp ho))
  left name m t hm ht := by
    simp only [hgone]
    exact h.left name m t hm ht
  reflects := h.reflects
  kept o ho hfree := h.kept o ho fun hmem => hfree ((hclaimed o).mpr hmem)
  absent o ho := h.absent o ((hremoved o).mp ho)

/-- The stores before a deletion, when the sets mirror the tables. -/
theorem start (hr : d.registry.IsMirrored) (hup : c.IsUp d) (hplanned : c.plannedDeletions = [])
    (hdb : c.database.IsTyped d.registry) (hsorted : AreSorted c.server.sets)
    (hc : Coherent d c.server.sets c.database) : Deleting d c.database [] [] [] c where
  isUp := hup
  planned := hplanned
  sorted := hsorted
  stored := nofun
  owned := nofun
  left := Database.without_nil _ _
  reflects name m t hm ht raw hraw := by
    obtain ⟨row, hrow, rfl⟩ := List.mem_map.mp
      (((coherent_iff hr hdb hsorted).mp hc name m t hm ht raw).mp hraw)
    exact ⟨row, hrow, rfl⟩
  kept o ho _ := by
    obtain ⟨m, t, row, hm, ht, hrow, hrecord⟩ := ho
    refine ((coherent_iff hr hdb hsorted).mp hc o.model m t hm ht _).mpr
      (List.mem_map.mpr ⟨row, hrow, ?_⟩)
    rw [memberIn, recordIn, hrecord]
    rfl
  absent := nofun

/-- When all claimed records are gone from both stores, the sets mirror the tables. -/
theorem coherent (hr : d.registry.IsMirrored) (hdb : db.IsTyped d.registry)
    (h : Deleting d db claimed claimed claimed c) :
    c.database.IsTyped d.registry ∧ Coherent d c.server.sets c.database := by
  have htyped : c.database.IsTyped d.registry := by
    intro name m hm
    obtain ⟨t, ht, htyped⟩ := hdb name m hm
    obtain ⟨t', ht', hmodel, hsub, _⟩ := h.left name m t hm ht
    exact ⟨t', ht', hmodel.trans htyped.model_eq, htyped.keyed.sublist hsub,
      fun row hrow => htyped.rows row (hsub.subset hrow)⟩
  refine ⟨htyped, (coherent_iff hr htyped h.sorted).mpr fun name m t' hm ht' raw => ?_⟩
  obtain ⟨t, ht, htable⟩ := hdb name m hm
  obtain ⟨t₁, ht₁, _, hsub, hleft⟩ := h.left name m t hm ht
  obtain rfl : t' = t₁ := Except.ok.inj (ht'.symm.trans ht₁)
  rw [List.mem_map]
  constructor
  · intro hraw
    obtain ⟨row, hrow, rfl⟩ := h.reflects name m t hm ht raw hraw
    refine ⟨row, (hleft row hrow _ (encode_recordIn hr hm htable hrow).1).mpr fun hgone => ?_, rfl⟩
    exact h.absent _ hgone hraw
  · rintro ⟨row, hrow, rfl⟩
    have hmem := hsub.subset hrow
    exact h.kept ⟨name, recordIn m row⟩ (holds_recordIn hr hm ht htable hmem)
      ((hleft row hmem _ (encode_recordIn hr hm htable hmem).1).mp hrow)

/-! ## Parts of a deletion -/

/-- The primary store while records are deleted. -/
theorem claiming (h : Deleting d db claimed removed gone c) : Claiming d db claimed gone c :=
  ⟨h.planned, h.stored, h.owned, h.left⟩

/-- Destroying claimed records makes them gone. -/
theorem destroyRows (hr : d.registry.IsMirrored) (hdb : db.IsTyped d.registry) {rows : List Record}
    (hrows : ∀ o ∈ itemsOf model rows, o ∈ claimed ∧ o ∉ gone) (hnodup : (itemsOf model rows).Nodup)
    (ref : CorrelationRef) :
    Ensures (Deleting d db claimed removed gone) (Twin.destroyRows d ref model rows)
      fun _ => Deleting d db claimed removed (gone ++ itemsOf model rows) := by
  refine Ensures.of_content fun c h => ?_
  obtain ⟨db', hgives, hclaiming⟩ := h.claiming.destroyRows hr.sound hr.keys.isKeyed
    (hdb.isOrderly hr.exact) hrows hnodup ref
  refine Ensures.of_leads hgives fun _ c' _ hc' => ?_
  subst hc'
  exact ⟨⟨h.isUp.answers, h.isUp.reachable⟩, h.planned, h.sorted, h.stored, hclaiming.owned,
    hclaiming.left, h.reflects, h.kept, h.absent⟩

/-- Removing what a filter selects from the cache, when all of it is claimed. -/
theorem clear (hr : d.registry.IsMirrored) (hdb : db.IsTyped d.registry)
    (hm : d.registry.table model = .ok m) (ht : db.table m = .ok t) {where_ : Value}
    {f : Formula Requirement} (hf : Requires m where_ f)
    (hclaimed : ∀ row ∈ t.rows, (testOf m f).selects row = true → ⟨model, recordIn m row⟩ ∈ claimed)
    (removed' : List Item) (hremoved : ∀ o ∈ removed', o ∈ removed ∨
      ∃ row ∈ t.rows, (testOf m f).selects row = true ∧ o = ⟨model, recordIn m row⟩)
    (ref : CorrelationRef) :
    Ensures (Deleting d db claimed removed gone) (Cache.delete d (some ref) model where_)
      fun _ => Deleting d db claimed removed' gone := by
  refine Ensures.of_content fun c h => ?_
  obtain ⟨t', ht', htyped⟩ := hdb model m hm
  obtain rfl : t = t' := Except.ok.inj (ht.symm.trans ht')
  have hstands : Stores.Stands d c.server.sets (c.database, []) c :=
    ⟨h.isUp, rfl, by rw [Stores.primary, h.planned]⟩
  obtain ⟨found, hfound, hmem⟩ := h.reflects.matching_leads hr hdb h.sorted hm ht hf (c.database, [])
  have hdelete := Cache.delete_leads (Registry.hasModel_of_table hm) (some ref) hfound
  refine Ensures.of_leads (hdelete.weaken (fun c' hc' => hc' ▸ hstands) fun _ => id) fun a c' _ hc' => ?_
  have hsets (name : String) (raw : String) : raw ∈ setOf d c'.server.sets name ↔
      raw ∈ setOf d c.server.sets name ∧ ¬(name = model ∧ raw ∈ found.map (·.1)) := by
    rw [hc'.sets_eq]
    split_ifs with hempty
    · simp [List.isEmpty_iff.mp hempty]
    · exact mem_setOf_removed
  have hprimary : c'.database = c.database ∧ c'.plannedDeletions = [] := Prod.mk.inj hc'.primary_eq
  refine ⟨hc'.isUp, hprimary.2, ?_, h.stored, h.owned, hprimary.1 ▸ h.left, ?_, ?_, ?_⟩
  · rw [hc'.sets_eq]
    split_ifs
    · exact h.sorted
    · exact h.sorted.removed _ _
  · exact fun name m' t' hm' ht' raw hraw => h.reflects name m' t' hm' ht' raw ((hsets name raw).mp hraw).1
  · intro o ho hfree
    refine (hsets _ _).mpr ⟨h.kept o ho hfree, ?_⟩
    rintro ⟨hmodel, hin⟩
    obtain ⟨name, record⟩ := o
    obtain rfl : name = model := hmodel
    obtain ⟨_, row, hrow, hmember, hselects⟩ := (hmem _).mp hin
    obtain ⟨row', hrow', hrecord⟩ := ho.elim hm ht
    have hrecord' : recordIn m row' = record := by rw [recordIn, hrecord]; rfl
    obtain rfl := memberIn_inj hr hm htyped hrow' hrow (by rw [memberIn, hrecord']; exact hmember)
    exact hfree (hrecord' ▸ hclaimed row' hrow' hselects)
  · intro o ho hin
    obtain ⟨hold, hkept⟩ := (hsets _ _).mp hin
    rcases hremoved o ho with hgone | ⟨row, hrow, hselects, rfl⟩
    · exact h.absent o hgone hold
    · exact hkept ⟨rfl, (hmem _).mpr ⟨hold, row, hrow, rfl, hselects⟩⟩

end Deleting

end

/-! ## Deletions -/

section

variable {d : Deployment} {db : Database} {deletion : String → Value → List Identity →
  Action (Deleted × List Identity)}

/-- What a deletion leaves that claimed some more records: these are gone from both stores. -/
def HasDeleted (d : Deployment) (db : Database) (claimed gone : List Item) (pending : List Identity)
    (c : Stores) : Prop :=
  ∃ new, (∀ o ∈ new, o ∉ claimed) ∧ Pends d.registry pending (claimed ++ new) ∧
    Deleting d db (claimed ++ new) (gone ++ new) (gone ++ new) c

/-- Whether a deletion, if it is complete, leaves none of what it claims. -/
def Deletes (d : Deployment) (db : Database)
    (deletion : String → Value → List Identity → Action (Deleted × List Identity)) : Prop :=
  ∀ model where_ claimed gone pending, AcceptedFor d.registry model where_ →
    Pends d.registry pending claimed →
    Ensures (Deleting d db claimed gone gone) (deletion model where_ pending)
      fun a c => a.1.IsComplete → HasDeleted d db claimed gone a.2 c

/-- Complete deletions one after another leave none of what they claim. -/
theorem Deletes.deleteTargets (h : Deletes d db deletion) {below : List (String × Value)}
    (hbelow : ∀ target ∈ below, AcceptedFor d.registry target.1 target.2) {claimed gone : List Item}
    {pending : List Identity} (hpending : Pends d.registry pending claimed) :
    Ensures (Deleting d db claimed gone gone) (Twin.deleteTargets deletion below pending)
      fun a c => AreComplete a.1 → HasDeleted d db claimed gone a.2 c := by
  induction below generalizing claimed gone pending with
  | nil =>
    exact Ensures.pure fun c hc _ =>
      Grows.refl (I := fun claimed gone => Deleting d db claimed gone gone) hpending hc
  | cons target below ih =>
    obtain ⟨name, where_⟩ := target
    refine Ensures.bind (h name where_ claimed gone pending (hbelow _ List.mem_cons_self) hpending) ?_
    rintro ⟨result, pending₁⟩
    by_cases hcomplete : result.IsComplete
    · refine Ensures.of_content fun c hc => ?_
      obtain ⟨new, hnew, hpends, hleft⟩ := hc hcomplete
      refine Ensures.bind ((ih (fun t ht => hbelow t (List.mem_cons_of_mem _ ht)) hpends).weaken
        (fun c' hc' => hc' ▸ hleft) fun _ _ => id) ?_
      rintro ⟨results, pending₂⟩
      exact Ensures.pure fun c' hc' hall =>
        Grows.trans (I := fun claimed gone => Deleting d db claimed gone gone) hnew (hc' hall.2)
    · refine Ensures.bind (Q := fun _ _ => True) (fun _ _ _ _ _ => trivial) ?_
      rintro ⟨results, pending₂⟩
      exact Ensures.pure fun c' _ hall => absurd hall.1 hcomplete

/-- The filters below stored records are accepted. -/
theorem acceptedFor_of_names (hr : d.registry.IsMirrored) (hdb : db.IsOrderly d.registry)
    {model target : String} {rows : List Record} (hrows : ∀ o ∈ itemsOf model rows, db.Holds d.registry o)
    {where_ : Value} (h : Names d.registry model rows target where_) :
    AcceptedFor d.registry target where_ := by
  obtain ⟨relation, keys, hrelation, _, rfl, _, hmem⟩ := h
  obtain ⟨m, hm, b, _, hname, _, _, _, hrequires⟩ :=
    exists_otherKey hr.sound hr.keys hdb hrows hrelation hmem
  exact ⟨m, _, hr.sound.table_eq hm, hname ▸ hrequires⟩

/-- What a deletion has before it goes on to what belongs to its records: what it found is claimed, by
itself or by another one. -/
structure HasClaimed (d : Deployment) (db : Database) (model : String) (selected claimed gone : List Item)
    (pending : List Identity) (fresh : List Record) (below : List (String × Value)) (c : Stores) :
    Prop where
  pends : Pends d.registry pending (claimed ++ itemsOf model fresh)
  accepted : ∀ target ∈ below, AcceptedFor d.registry target.1 target.2
  free : ∀ o ∈ itemsOf model fresh, o ∉ claimed
  distinct : (itemsOf model fresh).Nodup
  found : ∀ o ∈ itemsOf model fresh, o ∈ selected
  all : ∀ o ∈ selected, o ∈ claimed ++ itemsOf model fresh
  deleting : Deleting d db (claimed ++ itemsOf model fresh) gone gone c

/-- The records of a table that a filter selects. -/
def selectedItems (model : String) (m : Model) (t : Table) (f : Formula Requirement) : List Item :=
  (t.rows.filter (testOf m f).selects).map fun row => ⟨model, recordIn m row⟩

theorem mem_selectedItems {model : String} {m : Model} {t : Table} {f : Formula Requirement} {o : Item} :
    o ∈ selectedItems model m t f ↔
      ∃ row ∈ t.rows, (testOf m f).selects row = true ∧ ⟨model, recordIn m row⟩ = o := by
  simp only [selectedItems, List.mem_map, List.mem_filter, and_assoc]

/-- A deletion by an accepted filter finds its records and claims those that are not claimed yet. -/
theorem Deleting.exists_claim (hr : d.registry.IsMirrored) (hdb : db.IsTyped d.registry)
    {claimed gone : List Item} {c : Stores} (h : Deleting d db claimed gone gone c) {model : String}
    {m : Model} {t : Table} (hm : d.registry.table model = .ok m) (ht : db.table m = .ok t)
    {where_ : Value} {f : Formula Requirement} (hf : Requires m where_ f) {pending : List Identity}
    (hpending : Pends d.registry pending claimed) :
    ∃ rows fresh pending' below,
      (∀ given, (query d given model (.filter where_) .null []).Gives c (.ok (some rows)) c) ∧
      claimRows d.registry model rows pending = .ok (fresh, pending') ∧
      targets d.registry model fresh = .ok below ∧
      HasClaimed d db model (selectedItems model m t f) claimed gone pending' fresh below c := by
  have horderly : db.IsOrderly d.registry := hdb.isOrderly hr.exact
  obtain ⟨t₀, ht₀, htyped⟩ := hdb model m hm
  obtain rfl : t = t₀ := Except.ok.inj (ht.symm.trans ht₀)
  obtain ⟨t', ht', _, hsub, hleft⟩ := h.left model m t hm ht
  obtain ⟨t₁, ht₁, htable⟩ := h.left.isOrderly horderly model m hm
  obtain rfl : t' = t₁ := Except.ok.inj (ht'.symm.trans ht₁)
  have hfound (record : Record) : record ∈ recordsOf t' (testOf m f) ↔
      ⟨model, record⟩ ∈ selectedItems model m t f ∧ ⟨model, record⟩ ∉ gone := by
    rw [htable.mem_recordsOf, mem_selectedItems]
    constructor
    · rintro ⟨row, hrow, hrecord, hselects⟩
      have hmem := hsub.subset hrow
      exact ⟨⟨row, hmem, hselects, by rw [recordIn, hrecord]; rfl⟩,
        (hleft row hmem record hrecord).mp hrow⟩
    · rintro ⟨⟨row, hrow, hselects, heq⟩, hgone⟩
      obtain rfl := (Item.mk.inj heq).2
      have hrecord := (encode_recordIn hr hm htyped hrow).1
      exact ⟨row, (hleft row hrow _ hrecord).mpr hgone, hrecord, hselects⟩
  obtain ⟨fresh, pending', below, hclaim, htargets, hnew, hfresh, htaken⟩ :=
    h.claiming.exists_taken hr.sound hr.keys.isKeyed horderly hm ht' (testOf m f) hpending
  have hstored := htaken.claiming.stored
  refine ⟨_, fresh, pending', below, query_gives_stored hm ht' htable (Tests.of_requires hf), hclaim,
    htargets, htaken.pends, fun target htarget => ?_, htaken.free, htaken.distinct, fun o ho => ?_,
    fun o ho => ?_, ⟨h.isUp, h.planned, h.sorted, hstored, htaken.claiming.owned, h.left, h.reflects,
      fun o ho hout => h.kept o ho fun hmem => hout (List.mem_append_left _ hmem), h.absent⟩⟩
  · exact acceptedFor_of_names hr horderly (fun o ho => hstored o (List.mem_append_right _ ho))
      (htaken.names target htarget)
  · obtain ⟨record, hrecord, rfl⟩ := List.mem_map.mp ho
    exact ((hfound record).mp (hfresh.subset hrecord)).1
  · by_cases hmem : o ∈ claimed
    · exact List.mem_append_left _ hmem
    · obtain ⟨row, _, _, rfl⟩ := mem_selectedItems.mp ho
      have hrecord := (hfound (recordIn m row)).mpr ⟨ho, fun hgone => hmem (h.owned _ hgone)⟩
      exact List.mem_append_right _ (List.mem_map_of_mem ((hnew _ hrecord).mpr hmem))

/-- When the deletions below are complete, destroying what was claimed and removing what the filter
selects from the cache leaves none of it. -/
theorem HasClaimed.finish (hr : d.registry.IsMirrored) (hdb : db.IsTyped d.registry) {model : String}
    {m : Model} {t : Table} (hm : d.registry.table model = .ok m) (ht : db.table m = .ok t)
    {where_ : Value} {f : Formula Requirement} (hf : Requires m where_ f) {claimed gone new : List Item}
    {pending : List Identity} {fresh : List Record} {below : List (String × Value)} {c₀ : Stores}
    (h : HasClaimed d db model (selectedItems model m t f) claimed gone pending fresh below c₀)
    (howned : ∀ o ∈ gone, o ∈ claimed) (hnew : ∀ o ∈ new, o ∉ claimed ++ itemsOf model fresh)
    (ref : CorrelationRef) {β : Type} {R : β → Stores → Prop}
    {k : Option Bool × Nat → Option Bool → Action β}
    (hk : ∀ destroyed removed, Ensures (Deleting d db (claimed ++ (itemsOf model fresh ++ new))
      (gone ++ (itemsOf model fresh ++ new)) (gone ++ (itemsOf model fresh ++ new)))
      (k destroyed removed) R) :
    Ensures (Deleting d db (claimed ++ itemsOf model fresh ++ new) (gone ++ new) (gone ++ new))
      (do
        let destroyed ← Twin.destroyRows d ref model fresh
        let removed ← Cache.delete d (some ref) model where_
        k destroyed removed) R := by
  refine Ensures.bind (Deleting.destroyRows hr hdb (unharmed_of_free h.free howned hnew) h.distinct ref)
    fun destroyed => ?_
  refine Ensures.bind (Deleting.clear hr hdb hm ht hf (fun row hrow hselects => ?_)
    ((gone ++ new) ++ itemsOf model fresh) (fun o ho => ?_) ref) fun removed => ?_
  · exact List.mem_append_left _ (h.all _ (mem_selectedItems.mpr ⟨row, hrow, hselects, rfl⟩))
  · refine (List.mem_append.mp ho).imp_right fun ho => ?_
    obtain ⟨row, hrow, hselects, heq⟩ := mem_selectedItems.mp (h.found o ho)
    exact ⟨row, hrow, hselects, heq.symm⟩
  · refine (hk destroyed removed).weaken (fun c hc => hc.congr ?_ ?_ ?_) fun _ _ => id
    all_goals
      intro o
      simp only [List.mem_append]
      tauto

/-- A deletion with all that belongs to it leaves none of what it claims, if it is complete. -/
theorem deletes_deleteWithin (hr : d.registry.IsMirrored) (hdb : db.IsTyped d.registry)
    (ref : CorrelationRef) (depth : Nat) : Deletes d db (deleteWithin d ref depth) := by
  induction depth with
  | zero => exact fun _ _ _ _ _ _ _ => Ensures.pure fun c _ hcomplete => by cases hcomplete.1
  | succ depth ih =>
    rintro model where_ claimed gone pending ⟨m, f, hm, hf⟩ hpending
    refine Ensures.of_content fun c hc => ?_
    obtain ⟨t, ht, _⟩ := hdb model m hm
    obtain ⟨rows, fresh, pending', below, hquery, hclaim, htargets, h⟩ :=
      hc.exists_claim hr hdb hm ht hf hpending
    rw [deleteWithin]
    refine Ensures.leads_bind (hquery (some ref))
      (Ensures.leads_bind (Leads.of_eq_ok hclaim _) (Ensures.leads_bind (Leads.of_eq_ok htargets _) ?_))
    refine Ensures.bind ((ih.deleteTargets h.accepted h.pends).weaken
      (fun c' hc' => hc' ▸ h.deleting) fun _ _ => id) ?_
    rintro ⟨cascade, pending₁⟩
    by_cases hcomplete : AreComplete cascade
    · refine Ensures.of_content fun c₁ hc₁ => ?_
      obtain ⟨new, hnew, hpends, hbelow⟩ := hc₁ hcomplete
      refine (h.finish hr hdb hm ht hf hc.owned hnew ref fun destroyed removed => ?_).weaken
        (fun c' hc' => hc' ▸ hbelow) fun _ _ => id
      refine Ensures.pure fun c' hc' _ =>
        ⟨itemsOf model fresh ++ new, unclaimed_of_free h.free hnew, ?_, hc'⟩
      rwa [← List.append_assoc]
    · refine Ensures.bind (Q := fun _ _ => True) (fun _ _ _ _ _ => trivial) ?_
      rintro ⟨primary, failedRows⟩
      refine Ensures.bind (Q := fun _ _ => True) (fun _ _ _ _ _ => trivial) fun cache => ?_
      exact Ensures.pure fun c' _ hall => absurd hall.2.2.2 hcomplete

end

end TwinStore.Twin
