import TwinStore.Proofs.Claims

/-!
# Claimed records

A deletion claims what it finds before it goes on to what belongs to that, and destroys what it has
claimed when everything below is gone.  Whatever happens to the cache in the meantime, each claimed
record is in its table until then, so that it is destroyed once and without failure.

Main definitions:

- `Claiming`: the primary store while some records are claimed and some of these are gone.
- `HasTaken`: such a store when a deletion has claimed what it found.
- `Grows`: whether more is claimed and gone than before.

Main results:

- Theorem `Claiming.exists_taken`: of what is found, exactly what is not claimed yet is taken.
- Theorem `Claiming.destroyRows`: destroying claimed records fails for none.
-/

namespace TwinStore.Twin

open Primary Filter Action

/-- The primary store while records of a content are deleted: some are claimed, and some of these are
gone from the tables. -/
structure Claiming (d : Deployment) (db : Database) (claimed gone : List Item) (c : Stores) : Prop where
  planned : c.plannedDeletions = []
  stored : ∀ o ∈ claimed, db.Holds d.registry o
  owned : ∀ o ∈ gone, o ∈ claimed
  left : Database.Without d.registry db gone c.database

/-- What a deletion has before it goes on to what belongs to the records that it found. -/
structure HasTaken (d : Deployment) (db : Database) (model : String) (claimed gone : List Item)
    (pending : List Identity) (fresh : List Record) (below : List (String × Value)) (c : Stores) :
    Prop where
  pends : Pends d.registry pending (claimed ++ itemsOf model fresh)
  names : ∀ target ∈ below, Names d.registry model fresh target.1 target.2
  free : ∀ o ∈ itemsOf model fresh, o ∉ claimed
  distinct : (itemsOf model fresh).Nodup
  claiming : Claiming d db (claimed ++ itemsOf model fresh) gone c

/-- Whether more is claimed than before, and all that is claimed in addition is gone as well. -/
def Grows (r : Registry) (I : List Item → List Item → Stores → Prop) (claimed gone : List Item)
    (pending : List Identity) (c : Stores) : Prop :=
  ∃ new, (∀ o ∈ new, o ∉ claimed) ∧ Pends r pending (claimed ++ new) ∧ I (claimed ++ new) (gone ++ new) c

section

variable {d : Deployment} {db : Database} {claimed gone new : List Item} {model : String} {c : Stores}
  {rows fresh : List Record} {pending : List Identity} {below : List (String × Value)}

namespace Grows

variable {r : Registry} {I : List Item → List Item → Stores → Prop}

/-- Nothing needs to be claimed in addition. -/
theorem refl (hpending : Pends r pending claimed) (h : I claimed gone c) :
    Grows r I claimed gone pending c := by
  refine ⟨[], nofun, ?_, ?_⟩
  · rwa [List.append_nil]
  · rwa [List.append_nil, List.append_nil]

/-- What grows further has grown. -/
theorem trans (hnew : ∀ o ∈ new, o ∉ claimed) (h : Grows r I (claimed ++ new) (gone ++ new) pending c) :
    Grows r I claimed gone pending c := by
  obtain ⟨new', hnew', hpends, hI⟩ := h
  refine ⟨new ++ new', fun o ho => ?_, ?_, ?_⟩
  · rcases List.mem_append.mp ho with ho | ho
    · exact hnew o ho
    · exact fun hmem => hnew' o ho (List.mem_append_left _ hmem)
  · rwa [← List.append_assoc]
  · rwa [← List.append_assoc, ← List.append_assoc]

end Grows

namespace Claiming

/-- More may be claimed, if it is stored. -/
theorem claim (h : Claiming d db claimed gone c) (hnew : ∀ o ∈ new, db.Holds d.registry o) :
    Claiming d db (claimed ++ new) gone c where
  planned := h.planned
  stored o ho := (List.mem_append.mp ho).elim (h.stored o) (hnew o)
  owned o ho := List.mem_append_left _ (h.owned o ho)
  left := h.left

/-- Of the records that are found, exactly those are taken that are not claimed yet. -/
theorem exists_taken (hr : d.registry.IsSound) (hkeys : d.registry.IsKeyed)
    (hdb : db.IsOrderly d.registry) (h : Claiming d db claimed gone c) {m : Model}
    (hm : d.registry.table model = .ok m) {t : Table} (ht : c.database.table m = .ok t) (test : Test)
    (hpending : Pends d.registry pending claimed) :
    ∃ fresh pending' below,
      claimRows d.registry model (recordsOf t test) pending = .ok (fresh, pending') ∧
      targets d.registry model fresh = .ok below ∧
      (∀ record ∈ recordsOf t test, record ∈ fresh ↔ ⟨model, record⟩ ∉ claimed) ∧
      fresh.Sublist (recordsOf t test) ∧ HasTaken d db model claimed gone pending' fresh below c := by
  obtain ⟨t', ht', horderly⟩ := h.left.isOrderly hdb model m hm
  obtain rfl := Except.ok.inj (ht.symm.trans ht')
  have hmodel := Registry.model?_of_table hm
  have hrows : ∀ o ∈ itemsOf model (recordsOf t test), db.Holds d.registry o := by
    intro o ho
    obtain ⟨record, hrecord, rfl⟩ := List.mem_map.mp ho
    obtain ⟨row, hrow, hread, _⟩ := horderly.mem_recordsOf.mp hrecord
    exact ((h.left.holds_iff hdb _).mp ⟨m, t, row, hm, ht, hrow, hread⟩).1
  obtain ⟨fresh, pending', hclaim, hsub, hnew, hpends⟩ :=
    exists_claimRows hr hkeys hdb hrows h.stored hpending
  have hfresh : ∀ o ∈ itemsOf model fresh, db.Holds d.registry o :=
    fun o ho => hrows o ((hsub.map _).subset ho)
  obtain ⟨below, htargets, _, hnames, _⟩ := exists_targets hr hdb hfresh
  have hnodup : (recordsOf t test).Nodup :=
    horderly.nodup_recordsOf (hr.isProper hmodel) hmodel (hkeys.hasPrimary hmodel)
  refine ⟨fresh, pending', below, hclaim, htargets, hnew, hsub, hpends, hnames, fun o ho => ?_,
    (hnodup.sublist hsub).map fun a b heq => (Item.mk.inj heq).2, h.claim hfresh⟩
  obtain ⟨record, hrecord, rfl⟩ := List.mem_map.mp ho
  exact (hnew record (hsub.subset hrecord)).mp hrecord

/-- Destroying a claimed record that is not gone finds it and makes it gone. -/
theorem destroy (hr : d.registry.IsSound) (hkeys : d.registry.IsKeyed) (hdb : db.IsOrderly d.registry)
    (h : Claiming d db claimed gone c) {o : Item} (ho : o ∈ claimed) (hgone : o ∉ gone)
    (given : Option CorrelationRef) :
    ∃ db', (Primary.destroy d given o.model (.map o.record)).Gives c (.ok (some true))
        { c with database := db' } ∧ Claiming d db claimed (gone ++ [o]) { c with database := db' } := by
  obtain ⟨db', hgives, hwithout⟩ := destroy_gives_without hr hkeys (h.left.isOrderly hdb) h.planned
    ((h.left.holds_iff hdb o).mpr ⟨h.stored o ho, hgone⟩) given
  refine ⟨db', hgives, h.planned, h.stored, fun o' ho' => ?_, h.left.trans hwithout⟩
  rcases List.mem_append.mp ho' with hold | hnew
  · exact h.owned o' hold
  · rwa [List.mem_singleton.mp hnew]

/-- Destroying claimed records that are not gone makes them gone, and fails for none. -/
theorem destroyRows (hr : d.registry.IsSound) (hkeys : d.registry.IsKeyed)
    (hdb : db.IsOrderly d.registry) (h : Claiming d db claimed gone c)
    (hrows : ∀ o ∈ itemsOf model rows, o ∈ claimed ∧ o ∉ gone) (hnodup : (itemsOf model rows).Nodup)
    (ref : CorrelationRef) :
    ∃ db', (Twin.destroyRows d ref model rows).Gives c (.ok (some !rows.isEmpty, 0))
        { c with database := db' } ∧
      Claiming d db claimed (gone ++ itemsOf model rows) { c with database := db' } := by
  obtain ⟨db', heach, hclaiming⟩ : ∃ db',
      (Action.each (fun row => Primary.destroy d (some ref) model (.map row)) rows).Gives c
        (.ok (rows.map fun _ => some true)) { c with database := db' } ∧
      Claiming d db claimed (gone ++ itemsOf model rows) { c with database := db' } := by
    induction rows generalizing gone c with
    | nil =>
      refine ⟨c.database, Leads.pure _ _, ?_⟩
      rwa [itemsOf, List.map_nil, List.append_nil]
    | cons row rows ih =>
      rw [itemsOf, List.map_cons, List.nodup_cons] at hnodup
      obtain ⟨hclaimed, hgone⟩ := hrows ⟨model, row⟩ List.mem_cons_self
      obtain ⟨db₁, hdestroy, h₁⟩ := h.destroy hr hkeys hdb hclaimed hgone (some ref)
      have hafter : ∀ o ∈ itemsOf model rows, o ∈ claimed ∧ o ∉ gone ++ [⟨model, row⟩] := by
        intro o ho
        obtain ⟨hclaimed', hgone'⟩ := hrows o (List.mem_cons_of_mem _ ho)
        refine ⟨hclaimed', fun hmem => ?_⟩
        rcases List.mem_append.mp hmem with hold | hnew
        · exact hgone' hold
        · exact hnodup.1 (List.mem_singleton.mp hnew ▸ ho)
      obtain ⟨db', hrest, h'⟩ := ih h₁ hafter hnodup.2
      rw [List.append_assoc] at h'
      exact ⟨db', Leads.bind (Leads.both hdestroy hrest) (Leads.pure _ _), h'⟩
  have hfailed : ((rows.map fun _ => some true).filter Option.isNone).length = 0 := by
    simp
  have hany : (rows.map fun _ => some true).any (· == some true) = !rows.isEmpty := by
    cases rows <;> simp
  refine ⟨db', Leads.bind heach ?_, hclaiming⟩
  simp only [hfailed, hany, gt_iff_lt, lt_irrefl, if_false, decide_false, Bool.false_and]
  exact Leads.bind (Leads.pure _ _) (Leads.pure _ _)

end Claiming

/-- What was taken is still to be destroyed after the deletions below. -/
theorem unharmed_of_free {taken : List Item} (hfree : ∀ o ∈ taken, o ∉ claimed)
    (howned : ∀ o ∈ gone, o ∈ claimed) (hnew : ∀ o ∈ new, o ∉ claimed ++ taken) :
    ∀ o ∈ taken, o ∈ claimed ++ taken ++ new ∧ o ∉ gone ++ new := by
  intro o ho
  refine ⟨List.mem_append_left _ (List.mem_append_right _ ho), fun hmem => ?_⟩
  rcases List.mem_append.mp hmem with hmem | hmem
  · exact hfree o ho (howned o hmem)
  · exact hnew o hmem (List.mem_append_right _ ho)

/-- What was taken and what was claimed after that was not claimed before. -/
theorem unclaimed_of_free {taken : List Item} (hfree : ∀ o ∈ taken, o ∉ claimed)
    (hnew : ∀ o ∈ new, o ∉ claimed ++ taken) : ∀ o ∈ taken ++ new, o ∉ claimed := by
  intro o ho
  rcases List.mem_append.mp ho with ho | ho
  · exact hfree o ho
  · exact fun hmem => hnew o ho (List.mem_append_left _ hmem)

end

end TwinStore.Twin
