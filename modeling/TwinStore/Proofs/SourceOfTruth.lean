import TwinStore.Proofs.CalmCaches
import TwinStore.Proofs.DeletionTargets
import TwinStore.Proofs.Operations

/-!
# The primary store is the source of truth

What an operation that writes does to the primary store, and what it says about it, does not depend on
the cache: not on what the cache holds, and not on the commands that fail, before the operation or in
the middle of a deletion.  The cache must not end an operation, which a signalling number in a filter
makes it do if it has a member to compare.

Main definitions:

- `Answer.uncached`: an answer without what it says about the cache, at all levels.
- `deleteAmid`: a deletion during which the cache changes.
- `Operation.IsPlain`: the operations that write plain values by filters with quiet operands.
- `Writes`: a sequence of operations during which the cache changes.

Main results:

- Theorem `performAmid_parallel`: two runs of a plain operation agree but for the cache.
- Theorem `writes_ignore_cache`: so do two runs of a sequence.
-/

namespace TwinStore.Twin

open Action Cache Filter Primary

/-! ## Answers without the cache -/

mutual

/-- What became of records in the primary store. -/
def Deleted.uncached : Deleted → Deleted
  | ⟨primary, _, failedRows, cascade⟩ => ⟨primary, none, failedRows, uncachedAll cascade⟩

/-- What became of the records of several models in the primary store. -/
def uncachedAll : List (String × Deleted) → List (String × Deleted)
  | [] => []
  | (name, deleted) :: rest => (name, deleted.uncached) :: uncachedAll rest

end

/-- An answer without what it says about the cache. -/
def Answer.uncached : Answer → Answer
  | found records => found records
  | saved outcome => saved { outcome with cache := none }
  | updated outcome => updated { outcome with cache := none }
  | deleted outcome => deleted outcome.uncached

/-! ## Deletions during which the cache changes -/

/-- A deletion in which the removal from the cache is given. -/
def deleteWithinBy (clear : CorrelationRef → String → Value → Action (Option Bool)) (d : Deployment)
    (ref : CorrelationRef) :
    (depth : Nat) → String → Value → List Identity → Action (Deleted × List Identity)
  | 0, _, _, pending => return ({}, pending)
  | depth + 1, model, where_, pending => do
    match ← Primary.query d (some ref) model (.filter where_) .null [] with
    | none =>
      let cache ← clear ref model where_
      return ({ cache }, pending)
    | some rows =>
      let (fresh, pending) ← Action.ofOutcome (claimRows d.registry model rows pending)
      let below ← Action.ofOutcome (targets d.registry model fresh)
      let (cascade, pending) ← deleteTargets (deleteWithinBy clear d ref depth) below pending
      let (primary, failedRows) ← destroyRows d ref model fresh
      let cache ← clear ref model where_
      return ({ primary, cache, failedRows, cascade }, pending)

/-- A removal from the cache, before which the cache changes. -/
def clearAmid (upset : Stores → Stores) (d : Deployment) (ref : CorrelationRef) (model : String)
    (where_ : Value) : Action (Option Bool) := do
  modify upset
  Cache.delete d (some ref) model where_

/-- A deletion of the records that satisfy a filter, and of all that belong to them, during which the
cache changes before each removal from it. -/
def deleteAmid (upset : Stores → Stores) (d : Deployment) (given : Option CorrelationRef)
    (model : String) (where_ : Value) : Action Deleted :=
  Action.inScope given fun ref => do
    unless ← Action.knows d ref component model do return {}
    let depth := (← get).database.size + 1
    return (← deleteWithinBy (clearAmid upset d) d ref depth model where_ []).1

theorem deleteWithinBy_delete (d : Deployment) (ref : CorrelationRef) (depth : Nat) :
    deleteWithinBy (clearAmid id d) d ref depth = deleteWithin d ref depth := by
  induction depth with
  | zero => rfl
  | succ depth ih =>
    funext model where_ pending
    rw [deleteWithinBy, deleteWithin, ih]
    rfl

/-- Where nothing else happens to the cache, the deletion is that of both stores. -/
theorem deleteAmid_id (d : Deployment) (given : Option CorrelationRef) (model : String)
    (where_ : Value) : deleteAmid id d given model where_ = delete d given model where_ := by
  simp only [deleteAmid, deleteWithinBy_delete]
  rfl

/-- What an operation does while the cache changes. -/
def Operation.performAmid (upset : Stores → Stores) (d : Deployment) (given : Option CorrelationRef) :
    Operation → Action Answer
  | delete model where_ => .deleted <$> deleteAmid upset d given model where_
  | operation => operation.perform d given

theorem Operation.performAmid_id (d : Deployment) (given : Option CorrelationRef)
    (operation : Operation) : operation.performAmid id d given = operation.perform d given := by
  cases operation with
  | delete model where_ => rw [performAmid, perform, deleteAmid_id]
  | _ => rfl

/-! ## Common primary stores -/

/-- A calm cache beside tables that belong to their models. -/
def IsQuiet (d : Deployment) (h : Holding) : Prop :=
  h.IsCalm d ∧ h.database.IsOwn d.registry

/-- What spares the primary store leaves tables with their models. -/
theorem spares_isQuiet {d : Deployment} {α : Type} {x : Action α} {verdict : Outcome Unit}
    (hx : Spares (Holding.IsCalm d) x verdict) : Spares (IsQuiet d) x verdict := by
  intro h hquiet
  refine (hx h hquiet.1).weaken (fun _ => id) ?_
  rintro o c ⟨hverdict, hcalm, hprimary⟩
  have hdatabase : c.database = h.database := congrArg Prod.fst hprimary
  exact ⟨hverdict, ⟨hcalm, hdatabase ▸ hquiet.2⟩, hprimary⟩

/-- A statement that leaves tables with their models leaves the cache as it is. -/
theorem IsQuiet.after {d : Deployment} {h : Holding} (hquiet : IsQuiet d h) {db : Database}
    (hdb : db.IsOwn d.registry) : IsQuiet d { h with database := db } :=
  ⟨⟨hquiet.1.answers, hquiet.1.tame⟩, hdb⟩

/-- Changes of the cache that leave it calm and the primary store alone. -/
structure Upsets (d : Deployment) (s s' : Stores) : Prop where
  calm : s.holding.IsCalm d → s'.holding.IsCalm d
  primary : s'.holding.primary = s.holding.primary

theorem Upsets.isQuiet {d : Deployment} {s s' : Stores} (h : Upsets d s s')
    (hs : IsQuiet d s.holding) : IsQuiet d s'.holding := by
  have hdatabase : s'.holding.database = s.holding.database := congrArg Prod.fst h.primary
  exact ⟨h.calm hs.1, hdatabase ▸ hs.2⟩

/-! ## Two runs of an operation -/

section

variable {d : Deployment} {model : String} {given given' : Option CorrelationRef}

/-- Saving the same records twice agrees but for the cache. -/
theorem save_parallel (hr : d.registry.IsSound) (hexact : d.registry.IsExact) {records : Value}
    (hcalendar : ∀ items, (severalOf records).items = .ok items → ∀ item ∈ items, KeepsCalendar item) :
    Parallel (IsQuiet d) (fun a b => (Answer.saved a).uncached = (Answer.saved b).uncached)
      (save d given model records) (save d given' model records) := by
  refine Parallel.inScope fun ref ref' => Parallel.knows_bind _ _ _ _ _ fun known hknown =>
    Parallel.ite (fun _ => ?_) fun _ => Parallel.pure rfl
  refine Parallel.ite (fun htruthy => ?_) fun _ =>
    Parallel.report_left _ _ _ _ _ (Parallel.report_right _ _ _ _ _ (Parallel.pure rfl))
  have hinserted : Parallel (IsQuiet d) (fun a b => a = b ∧ ∀ stored, a = some stored →
      ∀ record ∈ stored, IsFromRow (d.registry.attributeTypes model) record)
      (insertAll d ref model (severalOf records)) (insertAll d ref' model (severalOf records)) := by
    cases hitems : (severalOf records).items with
    | error fault =>
      rw [insertAll, insertAll, hitems]
      exact Parallel.bind (V := fun _ _ => False) (Parallel.ofOutcome (.error fault)) fun _ _ h => h.elim
    | ok items =>
      refine Parallel.of_table (fun db m => insertion d m model (severalOf records) items db)
        (fun h => insertAll_ends d ref model htruthy hitems)
        (fun h => insertAll_ends d ref' model htruthy hitems) ?_
      intro h m db stored hquiet htable hstored
      obtain ⟨hdb, hrecords⟩ := isFromRow_of_insertion hr htable (hexact model m htable) hitems
        (hcalendar items hitems) hquiet.2 hstored
      rw [Registry.attributeTypes_of_table htable]
      exact ⟨hquiet.after hdb, hrecords⟩
  refine Parallel.bind hinserted fun stored stored' hsame => ?_
  obtain ⟨rfl, hrecords⟩ := hsame
  cases stored with
  | none => exact Parallel.pure rfl
  | some stored =>
    have hcreated := @create_spares d model stored (hrecords stored rfl)
    refine Parallel.bind (Parallel.of_spares (spares_isQuiet (hcreated (some ref)))
      (spares_isQuiet (hcreated (some ref')))) fun cache cache' _ => ?_
    have hsaved : Parallel (IsQuiet d)
        (fun a b => (Answer.saved a).uncached = (Answer.saved b).uncached)
        (pure { primary := some true, cache := cache, records := some stored })
        (pure { primary := some true, cache := cache', records := some stored }) :=
      Parallel.pure rfl
    -- The cache may have failed in one run only, which is then reported in that run only.
    refine Parallel.ite_left (fun _ => Parallel.report_left _ _ _ _ _ ?_) fun _ => ?_
    all_goals
      exact Parallel.ite_right (fun _ => Parallel.report_right _ _ _ _ _ hsaved) fun _ => hsaved

/-- Applying the same update twice agrees but for the cache. -/
theorem update_parallel (hr : d.registry.IsSound) (hexact : d.registry.IsExact) {spec : Entries Value}
    (hspec : AreTaken (d.registry.attributeTypes model) spec) {where_ : Value}
    (hquiet : AsksQuietly where_) :
    Parallel (IsQuiet d) (fun a b => (Answer.updated a).uncached = (Answer.updated b).uncached)
      (update d given model (.map spec) where_) (update d given' model (.map spec) where_) := by
  refine Parallel.inScope fun ref ref' => Parallel.knows_bind _ _ _ _ _ fun known hknown =>
    Parallel.ite (fun _ => ?_) fun _ => Parallel.pure rfl
  have hchanged : Parallel (IsQuiet d) (fun a b => a = b ∧ ∀ r, a = some r → True)
      (Primary.update d (some ref) model (.map spec) where_)
      (Primary.update d (some ref') model (.map spec) where_) := by
    refine Parallel.of_table (fun db m => changing m (.map spec) where_ db)
      (fun h => Primary.update_ends d (some ref) model (.map spec) where_)
      (fun h => Primary.update_ends d (some ref') model (.map spec) where_) ?_
    intro h m db counts hcalm htable hdone
    exact ⟨hcalm.after (isOwn_changing hr htable hcalm.2 hdone), trivial⟩
  refine Parallel.bind hchanged ?_
  rintro primary _ ⟨rfl, -⟩
  obtain ⟨verdict, hspares⟩ := update_spares hr hexact model hspec hquiet
  refine Parallel.bind (Parallel.of_spares (spares_isQuiet (hspares (some ref)))
    (spares_isQuiet (hspares (some ref')))) fun cache cache' _ => Parallel.pure rfl

/-! ## Two runs of a deletion -/

/-- What a row of exact types gives is quiet. -/
theorem isQuiet_valueOf {type : AttributeType} {cell : Cell} {v : Value}
    (hexact : type.isExact = true) (h : valueOf type cell = .ok v) : v.IsQuiet := by
  have hraw : (rawValue cell).IsQuiet := by cases cell <;> trivial
  cases Reads.of_valueOf h with
  | str | text | int => exact hraw
  | null | bool | date | instant | uuid => trivial
  | _ => cases hexact

/-- Records whose fields are quiet. -/
def AreQuiet (rows : List Record) : Prop := ∀ row ∈ rows, ∀ e ∈ row, e.2.IsQuiet

/-- Records that are selected from columns of exact types are quiet. -/
theorem areQuiet_of_selection {m : Model} (hexact : ∀ a ∈ m.attributes, a.type.isExact = true)
    {wanted : Selection} {db db' : Database} {rows : List Record}
    (h : selection d m wanted [] db = .ok (db', rows)) : db' = db ∧ AreQuiet rows := by
  obtain ⟨clause, _, h⟩ := Outcome.bind_eq_ok.mp h
  obtain ⟨selected, hselect, heq⟩ := Outcome.bind_eq_ok.mp h
  obtain ⟨rfl, rfl⟩ := Prod.mk.inj (Except.ok.inj heq)
  refine ⟨rfl, fun row hrow e he => ?_⟩
  rw [selectWith_nil, Database.select] at hselect
  obtain ⟨_, _, hselect⟩ := Outcome.bind_eq_ok.mp hselect
  obtain ⟨_, _, hrecord⟩ := Outcome.exists_of_mem_mapM hselect hrow
  obtain ⟨a, ha, hfield⟩ := Outcome.exists_of_mem_mapM hrecord he
  obtain ⟨v, hvalue, heq⟩ := Outcome.bind_eq_ok.mp hfield
  obtain rfl := Except.ok.inj heq
  exact isQuiet_valueOf (hexact a ha) hvalue

/-- The filters for the records that belong to quiet ones have quiet operands. -/
theorem asksQuietly_of_targets (hr : d.registry.IsSound) {rows : List Record} (hrows : AreQuiet rows)
    {below : List (String × Value)} (h : targets d.registry model rows = .ok below) :
    ∀ target ∈ below, AsksQuietly target.2 := by
  intro target htarget c hc v hv
  obtain ⟨e, _, _, _, keys, hkeys, _, hmentions⟩ := exists_of_mem_targets hr h htarget
  rw [hmentions] at hc
  obtain rfl := List.mem_singleton.mp hc
  obtain ⟨row, hrow, rfl⟩ := hkeys v hv
  rw [Record.field]
  cases hget : Entries.get? row e.2.thisKey with
  | none => trivial
  | some v => exact hrows row hrow _ (Entries.mem_of_get? hget)

/-- Deleting the record of a row twice agrees. -/
theorem destroy_parallel (hr : d.registry.IsSound) (row : Value) :
    Parallel (IsQuiet d) Eq (destroy d given model row) (destroy d given' model row) := by
  refine Parallel.get_bind fun s t hsame => ?_
  have hplanned : s.plannedDeletions = t.plannedDeletions := congrArg Prod.snd hsame
  rw [hplanned]
  cases t.plannedDeletions with
  | cons outcome rest =>
    refine Parallel.modify_bind (fun s t hs ht hsame => ?_) (Parallel.pure rfl)
    have hdatabase : s.database = t.database := congrArg Prod.fst hsame
    exact ⟨⟨⟨hs.1.answers, hs.1.tame⟩, hs.2⟩, ⟨⟨ht.1.answers, ht.1.tame⟩, ht.2⟩,
      Prod.ext hdatabase rfl⟩
  | nil =>
    have hdeleted : Parallel (IsQuiet d) (fun a b => a = b ∧ ∀ r, a = some r → True)
        (deleteRow d given model row) (deleteRow d given' model row) := by
      refine Parallel.of_table (fun db m => deletion m row db)
        (fun h => deleteRow_ends d given model row) (fun h => deleteRow_ends d given' model row) ?_
      intro h m db found hcalm htable hdone
      exact ⟨hcalm.after (isOwn_deletion hr htable hcalm.2 hdone), trivial⟩
    exact hdeleted.weaken fun a b hab => hab.1

/-- Deleting rows twice agrees. -/
theorem destroyRows_parallel (hr : d.registry.IsSound) (ref ref' : CorrelationRef)
    (rows : List Record) :
    Parallel (IsQuiet d) Eq (destroyRows d ref model rows) (destroyRows d ref' model rows) := by
  refine Parallel.bind (Parallel.each fun row _ => destroy_parallel hr (.map row)) ?_
  intro outcomes outcomes' hsame
  obtain rfl := List.forall₂_eq_eq_eq ▸ hsame
  refine Parallel.ite (fun _ => Parallel.report_left _ _ _ _ _ (Parallel.report_right _ _ _ _ _ ?_))
    fun _ => ?_
  all_goals
    exact Parallel.ite (fun _ => Parallel.pure rfl) fun _ => Parallel.pure rfl

/-- Whether deletions agree but for the cache, and tell the same to be in progress. -/
def SameDeletion (p q : Deleted × List Identity) : Prop :=
  p.1.uncached = q.1.uncached ∧ p.2 = q.2

/-- One deletion after another agrees if each does. -/
theorem deleteTargets_parallel
    {deletion deletion' : String → Value → List Identity → Action (Deleted × List Identity)}
    {below : List (String × Value)} (h : ∀ target ∈ below, ∀ pending,
      Parallel (IsQuiet d) SameDeletion (deletion target.1 target.2 pending)
        (deletion' target.1 target.2 pending)) (pending : List Identity) :
    Parallel (IsQuiet d) (fun p q => uncachedAll p.1 = uncachedAll q.1 ∧ p.2 = q.2)
      (deleteTargets deletion below pending) (deleteTargets deletion' below pending) := by
  induction below generalizing pending with
  | nil => exact Parallel.pure ⟨rfl, rfl⟩
  | cons target below ih =>
    obtain ⟨name, where_⟩ := target
    refine Parallel.bind (h _ List.mem_cons_self pending) ?_
    rintro ⟨result, pending'⟩ ⟨result', _⟩ ⟨hresult, rfl⟩
    refine Parallel.bind (ih (fun target htarget => h target (List.mem_cons_of_mem _ htarget)) pending') ?_
    rintro ⟨results, pending''⟩ ⟨results', _⟩ ⟨hresults, rfl⟩
    refine Parallel.pure ⟨?_, rfl⟩
    show (name, result.uncached) :: uncachedAll results = (name, result'.uncached) :: uncachedAll results'
    rw [hresult, hresults]

/-- A removal from a cache that changes before it spares the primary store. -/
theorem clearAmid_parallel (hr : d.registry.IsSound) (hexact : d.registry.IsExact)
    {upset upset' : Stores → Stores} (hupset : ∀ s, Upsets d s (upset s))
    (hupset' : ∀ s, Upsets d s (upset' s)) (ref ref' : CorrelationRef) {where_ : Value}
    (hquiet : AsksQuietly where_) :
    Parallel (IsQuiet d) (fun _ _ => True) (clearAmid upset d ref model where_)
      (clearAmid upset' d ref' model where_) := by
  obtain ⟨verdict, hspares⟩ := delete_spares hr hexact model hquiet
  refine Parallel.modify_bind (fun s t hs ht hsame => ?_) (Parallel.of_spares
    (spares_isQuiet (hspares (some ref))) (spares_isQuiet (hspares (some ref'))))
  refine ⟨(hupset s).isQuiet hs, (hupset' t).isQuiet ht, ?_⟩
  rw [(hupset s).primary, (hupset' t).primary, hsame]

/-- Deleting the same records twice agrees but for the cache, however the cache changes meanwhile.  The
induction is on the depth; records that are selected have quiet keys, so the filters below have quiet
operands again. -/
theorem deleteWithinBy_parallel (hr : d.registry.IsSound) (hexact : d.registry.IsExact)
    {upset upset' : Stores → Stores} (hupset : ∀ s, Upsets d s (upset s))
    (hupset' : ∀ s, Upsets d s (upset' s)) (ref ref' : CorrelationRef) (depth : Nat) (model : String)
    {where_ : Value} (hquiet : AsksQuietly where_) (pending : List Identity) :
    Parallel (IsQuiet d) SameDeletion
      (deleteWithinBy (clearAmid upset d) d ref depth model where_ pending)
      (deleteWithinBy (clearAmid upset' d) d ref' depth model where_ pending) := by
  induction depth generalizing model where_ pending with
  | zero => exact Parallel.pure ⟨rfl, rfl⟩
  | succ depth ih =>
    have hclear := @clearAmid_parallel d model hr hexact upset upset' hupset hupset' ref ref' where_
      hquiet
    have hqueried : Parallel (IsQuiet d) (fun a b => a = b ∧ ∀ rows, a = some rows → AreQuiet rows)
        (query d (some ref) model (.filter where_) .null [])
        (query d (some ref') model (.filter where_) .null []) := by
      refine Parallel.of_table (fun db m => selection d m (.filter where_) [] db)
        (fun h => query_ends d (some ref) model (.filter where_) [])
        (fun h => query_ends d (some ref') model (.filter where_) []) ?_
      intro h m db rows hcalm htable hselected
      obtain ⟨rfl, hrows⟩ := areQuiet_of_selection (hexact model m htable) hselected
      exact ⟨hcalm, hrows⟩
    refine Parallel.bind hqueried ?_
    rintro rows _ ⟨rfl, hrows⟩
    cases rows with
    | none => exact Parallel.bind hclear fun cache cache' _ => Parallel.pure ⟨rfl, rfl⟩
    | some rows =>
      have hclaimed : Parallel (IsQuiet d) (fun p q => p = q ∧ AreQuiet p.1)
          (Action.ofOutcome (claimRows d.registry model rows pending))
          (Action.ofOutcome (claimRows d.registry model rows pending)) := by
        refine Parallel.ofOutcome (Agree.refl fun p hp => ⟨rfl, fun row hrow => ?_⟩)
        exact hrows rows rfl row (mem_of_mem_claimRows hp hrow)
      refine Parallel.bind hclaimed ?_
      rintro ⟨fresh, pending'⟩ _ ⟨rfl, hfresh⟩
      have htargets : Parallel (IsQuiet d) (fun below below' => below = below' ∧
          ∀ target ∈ below, AsksQuietly target.2)
          (Action.ofOutcome (targets d.registry model fresh))
          (Action.ofOutcome (targets d.registry model fresh)) :=
        Parallel.ofOutcome (Agree.refl fun below hbelow => ⟨rfl, asksQuietly_of_targets hr hfresh hbelow⟩)
      refine Parallel.bind htargets ?_
      rintro below _ ⟨rfl, hbelow⟩
      refine Parallel.bind (deleteTargets_parallel (fun target htarget pending =>
        ih target.1 (hbelow target htarget) pending) pending') ?_
      rintro ⟨cascade, pending''⟩ ⟨cascade', _⟩ ⟨hcascade, rfl⟩
      refine Parallel.bind (destroyRows_parallel hr ref ref' fresh) ?_
      rintro ⟨primary, failedRows⟩ _ rfl
      refine Parallel.bind hclear fun cache cache' _ => Parallel.pure ⟨?_, rfl⟩
      rw [Deleted.uncached, Deleted.uncached, hcascade]

/-- Deleting the same records twice agrees but for the cache. -/
theorem deleteAmid_parallel (hr : d.registry.IsSound) (hexact : d.registry.IsExact)
    {upset upset' : Stores → Stores} (hupset : ∀ s, Upsets d s (upset s))
    (hupset' : ∀ s, Upsets d s (upset' s)) {where_ : Value} (hquiet : AsksQuietly where_) :
    Parallel (IsQuiet d) (fun a b => (Answer.deleted a).uncached = (Answer.deleted b).uncached)
      (deleteAmid upset d given model where_) (deleteAmid upset' d given' model where_) := by
  refine Parallel.inScope fun ref ref' => Parallel.knows_bind _ _ _ _ _ fun known hknown =>
    Parallel.ite (fun _ => ?_) fun _ => Parallel.pure rfl
  refine Parallel.get_bind fun s t hsame => ?_
  have hdatabase : s.database = t.database := congrArg Prod.fst hsame
  rw [hdatabase]
  refine Parallel.bind (deleteWithinBy_parallel hr hexact hupset hupset' ref ref'
    (t.database.size + 1) model hquiet []) fun p q hpq => Parallel.pure ?_
  exact congrArg Answer.deleted hpq.1

end

/-! ## Runs -/

/-- Whether an operation writes plain values by a filter with quiet operands: records without times
outside the calendar, and new values of the types of their fields. -/
def Operation.IsPlain (r : Registry) : Operation → Prop
  | read _ _ _ _ => False
  | save _ records => ∀ items, (severalOf records).items = .ok items →
    ∀ item ∈ items, KeepsCalendar item
  | update model spec where_ => ∃ fields, spec = .map fields ∧
    AreTaken (r.attributeTypes model) fields ∧ AsksQuietly where_
  | delete _ where_ => AsksQuietly where_

/-- Two runs of a plain operation agree but for the cache, however the cache changes meanwhile. -/
theorem performAmid_parallel {d : Deployment} (hr : d.registry.IsSound) (hexact : d.registry.IsExact)
    {operation : Operation} (hplain : operation.IsPlain d.registry) {upset upset' : Stores → Stores}
    (hupset : ∀ s, Upsets d s (upset s)) (hupset' : ∀ s, Upsets d s (upset' s))
    (given given' : Option CorrelationRef) :
    Parallel (IsQuiet d) (fun a b => a.uncached = b.uncached)
      (operation.performAmid upset d given) (operation.performAmid upset' d given') := by
  cases operation with
  | read => exact hplain.elim
  | save model records => exact (save_parallel hr hexact hplain).map fun _ _ => id
  | update model spec where_ =>
    obtain ⟨fields, rfl, hspec, hquiet⟩ := hplain
    exact (update_parallel hr hexact hspec hquiet).map fun _ _ => id
  | delete model where_ =>
    exact (deleteAmid_parallel hr hexact hupset hupset' hplain).map fun _ _ => id

/-- A sequence of operations with their outcomes.  The cache may change before each of them and during
deletions. -/
inductive Writes (d : Deployment) : List Operation → Stores → List (Outcome Answer) → Stores → Prop
  | none (s : Stores) : Writes d [] s [] s
  | step {operation : Operation} {operations : List Operation} {s s₁ s₂ s' : Stores}
      {upset : Stores → Stores} {given : Option CorrelationRef} {o : Outcome Answer}
      {os : List (Outcome Answer)} (hbefore : Upsets d s s₁) (hduring : ∀ s, Upsets d s (upset s))
      (hrun : runFrom (operation.performAmid upset d given) s₁ = (o, s₂))
      (hrest : Writes d operations s₂ os s') : Writes d (operation :: operations) s (o :: os) s'

theorem Upsets.refl (d : Deployment) (s : Stores) : Upsets d s s := ⟨id, rfl⟩

/-- Operations that nothing disturbs are such a sequence. -/
theorem Writes.of_perform {d : Deployment} {operation : Operation} {operations : List Operation}
    {s s₁ s' : Stores} {given : Option CorrelationRef} {o : Outcome Answer}
    {os : List (Outcome Answer)} (hrun : runFrom (operation.perform d given) s = (o, s₁))
    (hrest : Writes d operations s₁ os s') : Writes d (operation :: operations) s (o :: os) s' :=
  .step (.refl d s) (fun s => .refl d s) (operation.performAmid_id d given ▸ hrun) hrest

/-- Operations that nothing disturbs can be run. -/
theorem exists_writes (d : Deployment) (operations : List Operation) (s : Stores) :
    ∃ os s', Writes d operations s os s' := by
  induction operations generalizing s with
  | nil => exact ⟨[], s, .none s⟩
  | cons operation operations ih =>
    obtain ⟨os, s', hrest⟩ := ih (runFrom (operation.perform d none) s).2
    exact ⟨_, s', .of_perform Prod.mk.eta.symm hrest⟩

/-- Two runs of a sequence of plain operations from one primary store leave one primary store and give
the same answers but for the cache. -/
theorem writes_ignore_cache {d : Deployment} (hd : d.registry.Built) (hexact : d.registry.IsExact)
    {operations : List Operation} (hplain : ∀ op ∈ operations, op.IsPlain d.registry)
    {s t s' t' : Stores} {os os' : List (Outcome Answer)} (hs : s.holding.IsCalm d)
    (ht : t.holding.IsCalm d) (hown : s.database.IsOwn d.registry)
    (hsame : s.holding.primary = t.holding.primary) (hrun : Writes d operations s os s')
    (hrun' : Writes d operations t os' t') :
    s'.holding.primary = t'.holding.primary ∧
      os.map (·.map Answer.uncached) = os'.map (·.map Answer.uncached) := by
  induction hrun generalizing t os' with
  | none s =>
    cases hrun'
    exact ⟨hsame, rfl⟩
  | @step operation operations s s₁ s₂ s' upset given o os hbefore hduring hfirst _ ih =>
    cases hrun' with
    | @step _ _ _ t₁ t₂ _ upset' given' o' os' hbefore' hduring' hfirst' hrest' =>
      have hdatabase : s.database = t.database := congrArg Prod.fst hsame
      have hquiet : IsQuiet d s.holding := ⟨hs, hown⟩
      have hown' : t.database.IsOwn d.registry := hdatabase ▸ hown
      have hquiet' : IsQuiet d t.holding := ⟨ht, hown'⟩
      have hparallel := performAmid_parallel hd.isSound hexact (hplain _ List.mem_cons_self) hduring
        hduring' given given' s₁ t₁ (hbefore.isQuiet hquiet) (hbefore'.isQuiet hquiet')
        (hbefore.primary.trans (hsame.trans hbefore'.primary.symm))
      rw [hfirst, hfirst'] at hparallel
      obtain ⟨hagree, hs₂, ht₂, hsame₂⟩ := hparallel
      obtain ⟨hleft, hanswers⟩ := ih (fun op hop => hplain op (List.mem_cons_of_mem _ hop)) hs₂.1
        ht₂.1 hs₂.2 hsame₂ hrest'
      refine ⟨hleft, ?_⟩
      rw [List.map_cons, List.map_cons, hagree.map_eq fun _ _ => id, hanswers]

/-! ## A stale cache -/

/-- No rows, beside a cache that holds an item and of which the given commands fail. -/
def staleItem (outages : Entries Outage) : Stores :=
  { noItems with server := (cachedItem outages).server }

/-- Items are saved, changed and deleted. -/
def itemWrites : List Operation :=
  [.save "item" (.list twoItems), .update "item" toSix (.map [("n", .map [("$lt", .int 6)])]),
    .delete "item" (.map [("n", .int 6)])]

/-- The filter for items whose number is a signalling one. -/
def signalledItem : Value := .map [("n", .decimal (.nan false true 0))]

theorem isExact_countedItems : countedItems.registry.IsExact := by
  intro name m hm
  have hmem : (name, m) ∈ countedItems.registry.models :=
    Entries.mem_of_get? (Registry.model?_of_table hm)
  obtain ⟨-, rfl⟩ := Prod.mk.inj (List.mem_singleton.mp hmem)
  decide

theorem isCalm_noItems : noItems.holding.IsCalm countedItems where
  answers := nofun
  tame := nofun

/-- The member of an item is tame. -/
theorem isTame_item {raw : String} (h : encode [("id", .int 1), ("n", .int 5)] = .ok raw) :
    IsTame [("id", .int), ("n", .int)] raw := by
  refine isTame_of_encode (by decide) ?_ h
  rw [List.forall_mem_cons, List.forall_mem_singleton]
  exact ⟨True.intro, True.intro⟩

theorem isCalm_staleItem : (staleItem [("sadd", .refused)]).holding.IsCalm countedItems where
  answers := by
    intro command
    cases command <;> decide
  tame := by
    intro name hname raw hraw
    obtain rfl : name = "item" := List.mem_singleton.mp (Entries.has_iff.mp hname)
    have hmember : raw = memberText [("id", .int 1), ("n", .int 5)] := List.mem_singleton.mp hraw
    have hencode : encode [("id", .int 1), ("n", .int 5)] =
      .ok (memberText [("id", .int 1), ("n", .int 5)]) := by cbv
    rw [← hmember] at hencode
    exact isTame_item hencode

theorem isPlain_itemWrites : ∀ op ∈ itemWrites, op.IsPlain countedItems.registry := by
  have hquiet {where_ : Value} {field : String} {op : Operator} {n : Int}
      (hop : op.takesList = false) (hmentions : mentions where_ = [⟨field, op, .int n⟩]) :
      AsksQuietly where_ := by
    intro c hc v hv
    rw [hmentions] at hc
    obtain rfl := List.mem_singleton.mp hc
    unfold Requirement.operands at hv
    rw [hop, if_neg Bool.false_ne_true] at hv
    split_ifs at hv
    · cases hv
    · obtain rfl := List.mem_singleton.mp hv
      trivial
  rw [itemWrites, List.forall_mem_cons, List.forall_mem_cons, List.forall_mem_singleton]
  refine ⟨?_, ⟨[("n", .int 6)], rfl, ?_, hquiet rfl (by cbv)⟩, hquiet rfl (by cbv)⟩
  · intro items hitems item hitem fields hfields e he
    obtain rfl : twoItems = items := Except.ok.inj hitems
    rcases List.mem_pair.mp hitem with rfl | rfl
    all_goals
      obtain rfl := Except.ok.inj hfields
      obtain rfl := List.mem_singleton.mp he
      trivial
  · intro e he type htype
    obtain rfl := List.mem_singleton.mp he
    obtain rfl : AttributeType.int = type := Option.some.inj htype
    exact .int (by decide)

/-- Items are written in the same way beside an empty cache and beside a stale one that cannot be
written. -/
theorem item_writes_ignore_cache :
    (∀ op ∈ itemWrites, op.IsPlain countedItems.registry) ∧
    noItems.holding.primary = (staleItem [("sadd", .refused)]).holding.primary ∧
    ∃ os os' s' t', Writes countedItems itemWrites noItems os s' ∧
      Writes countedItems itemWrites (staleItem [("sadd", .refused)]) os' t' ∧
      s'.holding.primary = t'.holding.primary ∧
      os.map (·.map Answer.uncached) = os'.map (·.map Answer.uncached) := by
  obtain ⟨os, s', hrun⟩ := exists_writes countedItems itemWrites noItems
  obtain ⟨os', t', hrun'⟩ := exists_writes countedItems itemWrites (staleItem [("sadd", .refused)])
  have hown : noItems.database.IsOwn countedItems.registry := by
    intro name m t hm ht
    have hmem : (name, m) ∈ countedItems.registry.models :=
      Entries.mem_of_get? (Registry.model?_of_table hm)
    obtain ⟨rfl, rfl⟩ := Prod.mk.inj (List.mem_singleton.mp hmem)
    obtain rfl := Except.ok.inj ht
    rfl
  exact ⟨isPlain_itemWrites, rfl, os, os', s', t', hrun, hrun', writes_ignore_cache built_countedItems
    isExact_countedItems isPlain_itemWrites isCalm_noItems isCalm_staleItem hown rfl hrun hrun'⟩

/-- A signalling number in a filter ends an update where the cache has an item to compare it with, and
does not where it has none. -/
theorem signalled_update_depends_on_cache :
    noItems.holding.primary = (staleItem []).holding.primary ∧
    (runFrom (update countedItems none "item" toSix signalledItem) noItems).1 =
      .ok ⟨none, some ⟨0, 0, false⟩⟩ ∧
    (runFrom (update countedItems none "item" toSix signalledItem) (staleItem [])).1 =
      .error .signaling := by
  refine ⟨rfl, ?_, ?_⟩
  · rw [update, runFrom_inScope]
    cbv
  · rw [update, runFrom_inScope]
    cbv

end TwinStore.Twin
