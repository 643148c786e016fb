import TwinStore.Proofs.CacheEndings
import TwinStore.Proofs.PrimaryEffects
import TwinStore.Twin.Deletion

/-!
# How operations of the primary store and of both stores end

An operation of the primary store is one statement, which changes the database or fails.  An operation
on both stores goes on to the cache, whose part cannot undo what the statement did.

Main definitions:

- `Primary.TableEnd`: the outcomes of an operation on a table.
- `Twin.insertion`: the statement that inserts one record or several.
- `Twin.SaveEnd`: the outcomes of saving records in both stores.

Main results:

- Theorem `Primary.create_ends`, `Primary.update_ends`, `Primary.destroy_ends`, `Primary.query_ends`:
  all outcomes of the operations of the primary store.
- Theorem `Twin.save_ends`: all outcomes of saving.
-/

namespace TwinStore

open Action Primary

/-- What stores hold after a statement: a failure changes nothing. -/
def Holding.after {α : Type} (h : Holding) (x : Outcome (Database × α)) : Holding :=
  match x with
  | .ok (database, _) => { h with database }
  | .error _ => h

theorem Stores.holding_after {α : Type} (c : Stores) (x : Outcome (Database × α)) :
    (c.after x).holding = c.holding.after x := by
  cases x <;> rfl

/-- An operation of which is known what it gives on each content. -/
theorem Action.Ends.of_gives {α : Type} {x : Action α} {h : Holding}
    {Q : Outcome α → Holding → Prop} {o : Stores → Outcome α} {after : Stores → Stores}
    (hx : ∀ c : Stores, c.holding = h → x.Gives c (o c) (after c))
    (hQ : ∀ c : Stores, c.holding = h → Q (o c) (after c).holding) : Ends (· = h) x Q := by
  intro s hs
  obtain ⟨s', hrun, hs'⟩ := hx s.content hs s rfl
  have hafter : s'.holding = (after s.content).holding := by
    rw [← hs']
    rfl
  rw [hrun, hafter]
  exact hQ s.content hs

namespace Primary

variable {α : Type} {d : Deployment} {model : String} {h : Holding}

/-! ## Operations on tables -/

/-- The outcomes of an operation on the table of a model that is one statement. -/
inductive TableEnd (d : Deployment) (model : String) (h : Holding)
    (x : Model → Outcome (Database × α)) : Outcome (Option α) → Holding → Prop where
  | unknown (isUnknown : d.registry.hasModel model = false) : TableEnd d model h x (.ok none) h
  | untabled {fault : Fault} (isKnown : d.registry.hasModel model = true)
    (table : d.registry.table model = .error fault) : TableEnd d model h x (.error fault) h
  | done {m : Model} {database : Database} {a : α} (table : d.registry.table model = .ok m)
    (statement : x m = .ok (database, a)) :
    TableEnd d model h x (.ok (some a)) { h with database }
  | refused {m : Model} {fault : Fault} (table : d.registry.table model = .ok m)
    (statement : x m = .error fault) (isAnswered : (failureText? fault).isSome) :
    TableEnd d model h x (.ok none) h
  | failed {m : Model} {fault : Fault} (table : d.registry.table model = .ok m)
    (statement : x m = .error fault) (isUnanswered : failureText? fault = none) :
    TableEnd d model h x (.error fault) h

theorem onTable_ends {given : Option CorrelationRef}
    {body : CorrelationRef → Model → Action (Option α)} {x : Model → Outcome (Database × α)}
    (hx : ∀ m, d.registry.table model = .ok m → ∀ c : Stores, c.holding = h →
      (onTable d given model body).Gives c (answered ((x m).map (·.2))) (c.after (x m))) :
    Ends (· = h) (onTable d given model body) (TableEnd d model h x) := by
  cases htable : d.registry.table model with
  | ok m =>
    refine Ends.of_gives (hx m htable) fun c hc => ?_
    rw [Stores.holding_after, hc]
    cases hstatement : x m with
    | ok result => exact .done htable hstatement
    | error fault =>
      simp only [Except.map, answered, Holding.after]
      split_ifs with hanswered
      · exact .refused htable hstatement hanswered
      · exact .failed htable hstatement (by simpa using hanswered)
  | error fault =>
    refine Ends.inScope fun ref => Ends.knows_bind _ _ _ _ fun known hknown => Ends.ite (fun h => ?_)
      fun hunknown => Ends.pure ?_
    · rw [htable]
      refine Ends.ofOutcome_bind (fun _ hok => by cases hok) ?_
      rintro _ ⟨rfl⟩ _ rfl
      exact .untabled (hknown.trans h) htable
    · rintro _ rfl
      exact .unknown (hknown.trans (Bool.eq_false_iff.mpr hunknown))

theorem create_ends (d : Deployment) (given : Option CorrelationRef) (model : String)
    (record : Value) : Ends (· = h) (create d given model record)
      (TableEnd d model h fun m => creation d m model record h.database) := by
  refine onTable_ends fun m hm c hc => ?_
  subst hc
  exact create_gives hm given record c

theorem createAll_ends (d : Deployment) (given : Option CorrelationRef) (model : String)
    {records : Value} (hrecords : records.isTruthy = true) :
    Ends (· = h) (createAll d given model records)
      (TableEnd d model h fun m => creations d m model records h.database) := by
  refine onTable_ends fun m hm c hc => ?_
  subst hc
  exact createAll_gives hm given hrecords c

theorem update_ends (d : Deployment) (given : Option CorrelationRef) (model : String)
    (spec where_ : Value) : Ends (· = h) (update d given model spec where_)
      (TableEnd d model h fun m => changing m spec where_ h.database) := by
  refine onTable_ends fun m hm c hc => ?_
  subst hc
  exact update_gives hm given spec where_ c

theorem deleteRow_ends (d : Deployment) (given : Option CorrelationRef) (model : String)
    (row : Value) : Ends (· = h) (deleteRow d given model row)
      (TableEnd d model h fun m => deletion m row h.database) := by
  refine onTable_ends fun m hm c hc => ?_
  subst hc
  exact deleteRow_gives hm given row c

/-- The outcomes of deleting the record of a row: one that is planned, or that of the statement. -/
inductive DestroyEnd (d : Deployment) (model : String) (row : Value) (h : Holding) :
    Outcome (Option Bool) → Holding → Prop where
  | planned {outcome : Option Bool} {rest : List (Option Bool)} (plans : h.planned = outcome :: rest) :
    DestroyEnd d model row h (.ok outcome) { h with planned := rest }
  | unplanned {o : Outcome (Option Bool)} {c : Holding} (plans : h.planned = [])
    (deletes : TableEnd d model h (fun m => deletion m row h.database) o c) :
    DestroyEnd d model row h o c

theorem destroy_ends (d : Deployment) (given : Option CorrelationRef) (model : String)
    (row : Value) : Ends (· = h) (destroy d given model row) (DestroyEnd d model row h) := by
  refine Ends.get_bind fun s hs => ?_
  subst hs
  split
  · next outcome rest hplanned =>
    refine Ends.modify_bind (S := (· = { s.holding with planned := rest })) (fun s' hs' => ?_)
      (Ends.pure ?_)
    · rw [← hs']
      rfl
    · rintro _ rfl
      exact .planned hplanned
  · next hplanned =>
    exact (deleteRow_ends d given model row).weaken (fun _ => id) fun o c => .unplanned hplanned

/-- The statement that selects records, which leaves the database as it is. -/
def selection (d : Deployment) (m : Model) (wanted : Selection) (plans : List ClausePlan)
    (db : Database) : Outcome (Database × List Record) := do
  let clause ← (wanted.toClause m).run.2
  return (db, ← selectWith d.registry db m clause plans)

theorem query_ends (d : Deployment) (given : Option CorrelationRef) (model : String)
    (wanted : Selection) (plans : List ClausePlan) :
    Ends (· = h) (query d given model wanted .null plans)
      (TableEnd d model h fun m => selection d m wanted plans h.database) := by
  refine onTable_ends fun m hm c hc => ?_
  subst hc
  have hgives := query_gives hm given wanted plans c
  have hselection : selection d m wanted plans c.holding.database =
      ((wanted.toClause m).run.2 >>= fun clause => selectWith d.registry c.database m clause plans).map
        fun records => (c.database, records) := by
    show (_ >>= _ : Outcome _) = _
    cases (wanted.toClause m).run.2 with
    | error fault => rfl
    | ok clause =>
      rw [Outcome.ok_bind, Outcome.ok_bind]
      show (selectWith d.registry c.database m clause plans >>= _ : Outcome _) = _
      cases selectWith d.registry c.database m clause plans <;> rfl
  rw [hselection]
  generalize ((wanted.toClause m).run.2 >>= fun clause =>
    selectWith d.registry c.database m clause plans) = o at hgives ⊢
  cases o with
  | error fault => exact hgives
  | ok records => exact hgives

end Primary

namespace Twin

open Cache

variable {d : Deployment} {model : String} {h : Holding}

/-! ## Saving -/

/-- The statement that inserts one record or several. -/
def insertion (d : Deployment) (m : Model) (model : String) (records : Value) (items : List Value)
    (db : Database) : Outcome (Database × List Record) :=
  match items with
  | [record] => (creation d m model record db).map fun (db, stored) => (db, [stored])
  | _ => creations d m model records db

theorem insertAll_ends (d : Deployment) (ref : CorrelationRef) (model : String) {records : Value}
    (hrecords : records.isTruthy = true) {items : List Value} (hitems : records.items = .ok items) :
    Ends (· = h) (insertAll d ref model records)
      (TableEnd d model h fun m => insertion d m model records items h.database) := by
  rw [insertAll, hitems]
  refine Ends.ofOutcome_bind (fun items' heq => ?_) nofun
  obtain rfl := Except.ok.inj heq
  rcases items with _ | ⟨record, _ | ⟨record', rest⟩⟩
  · exact createAll_ends d (some ref) model hrecords
  · have hmap {o : Outcome (Option Record)} {c : Holding}
        (hend : TableEnd d model h (fun m => creation d m model record h.database) o c) :
        TableEnd d model h (fun m => insertion d m model records [record] h.database)
          (o.map fun stored => stored.map fun r => [r]) c := by
      cases hend with
      | unknown hunknown => exact .unknown hunknown
      | untabled hknown htable => exact .untabled hknown htable
      | done htable hdone => exact .done htable (by rw [insertion, hdone]; rfl)
      | refused htable hfault hanswered =>
        exact .refused htable (by rw [insertion, hfault]; rfl) hanswered
      | failed htable hfault hunanswered =>
        exact .failed htable (by rw [insertion, hfault]; rfl) hunanswered
    refine Ends.bind (Primary.create_ends d (some ref) model record)
      (fun stored => Ends.pure fun c hend => ?_) fun fault c hend => ?_
    · exact hmap hend
    · exact hmap hend
  · exact createAll_ends d (some ref) model hrecords

/-- Records as they are saved: a single one is a list of one. -/
def severalOf (records : Value) : Value := if records.isMap then .list [records] else records

/-- The outcomes of saving records: nothing is done, or the statement is refused or fails, or it is
carried out and the cache follows. -/
inductive SaveEnd (d : Deployment) (model : String) (records : Value) (h : Holding) :
    Outcome Saved → Holding → Prop where
  | unknown (isUnknown : d.registry.hasModel model = false) : SaveEnd d model records h (.ok {}) h
  | nothing (isKnown : d.registry.hasModel model = true)
    (isEmpty : (severalOf records).isTruthy = false) : SaveEnd d model records h (.ok {}) h
  | unlisted {fault : Fault} (isKnown : d.registry.hasModel model = true)
    (isTruthy : (severalOf records).isTruthy = true)
    (lists : (severalOf records).items = .error fault) : SaveEnd d model records h (.error fault) h
  | untabled {fault : Fault} (isKnown : d.registry.hasModel model = true)
    (isTruthy : (severalOf records).isTruthy = true) {items : List Value}
    (lists : (severalOf records).items = .ok items)
    (table : d.registry.table model = .error fault) : SaveEnd d model records h (.error fault) h
  | refused {fault : Fault} {items : List Value} {m : Model}
    (isTruthy : (severalOf records).isTruthy = true)
    (lists : (severalOf records).items = .ok items) (table : d.registry.table model = .ok m)
    (inserts : insertion d m model (severalOf records) items h.database = .error fault)
    (isAnswered : (failureText? fault).isSome) : SaveEnd d model records h (.ok {}) h
  | failed {fault : Fault} {items : List Value} {m : Model}
    (isTruthy : (severalOf records).isTruthy = true)
    (lists : (severalOf records).items = .ok items) (table : d.registry.table model = .ok m)
    (inserts : insertion d m model (severalOf records) items h.database = .error fault)
    (isUnanswered : failureText? fault = none) : SaveEnd d model records h (.error fault) h
  | saved {items : List Value} {m : Model} {database : Database} {stored : List Record}
    {cache : Option Bool} {c : Holding} (isTruthy : (severalOf records).isTruthy = true)
    (lists : (severalOf records).items = .ok items) (table : d.registry.table model = .ok m)
    (inserts : insertion d m model (severalOf records) items h.database = .ok (database, stored))
    (caches : CreateEnd d model (asValue stored) { h with database } (.ok cache) c) :
    SaveEnd d model records h
      (.ok { primary := some true, cache := cache, records := some stored }) c
  | uncached {items : List Value} {m : Model} {database : Database} {stored : List Record}
    {fault : Fault} {c : Holding} (isTruthy : (severalOf records).isTruthy = true)
    (lists : (severalOf records).items = .ok items) (table : d.registry.table model = .ok m)
    (inserts : insertion d m model (severalOf records) items h.database = .ok (database, stored))
    (caches : CreateEnd d model (asValue stored) { h with database } (.error fault) c) :
    SaveEnd d model records h (.error fault) c

/-- All outcomes of saving records. -/
theorem save_ends (d : Deployment) (given : Option CorrelationRef) (model : String)
    (records : Value) : Ends (· = h) (save d given model records) (SaveEnd d model records h) := by
  refine Ends.inScope fun ref => Ends.knows_bind _ _ _ _ fun known hknown => Ends.ite (fun hk => ?_)
    fun hunknown => Ends.pure ?_
  · have hknown := hknown.trans hk
    refine Ends.ite (fun htruthy => ?_) fun hempty => Ends.report_bind _ _ _ _ _ (Ends.pure ?_)
    · cases hitems : (severalOf records).items with
      | error fault =>
        have hfails : Ends (· = h) (insertAll d ref model (severalOf records))
            fun o c => o = .error fault ∧ c = h := by
          rw [insertAll, hitems]
          refine Ends.ofOutcome_bind nofun ?_
          rintro _ ⟨rfl⟩ c rfl
          exact ⟨rfl, rfl⟩
        refine Ends.bind hfails (fun stored s hs => nomatch hs.1) ?_
        rintro _ c ⟨⟨rfl⟩, rfl⟩
        exact .unlisted hknown htruthy hitems
      | ok items =>
        refine Ends.bind (insertAll_ends d ref model htruthy hitems)
          (fun stored => Ends.of_each fun c hinserted => ?_) ?_
        · cases hinserted with
          | unknown hunknown =>
            refine Ends.pure ?_
            rintro _ rfl
            exact .unknown hunknown
          | refused htable hfault hanswered =>
            refine Ends.pure ?_
            rintro _ rfl
            exact .refused htruthy hitems htable hfault hanswered
          | @done m database stored htable hdone =>
            refine Ends.bind (Cache.create_ends d (some ref) model (asValue stored))
              (fun cache => ?_) fun fault c hcache => .uncached htruthy hitems htable hdone hcache
            have hsaved (c : Holding) (hcache : CreateEnd d model (asValue stored)
                { h with database } (.ok cache) c) := SaveEnd.saved htruthy hitems htable hdone hcache
            exact Ends.ite (fun _ => Ends.report_bind _ _ _ _ _ (Ends.pure hsaved))
              fun _ => Ends.pure hsaved
        · intro fault c hinserted
          cases hinserted with
          | untabled _ htable => exact .untabled hknown htruthy hitems htable
          | failed htable hfault hunanswered => exact .failed htruthy hitems htable hfault hunanswered
    · rintro _ rfl
      exact .nothing hknown (Bool.eq_false_iff.mpr hempty)
  · rintro _ rfl
    exact .unknown (hknown.trans (Bool.eq_false_iff.mpr hunknown))

end Twin

end TwinStore
