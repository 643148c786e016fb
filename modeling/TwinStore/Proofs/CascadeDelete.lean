import Mathlib
import TwinStore.Proofs.CacheEffects
import TwinStore.Proofs.CascadeEnd

/-!
# Deletions as runs

A deletion goes through the steps of its tasks in one of their orders.  It returns unless the cache
raises, and the depth that it is given is never used up.

Main definitions:

- `Place`: a place in a tree of tasks.
- `Walks`: whether an operation goes through steps.

Main results:

- Theorem `walks_deleteWithin`: the deletion at a place goes through the steps of its task.
- Theorem `cascade_destroys_closure`: a deletion ends, in whatever order its tasks take their steps,
  and has destroyed the closure, each record once.
-/

namespace TwinStore.Twin

open Primary Filter Action

/-! ## Places -/

/-- A place in a tree of tasks, from the inside out: below a deletion, between its other parts. -/
inductive Place where
  | top
  | inside (model : String) (where_ : Value) (fresh : List Record) (before after : List Task)
      (outer : Place)

namespace Place

/-- The tree with a task at a place. -/
def fill : Place → Task → Task
  | top, task => task
  | inside model where_ fresh before after outer, task =>
    outer.fill (.cascade model where_ fresh (before ++ task :: after))

/-- A step of a task is a step of the tree. -/
theorem step {d : Deployment} {ref : CorrelationRef} {s s' : Stores}
    {pending pending' : List Identity} {calls calls' : List Call} (place : Place) {task task' : Task}
    (h : Step d ref ⟨s, pending, calls, task⟩ ⟨s', pending', calls', task'⟩) :
    Step d ref ⟨s, pending, calls, place.fill task⟩ ⟨s', pending', calls', place.fill task'⟩ := by
  induction place generalizing task task' with
  | top => exact h
  | inside model where_ fresh before after outer ih => exact ih (.part h)

/-- What a task looks for and holds, the tree does. -/
theorem mem_fill (place : Place) {task : Task} :
    (∀ t ∈ task.searches, t ∈ (place.fill task).searches) ∧
      ∀ o ∈ task.held, o ∈ (place.fill task).held := by
  induction place generalizing task with
  | top => exact ⟨fun _ => id, fun _ => id⟩
  | inside model where_ fresh before after outer ih =>
    have hpart : task ∈ before ++ task :: after :=
      List.mem_append_right _ List.mem_cons_self
    exact ⟨fun t ht => ih.1 t (Task.mem_searchesAll hpart ht),
      fun o ho => ih.2 o (List.mem_append_right _ (Task.mem_heldAll hpart ho))⟩

end Place

/-! ## Walks -/

variable {α β : Type} {d : Deployment} {ref : CorrelationRef} {p p' p'' : Progress}

/-- Runs one after the other. -/
theorem Runs.trans {n k : Nat} (h : Runs d ref n p p') (h' : Runs d ref k p' p'') :
    Runs d ref (n + k) p p'' := by
  induction h' with
  | none => exact h
  | step _ hstep ih => exact .step (ih h) hstep

/-- Whether an operation goes through steps, up to a progress that fits its result, or up to a removal
from the cache that raises. -/
def Walks (d : Deployment) (ref : CorrelationRef) (x : Action α) (p : Progress)
    (fits : α → Progress → Prop) : Prop :=
  ∃ n p', Runs d ref n p p' ∧
    ((∃ a, runFrom x p.stores = (.ok a, p'.stores) ∧ fits a p') ∨
      ∃ model where_ fault s', runFrom x p.stores = (.error fault, s') ∧
        runFrom (Cache.delete d (some ref) model where_) p'.stores = (.error fault, s'))

namespace Walks

variable {x : Action α} {f : α → Action β} {fits : α → Progress → Prop}
  {fits' : β → Progress → Prop}

theorem pure {a : α} (h : fits a p) : Walks d ref (Pure.pure a) p fits :=
  ⟨0, p, .none p, Or.inl ⟨a, rfl, h⟩⟩

/-- An operation after another one goes on where that stopped. -/
theorem bind (hx : Walks d ref x p fits)
    (hf : ∀ a p', fits a p' → Walks d ref (f a) p' fits') : Walks d ref (x >>= f) p fits' := by
  obtain ⟨n, p', hruns, ⟨a, hrun, hfits⟩ | ⟨model, where_, fault, s', hrun, hraise⟩⟩ := hx
  · obtain ⟨k, p'', hruns', hend⟩ := hf a p' hfits
    refine ⟨n + k, p'', hruns.trans hruns', ?_⟩
    rwa [runFrom_bind_of_ok hrun]
  · exact ⟨n, p', hruns, Or.inr ⟨model, where_, fault, s', runFrom_bind_of_error hrun, hraise⟩⟩

/-- An outcome is no step. -/
theorem of_outcome {o : Outcome α} {a : α} (ho : o = .ok a) (h : Walks d ref (f a) p fits') :
    Walks d ref (Action.ofOutcome o >>= f) p fits' := by
  subst ho
  exact h

/-- An operation that is one step. -/
theorem of_step {a : α} (hrun : runFrom x p.stores = (.ok a, p'.stores)) (hstep : Step d ref p p')
    (h : fits a p') : Walks d ref x p fits :=
  ⟨1, p', .step (.none p) hstep, Or.inl ⟨a, hrun, h⟩⟩

/-- A step that no part of an operation takes can be taken before it. -/
theorem of_silent (hstep : Step d ref p p') (hstores : p'.stores = p.stores)
    (h : Walks d ref x p' fits) : Walks d ref x p fits := by
  obtain ⟨n, p'', hruns, hend⟩ := h
  rw [hstores] at hend
  exact ⟨1 + n, p'', Runs.trans (.step (.none p) hstep) hruns, hend⟩

end Walks

/-! ## Deletions -/

/-- Where a deletion in progress stands: at a task in a place, with its invariant. -/
structure IsAt (r : Registry) (db : Database) (roots : List Item) (first : String × Value)
    (place : Place) (task : Task) (p : Progress) : Prop where
  task_eq : p.task = place.fill task
  invariant : Invariant r db roots first p

section

variable {db : Database} {roots : List Item} {first : String × Value} {place : Place}

/-- A step at a place leads to the place. -/
theorem IsAt.step (hs : Setting d.registry db roots) {task task' : Task} {s' : Stores}
    {pending' : List Identity} {calls' : List Call}
    (h : IsAt d.registry db roots first place task p)
    (hstep : Step d ref ⟨p.stores, p.pending, p.calls, task⟩ ⟨s', pending', calls', task'⟩) :
    Step d ref p ⟨s', pending', calls', place.fill task'⟩ ∧
      IsAt d.registry db roots first place task' ⟨s', pending', calls', place.fill task'⟩ := by
  obtain ⟨stores, pending, calls, tree⟩ := p
  obtain ⟨rfl, hinvariant⟩ := h
  have htree := place.step hstep
  exact ⟨htree, rfl, hinvariant.step hs htree⟩

/-- Destroying rows goes through one step for each. -/
theorem walks_destroyEach (ref : CorrelationRef) (hs : Setting d.registry db roots) {model : String} {where_ : Value}
    {left : List Record} (h : IsAt d.registry db roots first place (.destroy model where_ left) p) :
    ∃ n p' outcomes, Runs d ref n p p' ∧
      runFrom (Action.each (fun row => Primary.destroy d (some ref) model (.map row)) left) p.stores =
        (.ok outcomes, p'.stores) ∧ p'.pending = p.pending ∧
      IsAt d.registry db roots first place (.destroy model where_ []) p' := by
  induction left generalizing p with
  | nil => exact ⟨0, p, [], .none p, rfl, rfl, h⟩
  | cons row left ih =>
    have hheld : ⟨model, row⟩ ∈ p.task.held := by
      rw [h.task_eq]
      exact place.mem_fill.2 _ List.mem_cons_self
    obtain ⟨b, s', hrun⟩ := h.invariant.exists_destroy_run ref hs hheld
    obtain ⟨hstep, hat⟩ := h.step hs (@Step.destroy _ _ _ _ _ _ _ _ [] left row _ hrun)
    obtain ⟨n, p', outcomes, hruns, hrest, hpending, hend⟩ := ih hat
    refine ⟨1 + n, p', some b :: outcomes, Runs.trans (.step (.none p) hstep) hruns, ?_, hpending,
      hend⟩
    rw [Action.each, Action.both]
    simp only [runFrom_bind, runFrom_attempt, hrun, runFrom_ofOutcome, runFrom_pure]
    rw [hrest]

/-- Destroying rows and counting the failures goes through one step for each row, and one more. -/
theorem walks_destroyRows (hs : Setting d.registry db roots) {model : String} {where_ : Value}
    {left : List Record} (h : IsAt d.registry db roots first place (.destroy model where_ left) p) :
    Walks d ref (destroyRows d ref model left) p fun _ p' =>
      p'.pending = p.pending ∧ IsAt d.registry db roots first place (.clear model where_) p' := by
  obtain ⟨n, p', outcomes, hruns, hrun, hpending, hat⟩ := walks_destroyEach ref hs h
  have hcount : ∃ result, (do
      let failed := (outcomes.filter Option.isNone).length
      if failed > 0 then
        Action.report ref .error component
          s!"{Number.digits failed} of {Number.digits left.length} rows not deleted"
          [("model", .text model)]
      if failed > 0 && failed = left.length then return (none, failed)
      return (some (outcomes.any (· == some true)), failed) : Action (Option Bool × Nat)).Gives
      p'.stores.content (.ok result) p'.stores.content := by
    dsimp only
    split_ifs
    · exact ⟨_, Gives.bind (Gives.report _ _ _ _ _ _) (Gives.pure _ _)⟩
    · exact ⟨_, Gives.bind (Gives.report _ _ _ _ _ _) (Gives.pure _ _)⟩
    · exact ⟨_, Gives.bind (Gives.pure _ _) (Gives.pure _ _)⟩
    · exact ⟨_, Gives.bind (Gives.pure _ _) (Gives.pure _ _)⟩
  obtain ⟨result, hgives⟩ := hcount
  obtain ⟨s', hrun', hcontent⟩ := hgives p'.stores rfl
  obtain ⟨hstep, hend⟩ := hat.step hs (show Step d ref _ _ from .destroyed hcontent)
  exact ⟨n + 1, _, .step hruns hstep, Or.inl ⟨result, (runFrom_bind_of_ok hrun).trans hrun', hpending,
    hend⟩⟩

/-- A removal from the cache that does not raise is one step. -/
theorem walks_clear (hs : Setting d.registry db roots) {model : String} {where_ : Value}
    (h : IsAt d.registry db roots first place (.clear model where_) p) :
    Walks d ref (Cache.delete d (some ref) model where_) p fun _ p' =>
      p'.pending = p.pending ∧ IsAt d.registry db roots first place .done p' := by
  have hkeeps := Cache.delete_keeps (d := d) (some ref) model where_ p.stores
  cases hrun : runFrom (Cache.delete d (some ref) model where_) p.stores with
  | mk outcome s' =>
    rw [hrun] at hkeeps
    obtain ⟨hdatabase, hplanned⟩ := Prod.mk.inj hkeeps
    cases outcome with
    | ok removed =>
      obtain ⟨hstep, hat⟩ := h.step hs (show Step d ref _ _ from .clear hdatabase hplanned)
      exact Walks.of_step hrun hstep ⟨rfl, hat⟩
    | error fault => exact ⟨0, p, .none p, Or.inr ⟨model, where_, fault, s', hrun, hrun⟩⟩

/-- Deletions one after another go through the steps of each. -/
theorem walks_deleteTargets {deletion : String → Value → List Identity → Action (Deleted × List Identity)} {depth : Nat}
    (hdeletion : ∀ (place : Place) (model : String) (where_ : Value) (p : Progress),
      IsAt d.registry db roots first place (.ask model where_) p →
      db.size < p.pending.length + depth →
      Walks d ref (deletion model where_ p.pending) p fun a p' => a.2 = p'.pending ∧
        p.pending.length ≤ p'.pending.length ∧ IsAt d.registry db roots first place .done p')
    {model : String} {where_ : Value} {fresh : List Record} {below : List (String × Value)}
    {finished : List Task} (hfinished : ∀ part ∈ finished, part = .done)
    (h : IsAt d.registry db roots first place
      (.cascade model where_ fresh (finished ++ below.map Task.ofTarget)) p)
    (hdepth : below ≠ [] → db.size < p.pending.length + depth) :
    Walks d ref (deleteTargets deletion below p.pending) p fun a p' => a.2 = p'.pending ∧
      p.pending.length ≤ p'.pending.length ∧ ∃ parts, (∀ part ∈ parts, part = .done) ∧
        IsAt d.registry db roots first place (.cascade model where_ fresh parts) p' := by
  induction below generalizing finished p with
  | nil =>
    rw [List.map_nil, List.append_nil] at h
    exact Walks.pure ⟨rfl, Nat.le_refl _, finished, hfinished, h⟩
  | cons target below ih =>
    have hdepth := hdepth (List.cons_ne_nil target below)
    refine Walks.bind (hdeletion (.inside model where_ fresh finished (below.map Task.ofTarget) place)
      target.1 target.2 p ⟨h.task_eq, h.invariant⟩ hdepth) ?_
    rintro ⟨result, _⟩ p' ⟨rfl, hlength, htask, hinvariant⟩
    refine Walks.bind (@ih p' (finished ++ [.done]) ?_ ⟨?_, hinvariant⟩ fun _ => by omega) ?_
    · simpa [or_imp, forall_and] using hfinished
    · rw [htask, List.append_assoc]
      rfl
    · rintro ⟨results, _⟩ p'' ⟨rfl, hlength', hparts⟩
      exact Walks.pure ⟨rfl, hlength.trans hlength', hparts⟩

/-- A query of a deletion is one step. -/
theorem walks_query (hs : Setting d.registry db roots) {model : String} {where_ : Value}
    (h : IsAt d.registry db roots first place (.ask model where_) p) :
    Walks d ref (query d (some ref) model (.filter where_) .null []) p fun a p' =>
      ∃ rows, a = some rows ∧ p'.pending = p.pending ∧
        IsAt d.registry db roots first place (.claim model where_ rows) p' := by
  have hmem : Task.ask model where_ ∈ p.task.searches := by
    rw [h.task_eq]
    exact place.mem_fill.1 _ List.mem_cons_self
  obtain ⟨rows, s', hrun⟩ := h.invariant.exists_ask_run ref hs hmem
  obtain ⟨hstep, hat⟩ := h.step hs (.ask hrun)
  exact Walks.of_step hrun hstep ⟨rows, rfl, rfl, hat⟩

/-- A claim of a deletion is one step. -/
theorem exists_claimed (ref : CorrelationRef) (hs : Setting d.registry db roots) {model : String}
    {where_ : Value} {rows : List Record}
    (h : IsAt d.registry db roots first place (.claim model where_ rows) p) :
    ∃ fresh below p', Step d ref p p' ∧ p'.stores = p.stores ∧
      claimRows d.registry model rows p.pending = .ok (fresh, p'.pending) ∧
      targets d.registry model fresh = .ok below ∧
      IsAt d.registry db roots first place
        (.cascade model where_ fresh (below.map Task.ofTarget)) p' := by
  have hmem : Task.claim model where_ rows ∈ p.task.searches := by
    rw [h.task_eq]
    exact place.mem_fill.1 _ List.mem_cons_self
  obtain ⟨fresh, pending', below, hclaim, htargets, _⟩ := h.invariant.exists_claim hs hmem
  have hclaimed : Step d ref ⟨p.stores, p.pending, p.calls, .claim model where_ rows⟩
      ⟨p.stores, pending', p.calls, .cascade model where_ fresh (below.map Task.ofTarget)⟩ :=
    .claim hclaim htargets
  obtain ⟨hstep, hat⟩ := h.step hs hclaimed
  exact ⟨fresh, below, _, hstep, rfl, hclaim, htargets, hat⟩

/-- The deletion at a place goes through the steps of its task, if as many levels are left as there
are records that are not claimed, and one more. -/
theorem walks_deleteWithin (hs : Setting d.registry db roots) (depth : Nat) (place : Place)
    (model : String) (where_ : Value) (p : Progress)
    (h : IsAt d.registry db roots first place (.ask model where_) p)
    (hdepth : db.size < p.pending.length + depth) :
    Walks d ref (deleteWithin d ref depth model where_ p.pending) p fun a p' => a.2 = p'.pending ∧
      p.pending.length ≤ p'.pending.length ∧ IsAt d.registry db roots first place .done p' := by
  induction depth generalizing place model where_ p with
  | zero =>
    have hbound := h.invariant.length_claimed_le hs
    rw [← h.invariant.length] at hbound
    omega
  | succ depth ih =>
    rw [deleteWithin]
    refine Walks.bind (walks_query hs h) ?_
    rintro _ p₁ ⟨rows, rfl, hpending₁, hat₁⟩
    obtain ⟨fresh, below, p₂, hstep, hstores, hclaim, htargets, hat₂⟩ := exists_claimed ref hs hat₁
    rw [hpending₁] at hclaim
    have hlength := length_of_claimRows hclaim
    have hlevels : below ≠ [] → db.size < p₂.pending.length + depth := by
      intro hbelow
      have hpos := List.length_pos_of_ne_nil hbelow
      have hfresh : fresh.length ≠ 0 := by
        intro hzero
        have hle := length_of_targets htargets
        rw [hzero, Nat.mul_zero] at hle
        omega
      omega
    refine Walks.of_silent hstep hstores (Walks.of_outcome hclaim (Walks.of_outcome htargets ?_))
    refine Walks.bind (@walks_deleteTargets d ref p₂ db roots first place _ depth ih model where_ fresh
      below [] nofun hat₂ hlevels) ?_
    rintro ⟨cascade, _⟩ p₃ ⟨rfl, hlength₃, parts, hparts, hat₃⟩
    obtain ⟨hjoined, hat₄⟩ := hat₃.step hs (show Step d ref _ _ from .joined hparts)
    refine Walks.of_silent hjoined rfl (Walks.bind (walks_destroyRows hs hat₄) ?_)
    rintro ⟨primary, failedRows⟩ p₅ ⟨hpending₅, hat₅⟩
    refine Walks.bind (walks_clear hs hat₅) ?_
    rintro cache p₆ ⟨hpending₆, hat₆⟩
    refine Walks.pure ⟨?_, ?_, hat₆⟩
    · rw [hpending₆, hpending₅]
    · rw [hpending₆, hpending₅]
      dsimp only
      omega

end

/-! ## The closure is destroyed -/

/-- A deletion that has not begun. -/
def Progress.begin (s : Stores) (model : String) (where_ : Value) : Progress :=
  ⟨s, [], [], .ask model where_⟩

/-- Whether a deletion has destroyed what must be destroyed, each record once, and nothing else. -/
structure HasDestroyed (r : Registry) (db : Database) (roots : List Item) (p : Progress) : Prop where
  once : (destroyed p.calls).Nodup
  exactly : ∀ o, o ∈ destroyed p.calls ↔ Doomed r db roots o
  left : Database.Without r db (destroyed p.calls) p.stores.database

variable {s s₁ : Stores} {model : String} {m : Model} {where_ : Value} {rows : List Record}

/-- A deletion is a deletion at the top, in a scope, with more levels than there are records. -/
theorem exists_delete_run (hm : d.registry.table model = .ok m) (given : Option CorrelationRef)
    (where_ : Value) (s : Stores) :
    ∃ ref s₀, s₀.content = s.content ∧ ∀ outcome s',
      runFrom (deleteWithin d ref (s₀.database.size + 1) model where_ []) s₀ = (outcome, s') →
        ∃ s'', runFrom (delete d given model where_) s = (outcome.map (·.1), s'') ∧
          s''.database = s'.database := by
  refine ⟨(s.trace.enter given).2.1, { s with trace := (s.trace.enter given).1 }, rfl,
    fun outcome s' hrun => ?_⟩
  generalize hs₀ : { s with trace := (s.trace.enter given).1 } = s₀ at hrun
  generalize href : (s.trace.enter given).2.1 = ref at hrun
  have hknows : runFrom (Action.knows d ref component model) s₀ = (.ok true, s₀) := by
    rw [Action.knows, if_pos (Registry.hasModel_of_table hm)]
    rfl
  have hbody : runFrom (do
      unless ← Action.knows d ref component model do return {}
      let depth := (← get).database.size + 1
      return (← deleteWithin d ref depth model where_ []).1 : Action Deleted) s₀ =
      (outcome.map (·.1), s') := by
    rw [runFrom_bind_of_ok hknows]
    show runFrom ((·.1) <$> deleteWithin d ref (s₀.database.size + 1) model where_ []) s₀ = _
    rw [runFrom_map, hrun]
  refine ⟨{ s' with trace := s'.trace.leave ref (s.trace.enter given).2.2 }, ?_, rfl⟩
  rw [delete, runFrom_inScope]
  simp only [href, hs₀, hbody]

/-- The invariant holds when a deletion begins, in whatever scope it is. -/
theorem Invariant.begin (hd : d.registry.Built) (hkeys : d.registry.HasKeys)
    (hdb : s.database.IsOrderly d.registry) (hplanned : s.plannedDeletions = [])
    (hm : d.registry.table model = .ok m) {given : Option CorrelationRef}
    (hquery : runFrom (query d given model (.filter where_) .null []) s = (.ok (some rows), s₁))
    {s₀ : Stores} (hcontent : s₀.content = s.content) :
    Setting d.registry s.database (itemsOf model rows) ∧
      Invariant d.registry s.database (itemsOf model rows) (model, where_) (.begin s₀ model where_) := by
  obtain ⟨hdatabase, hplanned'⟩ := Stores.eq_of_content hcontent
  obtain ⟨s₂, hquery'⟩ := Invariant.exists_query_of_content hm hcontent hquery
  rw [← hdatabase] at hdb ⊢
  exact Invariant.start hd.isSound hkeys hdb (hplanned'.trans hplanned) hm hquery'

/-- A deletion of what a filter names goes through the steps of its task, unless the cache raises. -/
theorem walks_delete (hd : d.registry.Built) (hkeys : d.registry.HasKeys)
    (hdb : s.database.IsOrderly d.registry) (hplanned : s.plannedDeletions = [])
    (hm : d.registry.table model = .ok m) {given : Option CorrelationRef}
    (hquery : runFrom (query d given model (.filter where_) .null []) s = (.ok (some rows), s₁))
    (given' : Option CorrelationRef) :
    ∃ ref s₀ n p, s₀.content = s.content ∧ Runs d ref n (.begin s₀ model where_) p ∧
      ((∃ deleted s', runFrom (delete d given' model where_) s = (.ok deleted, s') ∧
          s'.database = p.stores.database ∧ p.task = .done) ∨
        ∃ name filter fault s' s'', runFrom (delete d given' model where_) s = (.error fault, s') ∧
          runFrom (Cache.delete d (some ref) name filter) p.stores = (.error fault, s'')) := by
  obtain ⟨ref, s₀, hcontent, hdelete⟩ := exists_delete_run hm given' where_ s
  obtain ⟨hs, hstart⟩ := Invariant.begin hd hkeys hdb hplanned hm hquery hcontent
  obtain ⟨n, p, hruns, hend⟩ := @walks_deleteWithin d ref _ _ _ hs (s₀.database.size + 1) .top model
    where_ (.begin s₀ model where_) ⟨rfl, hstart⟩
    (by simp [Progress.begin, (Stores.eq_of_content hcontent).1])
  refine ⟨ref, s₀, n, p, hcontent, hruns, ?_⟩
  rcases hend with ⟨result, hrun, _, _, hdone⟩ | ⟨name, filter, fault, s', hrun, hraise⟩
  · obtain ⟨s', hrun', hdatabase'⟩ := hdelete _ _ hrun
    exact Or.inl ⟨result.1, s', hrun', hdatabase', hdone.task_eq⟩
  · obtain ⟨s'', hrun', _⟩ := hdelete _ _ hrun
    exact Or.inr ⟨name, filter, fault, s'', s', hrun', hraise⟩

/-- A deletion, in whatever order its tasks take their steps, takes boundedly many, can always go on
until it is done, and asks for nothing but what it was asked to delete and what belongs to that by the
owning relations.  When it is done it has destroyed exactly the closure, each record once.  The
operation is one of these runs, and returns unless a removal from the cache raises. -/
theorem cascade_destroys_closure (hd : d.registry.Built) (hkeys : d.registry.HasKeys)
    (hdb : s.database.IsOrderly d.registry) (hplanned : s.plannedDeletions = [])
    (hm : d.registry.table model = .ok m) {given : Option CorrelationRef}
    (hquery : runFrom (query d given model (.filter where_) .null []) s = (.ok (some rows), s₁)) :
    (∀ ref s₀, s₀.content = s.content →
      (∃ bound, ∀ n p, Runs d ref n (.begin s₀ model where_) p → n ≤ bound) ∧
      ∀ n p, Runs d ref n (.begin s₀ model where_) p →
        (p.task ≠ .done → ∃ p', Step d ref p p') ∧
        (∀ name filter, .query name filter ∈ p.calls →
          MayAsk d.registry s.database (itemsOf model rows) (model, where_) (name, filter)) ∧
        (p.task = .done → HasDestroyed d.registry s.database (itemsOf model rows) p)) ∧
    ∀ given', ∃ ref s₀ n p, s₀.content = s.content ∧ Runs d ref n (.begin s₀ model where_) p ∧
      ((∃ deleted s', runFrom (delete d given' model where_) s = (.ok deleted, s') ∧
          s'.database = p.stores.database ∧ p.task = .done) ∨
        ∃ name filter fault s' s'', runFrom (delete d given' model where_) s = (.error fault, s') ∧
          runFrom (Cache.delete d (some ref) name filter) p.stores = (.error fault, s'')) := by
  refine ⟨fun ref s₀ hcontent => ?_, walks_delete hd hkeys hdb hplanned hm hquery⟩
  obtain ⟨hs, hstart⟩ := Invariant.begin hd hkeys hdb hplanned hm hquery hcontent
  refine ⟨⟨_, fun n p hruns => (Nat.le_add_right _ _).trans (hstart.add_room_le hs hruns)⟩,
    fun n p hruns => ?_⟩
  have hinvariant := hstart.runs hs hruns
  exact ⟨hinvariant.exists_step hs, hinvariant.asked, fun hdone => ⟨hinvariant.nodup_destroyed,
    hinvariant.destroyed_iff hs hdone, hinvariant.left⟩⟩

/-- A model whose records own each other: a record has the records that name it as their parent. -/
def node : Model :=
  { name := "node"
    attributes := [⟨"id", .int, true, false, false⟩, { name := "parent", type := .int }]
    relations := [("node", ⟨"hasMany", "id", "parent", true⟩)] }

/-- The registry of that model alone. -/
def nodes : Deployment := ⟨(Registry.register {} [node]).1, "", true, none⟩

/-- Two records in a circle, and one beside it. -/
def circleRows : List Row :=
  [[("id", .int 1), ("parent", .int 2)],
   [("id", .int 2), ("parent", .int 1)],
   [("id", .int 3), ("parent", .null)]]

/-- The stores with those records. -/
def circle : Stores := { database := ⟨[("node", ⟨node, circleRows⟩)]⟩ }

/-- The filter for the first record. -/
def firstNode : Value := .map [("id", .int 1)]

theorem built_nodes : nodes.registry.Built := by
  refine @Registry.Built.register _ _ [node] [] .empty (fun m hm => ?_) rfl
  rw [List.mem_singleton.mp hm]
  exact ⟨by decide, by decide⟩

theorem eq_node {name : String} {m : Model} (h : nodes.registry.model? name = some m) : m = node := by
  have hmodels : nodes.registry.models = [("node", node)] := rfl
  rw [Registry.model?, hmodels] at h
  have hmem := Entries.mem_of_get? h
  rw [List.mem_singleton] at hmem
  exact (Prod.mk.inj hmem).2

theorem isExact_node {name : String} {m : Model} (h : nodes.registry.model? name = some m) :
    ∀ a ∈ m.attributes, a.type.isExact = true := by
  rw [eq_node h]
  decide

theorem hasKeys_nodes : nodes.registry.HasKeys where
  hasPrimary h := by
    rw [eq_node h]
    decide
  isExact h a ha _ := isExact_node h a ha
  type_eq _ h h' a ha _ b hb _ := by
    rw [eq_node h] at ha
    rw [eq_node h'] at hb
    have hint : ∀ a ∈ node.attributes, a.type = .int := by decide
    rw [hint a ha, hint b hb]

/-- Whether a cell is empty or holds an integer of 64 bits. -/
def fitsColumn : Cell → Bool
  | .null => true
  | .int n => fitsWord n
  | _ => false

theorem isTyped_circle : circle.database.IsTyped nodes.registry := by
  intro name m hm
  obtain rfl := eq_node (Registry.model?_of_table hm)
  refine ⟨⟨node, circleRows⟩, rfl, rfl, ⟨by decide, by decide⟩, fun row hrow a ha _ => ?_⟩
  have hint : ∀ a ∈ node.attributes, a.type = .int := by decide
  have hword : ∀ row ∈ circleRows, ∀ a ∈ node.attributes, fitsColumn (row.cell a.name) = true := by
    decide
  have hcell := hword row hrow a ha
  rw [hint a ha]
  cases hvalue : row.cell a.name with
  | null => exact Cell.fits_null .int
  | int n =>
    rw [hvalue] at hcell
    exact ⟨.int n, Or.inr (.int hcell), rfl⟩
  | _ =>
    rw [hvalue] at hcell
    cases hcell

/-- The record that the filter names. -/
def firstRecord : Record := [("id", .int 1), ("parent", .int 2)]

theorem query_firstNode :
    runFrom (query nodes none "node" (.filter firstNode) .null []) circle =
      (.ok (some [firstRecord]),
        (runFrom (query nodes none "node" (.filter firstNode) .null []) circle).2) := by
  refine Prod.ext ?_ rfl
  cbv

theorem circle_destroys_closure :
    circle.plannedDeletions = [] ∧ nodes.registry.table "node" = .ok node ∧
    (∀ ref s₀, s₀.content = circle.content →
      (∃ bound, ∀ n p, Runs nodes ref n (.begin s₀ "node" firstNode) p → n ≤ bound) ∧
      ∀ n p, Runs nodes ref n (.begin s₀ "node" firstNode) p →
        (p.task ≠ .done → ∃ p', Step nodes ref p p') ∧
        (∀ name filter, .query name filter ∈ p.calls →
          MayAsk nodes.registry circle.database (itemsOf "node" [firstRecord]) ("node", firstNode)
            (name, filter)) ∧
        (p.task = .done →
          HasDestroyed nodes.registry circle.database (itemsOf "node" [firstRecord]) p)) ∧
    ∀ given', ∃ ref s₀ n p, s₀.content = circle.content ∧
      Runs nodes ref n (.begin s₀ "node" firstNode) p ∧
      ((∃ deleted s', runFrom (delete nodes given' "node" firstNode) circle = (.ok deleted, s') ∧
          s'.database = p.stores.database ∧ p.task = .done) ∨
        ∃ name filter fault s' s'',
          runFrom (delete nodes given' "node" firstNode) circle = (.error fault, s') ∧
          runFrom (Cache.delete nodes (some ref) name filter) p.stores = (.error fault, s'')) :=
  ⟨rfl, rfl, cascade_destroys_closure built_nodes hasKeys_nodes
    (isTyped_circle.isOrderly isExact_node) rfl rfl query_firstNode⟩

end TwinStore.Twin
