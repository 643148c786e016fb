import Mathlib.Algebra.Order.BigOperators.Group.List
import TwinStore.Proofs.Claims

/-!
# Deletions in progress

The deletions below one deletion run side by side, and so do the deletions of its rows.  A deletion
in progress is a tree of tasks, any of which may take the next step.  A deletion asks the primary
store first and claims what it got in a later step, so that others may claim and destroy in between.

Main definitions:

- `Task`: a deletion at some point of its work.
- `Progress`: the stores, the pending identities and the tree of tasks.
- `Step`, `Runs`: one step of one task, and several steps.
- `Move`: what a step does, wherever in the tree it is taken.

Main results:

- Theorem `Step.move`: every step is a move.
- Theorem `Step.weight_lt`: every step brings the end closer.
-/

namespace TwinStore.Twin

open Primary Filter

/-! ## Tasks -/

/-- A deletion at some point of its work: about to ask for the records that satisfy a filter, about
to claim what it got, waiting for the deletions below, destroying rows, or removing records from the
cache. -/
inductive Task where
  | ask (model : String) (where_ : Value)
  | claim (model : String) (where_ : Value) (rows : List Record)
  | cascade (model : String) (where_ : Value) (fresh : List Record) (parts : List Task)
  | destroy (model : String) (where_ : Value) (left : List Record)
  | clear (model : String) (where_ : Value)
  | done

/-- The deletion of what a filter names. -/
def Task.ofTarget (target : String × Value) : Task := .ask target.1 target.2

/-- A call to the primary store. -/
inductive Call where
  | query (model : String) (where_ : Value)
  | destroy (item : Item)

/-- The items that calls destroy. -/
def destroyed (calls : List Call) : List Item :=
  calls.filterMap fun
    | .destroy item => some item
    | .query _ _ => none

/-- A deletion in progress: the stores, the identities that are pending, the calls to the primary
store so far, and the tasks. -/
structure Progress where
  stores : Stores
  pending : List Identity
  calls : List Call
  task : Task

/-- One step of one task.  The cache may do with its part of the stores whatever it likes, as long as
it answers. -/
inductive Step (d : Deployment) (ref : CorrelationRef) : Progress → Progress → Prop
  | ask {s s' : Stores} {pending : List Identity} {calls : List Call} {model : String}
      {where_ : Value} {rows : List Record}
      (h : runFrom (query d (some ref) model (.filter where_) .null []) s = (.ok (some rows), s')) :
      Step d ref ⟨s, pending, calls, .ask model where_⟩
        ⟨s', pending, calls ++ [.query model where_], .claim model where_ rows⟩
  | unanswered {s s' : Stores} {pending : List Identity} {calls : List Call} {model : String}
      {where_ : Value}
      (h : runFrom (query d (some ref) model (.filter where_) .null []) s = (.ok none, s')) :
      Step d ref ⟨s, pending, calls, .ask model where_⟩
        ⟨s', pending, calls ++ [.query model where_], .clear model where_⟩
  | claim {s : Stores} {pending pending' : List Identity} {calls : List Call} {model : String}
      {where_ : Value} {rows fresh : List Record} {below : List (String × Value)}
      (hclaim : claimRows d.registry model rows pending = .ok (fresh, pending'))
      (htargets : targets d.registry model fresh = .ok below) :
      Step d ref ⟨s, pending, calls, .claim model where_ rows⟩
        ⟨s, pending', calls, .cascade model where_ fresh (below.map Task.ofTarget)⟩
  | part {s s' : Stores} {pending pending' : List Identity} {calls calls' : List Call}
      {model : String} {where_ : Value} {fresh : List Record} {before after : List Task}
      {task task' : Task} (h : Step d ref ⟨s, pending, calls, task⟩ ⟨s', pending', calls', task'⟩) :
      Step d ref ⟨s, pending, calls, .cascade model where_ fresh (before ++ task :: after)⟩
        ⟨s', pending', calls', .cascade model where_ fresh (before ++ task' :: after)⟩
  | joined {s : Stores} {pending : List Identity} {calls : List Call} {model : String}
      {where_ : Value} {fresh : List Record} {parts : List Task} (h : ∀ part ∈ parts, part = .done) :
      Step d ref ⟨s, pending, calls, .cascade model where_ fresh parts⟩
        ⟨s, pending, calls, .destroy model where_ fresh⟩
  | destroy {s s' : Stores} {pending : List Identity} {calls : List Call} {model : String}
      {where_ : Value} {before after : List Record} {row : Record} {outcome : Option Bool}
      (h : runFrom (Primary.destroy d (some ref) model (.map row)) s = (.ok outcome, s')) :
      Step d ref ⟨s, pending, calls, .destroy model where_ (before ++ row :: after)⟩
        ⟨s', pending, calls ++ [.destroy ⟨model, row⟩], .destroy model where_ (before ++ after)⟩
  | destroyed {s s' : Stores} {pending : List Identity} {calls : List Call} {model : String}
      {where_ : Value} (h : s'.content = s.content) :
      Step d ref ⟨s, pending, calls, .destroy model where_ []⟩
        ⟨s', pending, calls, .clear model where_⟩
  | clear {s s' : Stores} {pending : List Identity} {calls : List Call} {model : String}
      {where_ : Value} (hdatabase : s'.database = s.database)
      (hplanned : s'.plannedDeletions = s.plannedDeletions) :
      Step d ref ⟨s, pending, calls, .clear model where_⟩ ⟨s', pending, calls, .done⟩

/-- A number of steps. -/
inductive Runs (d : Deployment) (ref : CorrelationRef) : Nat → Progress → Progress → Prop
  | none (p : Progress) : Runs d ref 0 p p
  | step {n : Nat} {p p' p'' : Progress} (hrun : Runs d ref n p p') (h : Step d ref p' p'') :
      Runs d ref (n + 1) p p''

/-! ## What tasks hold and look for -/

mutual

/-- The items that a task holds claimed and has not destroyed. -/
def Task.held : Task → List Item
  | .ask _ _ => []
  | .claim _ _ _ => []
  | .cascade model _ fresh parts => itemsOf model fresh ++ Task.heldAll parts
  | .destroy model _ left => itemsOf model left
  | .clear _ _ => []
  | .done => []

/-- The items that several tasks hold. -/
def Task.heldAll : List Task → List Item
  | [] => []
  | task :: rest => Task.held task ++ Task.heldAll rest

end

mutual

/-- The tasks in a tree that still look for records. -/
def Task.searches : Task → List Task
  | .ask model where_ => [.ask model where_]
  | .claim model where_ rows => [.claim model where_ rows]
  | .cascade _ _ _ parts => Task.searchesAll parts
  | .destroy _ _ _ => []
  | .clear _ _ => []
  | .done => []

/-- The tasks in several trees that still look for records. -/
def Task.searchesAll : List Task → List Task
  | [] => []
  | task :: rest => Task.searches task ++ Task.searchesAll rest

end

namespace Task

@[simp]
theorem heldAll_append (xs ys : List Task) : heldAll (xs ++ ys) = heldAll xs ++ heldAll ys := by
  induction xs with
  | nil => rfl
  | cons x xs ih => rw [List.cons_append, heldAll, heldAll, ih, List.append_assoc]

@[simp]
theorem searchesAll_append (xs ys : List Task) :
    searchesAll (xs ++ ys) = searchesAll xs ++ searchesAll ys := by
  induction xs with
  | nil => rfl
  | cons x xs ih => rw [List.cons_append, searchesAll, searchesAll, ih, List.append_assoc]

/-- Deletions that have not begun hold nothing. -/
theorem heldAll_targets (below : List (String × Value)) : heldAll (below.map ofTarget) = [] := by
  induction below with
  | nil => rfl
  | cons target below ih => rw [List.map_cons, heldAll, ih]; rfl

/-- Deletions that have not begun look for what they name. -/
theorem searchesAll_targets (below : List (String × Value)) :
    searchesAll (below.map ofTarget) = below.map ofTarget := by
  induction below with
  | nil => rfl
  | cons target below ih => rw [List.map_cons, searchesAll, ih]; rfl

/-- Finished deletions hold nothing and look for nothing. -/
theorem all_done {parts : List Task} (h : ∀ part ∈ parts, part = .done) :
    heldAll parts = [] ∧ searchesAll parts = [] := by
  induction parts with
  | nil => exact ⟨rfl, rfl⟩
  | cons part parts ih =>
    obtain ⟨hheld, hsearches⟩ := ih fun p hp => h p (List.mem_cons_of_mem part hp)
    rw [h part List.mem_cons_self, heldAll, hheld, searchesAll, hsearches]
    exact ⟨rfl, rfl⟩

end Task

/-! ## Moves -/

/-- What a step does, said without the place in the tree where it is taken. -/
inductive Move (d : Deployment) (ref : CorrelationRef) (p p' : Progress) : Prop
  | ask {model : String} {where_ : Value} {rows : List Record} {before after : List Task}
      (h : runFrom (query d (some ref) model (.filter where_) .null []) p.stores =
        (.ok (some rows), p'.stores))
      (hpending : p'.pending = p.pending) (hcalls : p'.calls = p.calls ++ [.query model where_])
      (hheld : p'.task.held = p.task.held)
      (hbefore : p.task.searches = before ++ .ask model where_ :: after)
      (hafter : p'.task.searches = before ++ .claim model where_ rows :: after)
  | unanswered {model : String} {where_ : Value} {before after : List Task}
      (h : runFrom (query d (some ref) model (.filter where_) .null []) p.stores =
        (.ok none, p'.stores))
      (hbefore : p.task.searches = before ++ .ask model where_ :: after)
  | claim {model : String} {where_ : Value} {rows fresh : List Record}
      {below : List (String × Value)} {before after : List Task} (hstores : p'.stores = p.stores)
      (hclaim : claimRows d.registry model rows p.pending = .ok (fresh, p'.pending))
      (htargets : targets d.registry model fresh = .ok below) (hcalls : p'.calls = p.calls)
      (hheld : p'.task.held.Perm (p.task.held ++ itemsOf model fresh))
      (hbefore : p.task.searches = before ++ .claim model where_ rows :: after)
      (hafter : p'.task.searches = before ++ below.map Task.ofTarget ++ after)
  | destroy {item : Item} {outcome : Option Bool}
      (h : runFrom (Primary.destroy d (some ref) item.model (.map item.record)) p.stores =
        (.ok outcome, p'.stores))
      (hpending : p'.pending = p.pending) (hcalls : p'.calls = p.calls ++ [.destroy item])
      (hheld : p.task.held.Perm (item :: p'.task.held)) (hsearches : p'.task.searches = p.task.searches)
  | quiet (hdatabase : p'.stores.database = p.stores.database)
      (hplanned : p'.stores.plannedDeletions = p.stores.plannedDeletions)
      (hpending : p'.pending = p.pending) (hcalls : p'.calls = p.calls)
      (hheld : p'.task.held = p.task.held) (hsearches : p'.task.searches = p.task.searches)

variable {d : Deployment} {ref : CorrelationRef} {p p' : Progress}

/-- A move below a deletion is a move of the deletion. -/
theorem Move.part {s s' : Stores} {pending pending' : List Identity} {calls calls' : List Call}
    {task task' : Task} (h : Move d ref ⟨s, pending, calls, task⟩ ⟨s', pending', calls', task'⟩)
    (model : String) (where_ : Value) (fresh : List Record) (before after : List Task) :
    Move d ref ⟨s, pending, calls, .cascade model where_ fresh (before ++ task :: after)⟩
      ⟨s', pending', calls', .cascade model where_ fresh (before ++ task' :: after)⟩ := by
  have hsearches (t : Task) : (Task.cascade model where_ fresh (before ++ t :: after)).searches =
      Task.searchesAll before ++ t.searches ++ Task.searchesAll after := by
    rw [Task.searches, Task.searchesAll_append, Task.searchesAll, List.append_assoc]
  have hheld (t : Task) : (Task.cascade model where_ fresh (before ++ t :: after)).held =
      (itemsOf model fresh ++ Task.heldAll before) ++ t.held ++ Task.heldAll after := by
    rw [Task.held, Task.heldAll_append, Task.heldAll]
    simp only [List.append_assoc]
  have hsplit {t : Task} {xs ys : List Task} (ht : t.searches = xs ++ ys) :
      (Task.cascade model where_ fresh (before ++ t :: after)).searches =
        (Task.searchesAll before ++ xs) ++ (ys ++ Task.searchesAll after) := by
    rw [hsearches, ht]
    simp only [List.append_assoc]
  cases h with
  | ask h hpending hcalls hheld' hbefore hafter =>
    exact .ask h hpending hcalls (by rw [hheld, hheld, hheld']) (hsplit hbefore) (hsplit hafter)
  | unanswered h hbefore => exact .unanswered h (hsplit hbefore)
  | claim hstores hclaim htargets hcalls hheld' hbefore hafter =>
    refine .claim hstores hclaim htargets hcalls ?_ (hsplit hbefore) ?_
    · rw [hheld, hheld]
      refine ((hheld'.append_left _).append_right _).trans ?_
      simp only [List.append_assoc]
      exact ((List.perm_append_comm.append_left _).append_left _).append_left _
    · rw [hsplit hafter]
      simp only [List.append_assoc]
      rfl
  | @destroy item _ h hpending hcalls hheld' hsearches' =>
    refine @Move.destroy _ _ _ _ item _ h hpending hcalls ?_ (by rw [hsearches, hsearches, hsearches'])
    rw [hheld, hheld]
    refine ((hheld'.append_left _).append_right _).trans ?_
    simp only [List.append_assoc, List.cons_append]
    exact (List.perm_middle.append_left _).trans List.perm_middle
  | quiet hdatabase hplanned hpending hcalls hheld' hsearches' =>
    exact .quiet hdatabase hplanned hpending hcalls (by rw [hheld, hheld, hheld'])
      (by rw [hsearches, hsearches, hsearches'])

/-- Every step is a move. -/
theorem Step.move (h : Step d ref p p') : Move d ref p p' := by
  induction h with
  | ask h => exact @Move.ask _ _ _ _ _ _ _ [] [] h rfl rfl rfl rfl rfl
  | unanswered h => exact @Move.unanswered _ _ _ _ _ _ [] [] h rfl
  | @claim _ _ _ _ _ _ _ fresh below hclaim htargets =>
    refine @Move.claim _ _ _ _ _ _ _ _ _ [] [] rfl hclaim htargets rfl ?_ rfl ?_
    · rw [Task.held, Task.held, Task.heldAll_targets, List.append_nil, List.nil_append]
    · rw [Task.searches, Task.searchesAll_targets, List.nil_append, List.append_nil]
  | part _ ih => exact ih.part _ _ _ _ _
  | joined h =>
    obtain ⟨hheld, hsearches⟩ := Task.all_done h
    refine .quiet rfl rfl rfl rfl ?_ ?_
    · rw [Task.held, Task.held, hheld, List.append_nil]
    · rw [Task.searches, Task.searches, hsearches]
  | @destroy _ _ _ _ model _ _ _ row outcome h =>
    refine @Move.destroy _ _ _ _ ⟨model, row⟩ outcome h rfl rfl ?_ rfl
    rw [Task.held, Task.held, itemsOf, itemsOf, List.map_append, List.map_append, List.map_cons]
    exact List.perm_middle
  | @destroyed s s' _ _ _ _ h =>
    obtain ⟨hdatabase, hplanned⟩ := Stores.eq_of_content h
    exact .quiet hdatabase hplanned rfl rfl rfl rfl
  | clear hdatabase hplanned => exact .quiet hdatabase hplanned rfl rfl rfl rfl

/-! ## How long deletions take -/

mutual

/-- How much work a task has left, but for what it may still claim. -/
def Task.weight : Task → Nat
  | .ask _ _ => 5
  | .claim _ _ _ => 4
  | .cascade _ _ fresh parts => fresh.length + 3 + Task.weightAll parts
  | .destroy _ _ left => left.length + 2
  | .clear _ _ => 1
  | .done => 0

/-- How much work several tasks have left. -/
def Task.weightAll : List Task → Nat
  | [] => 0
  | task :: rest => Task.weight task + Task.weightAll rest

end

namespace Task

theorem weightAll_append (xs ys : List Task) :
    weightAll (xs ++ ys) = weightAll xs + weightAll ys := by
  induction xs with
  | nil => rw [List.nil_append, weightAll, Nat.zero_add]
  | cons x xs ih => rw [List.cons_append, weightAll, weightAll, ih, Nat.add_assoc]

theorem weightAll_targets (below : List (String × Value)) :
    weightAll (below.map ofTarget) = 5 * below.length := by
  induction below with
  | nil => rfl
  | cons target below ih =>
    rw [List.map_cons, weightAll, ih, List.length_cons, ofTarget, weight]
    omega

end Task

/-- The number of relations of all models. -/
def relationCount (r : Registry) : Nat := (r.relations.map (·.2.length)).sum

/-- A model has no more relations than all models together. -/
theorem length_relationsOf_le (r : Registry) (name : String) :
    (r.relationsOf name).length ≤ relationCount r := by
  rw [Registry.relationsOf]
  cases hget : Entries.get? r.relations name with
  | none => exact Nat.zero_le _
  | some relations =>
    exact List.le_sum_of_mem
      (List.mem_map.mpr ⟨(name, relations), Entries.mem_of_get? hget, rfl⟩)

/-- Each claimed record is pending with one identity. -/
theorem length_of_claimRows {r : Registry} {model : String} {rows fresh : List Record}
    {pending pending' : List Identity} (h : claimRows r model rows pending = .ok (fresh, pending')) :
    pending'.length = pending.length + fresh.length := by
  obtain ⟨named, _, h⟩ := Outcome.bind_eq_ok.mp h
  obtain ⟨rfl, rfl⟩ := Prod.mk.inj (Except.ok.inj h)
  rw [List.length_append, List.length_map, List.length_map]

/-- There is at most one target for each relation, and none for no record. -/
theorem length_of_targets {r : Registry} {model : String} {rows : List Record}
    {below : List (String × Value)} (h : targets r model rows = .ok below) :
    below.length ≤ relationCount r * rows.length := by
  obtain ⟨filters, hfilters, h⟩ := Outcome.bind_eq_ok.mp h
  obtain rfl := Except.ok.inj h
  have hlength : filters.length ≤ relationCount r := by
    rw [← (Outcome.mapM_eq_ok_iff.mp hfilters).length_eq]
    exact (List.length_filter_le _ _).trans (length_relationsOf_le r model)
  cases rows with
  | cons row rows =>
    refine ((List.length_filterMap_le _ _).trans hlength).trans ?_
    exact Nat.le_mul_of_pos_right _ (Nat.succ_pos _)
  | nil =>
    have hnone : ∀ filter ∈ filters, id filter = none := by
      intro filter hfilter
      obtain ⟨e, _, he⟩ := Outcome.exists_of_mem_mapM hfilters hfilter
      exact (Except.ok.inj he).symm
    rw [List.filterMap_eq_nil_iff.mpr hnone]
    exact Nat.zero_le _

/-- Every step either does a part of the work or claims records, which makes room for as much work as
their number allows. -/
theorem Step.weight_lt (h : Step d ref p p') :
    ∃ n, p'.pending.length = p.pending.length + n ∧
      p'.task.weight < p.task.weight + n * (5 * relationCount d.registry + 1) := by
  induction h with
  | ask | unanswered | clear => exact ⟨0, rfl, by simp [Task.weight]⟩
  | destroyed => exact ⟨0, rfl, by simp [Task.weight]⟩
  | @claim _ _ _ _ _ _ _ fresh below hclaim htargets =>
    refine ⟨fresh.length, length_of_claimRows hclaim, ?_⟩
    have hlength := length_of_targets htargets
    have hroom : fresh.length * (5 * relationCount d.registry + 1) =
        5 * (relationCount d.registry * fresh.length) + fresh.length := by
      rw [Nat.mul_add, Nat.mul_one, Nat.mul_left_comm, Nat.mul_comm fresh.length]
    simp only [Task.weight, Task.weightAll_targets]
    omega
  | part _ ih =>
    obtain ⟨n, hpending, hweight⟩ := ih
    refine ⟨n, hpending, ?_⟩
    simp only [Task.weight, Task.weightAll_append, Task.weightAll] at hweight ⊢
    omega
  | joined => exact ⟨0, rfl, by simp only [Task.weight]; omega⟩
  | destroy =>
    refine ⟨0, rfl, ?_⟩
    simp only [Task.weight, List.length_append, List.length_cons]
    omega

end TwinStore.Twin
