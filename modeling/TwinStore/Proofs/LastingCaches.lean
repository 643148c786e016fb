import TwinStore.Proofs.CacheCalls

/-!
# A cache that goes on answering

No operation of the cache gives up its connection or makes a command fail.  So a cache that can be
reached and answers every command does so after any calls.

Main definition:

- `Action.KeepsUp`: an operation that leaves a cache up that is up.

Main results:

- Theorem `Cache.create_keepsUp`, `Cache.delete_keepsUp`, `Cache.update_keepsUp`, `Cache.find_keepsUp`:
  the operations of the cache do so.
- Theorem `Cache.perform_keepsUp`: so does every call.
-/

namespace TwinStore

namespace Action

variable {α β : Type} {d : Deployment}

/-- Whether an operation leaves a cache up that is up, whatever its outcome. -/
def KeepsUp (d : Deployment) (x : Action α) : Prop := ∀ s, s.IsUp d → (runFrom x s).2.IsUp d

namespace KeepsUp

variable {x : Action α} {f : α → Action β}

theorem pure (a : α) : KeepsUp d (Pure.pure a : Action α) := fun _ hs => hs

theorem throw (fault : Fault) : KeepsUp d (MonadExcept.throw fault : Action α) := fun _ hs => hs

theorem ofOutcome (o : Outcome α) : KeepsUp d (Action.ofOutcome o) := by
  intro s hs
  rw [runFrom_ofOutcome]
  exact hs

theorem of_modify {g : Stores → Stores} (h : ∀ s, s.IsUp d → (g s).IsUp d) :
    KeepsUp d (modify g : Action PUnit) := h

theorem bind (hx : KeepsUp d x) (hf : ∀ a, KeepsUp d (f a)) : KeepsUp d (x >>= f) := by
  intro s hs
  have hfirst := hx s hs
  rw [runFrom_bind]
  split
  · next a s' hrun =>
    rw [hrun] at hfirst
    exact hf a s' hfirst
  · next fault s' hrun =>
    rw [hrun] at hfirst
    exact hfirst

/-- An operation that looks at the stores sees a cache that is up. -/
theorem get_bind {f : Stores → Action β} (h : ∀ s, s.IsUp d → KeepsUp d (f s)) :
    KeepsUp d (get >>= f) := by
  intro s hs
  rw [runFrom_bind_of_ok (runFrom_get s)]
  exact h s hs s hs

theorem attempt (hx : KeepsUp d x) : KeepsUp d (Action.attempt x) := by
  intro s hs
  rw [runFrom_attempt]
  exact hx s hs

theorem ite {c : Prop} [Decidable c] {y : Action α} (hx : KeepsUp d x) (hy : KeepsUp d y) :
    KeepsUp d (if c then x else y) := by
  split_ifs
  · exact hx
  · exact hy

theorem inScope {given : Option CorrelationRef} {body : CorrelationRef → Action α}
    (h : ∀ ref, KeepsUp d (body ref)) : KeepsUp d (Action.inScope given body) := by
  intro s hs
  rw [runFrom_inScope]
  have hbody := h (s.trace.enter given).2.1 { s with trace := (s.trace.enter given).1 }
    ⟨hs.answers, hs.reachable⟩
  exact ⟨hbody.answers, hbody.reachable⟩

/-! ## Operations of all components -/

theorem report (ref : CorrelationRef) (severity : Severity) (component message : String)
    (context : Entries Value) : KeepsUp d (Action.report ref severity component message context) :=
  of_modify fun _ hs => ⟨hs.answers, hs.reachable⟩

/-- What is reported before an answer leaves the cache up. -/
theorem report_bind (ref : CorrelationRef) (severity : Severity) (component message : String)
    (context : Entries Value) (a : α) :
    KeepsUp d (Action.report ref severity component message context >>= fun _ => Pure.pure a) :=
  bind (report ref severity component message context) fun _ => pure a

theorem ofReported (x : Filter.Reported α) : KeepsUp d (Action.ofReported x) :=
  bind (of_modify fun _ hs => ⟨hs.answers, hs.reachable⟩) fun _ => ofOutcome _

theorem knows (d' : Deployment) (ref : CorrelationRef) (component model : String) :
    KeepsUp d (Action.knows d' ref component model) :=
  ite (pure true) (report_bind _ _ _ _ _ false)

end KeepsUp

end Action

namespace Cache

open Action Filter

variable {d : Deployment} {ref : CorrelationRef}

/-! ## Commands -/

/-- A command leaves the cache up, if its change makes no command fail. -/
theorem request_keepsUp (command : Command) {change : Server → Server}
    (h : ∀ server, (change server).outages = server.outages) :
    KeepsUp d (request command change) := by
  refine KeepsUp.bind (KeepsUp.of_modify fun s hs => ⟨hs.answers, hs.reachable⟩) fun _ =>
    KeepsUp.get_bind fun s _ => ?_
  split
  · refine KeepsUp.bind (KeepsUp.of_modify fun s hs => ⟨fun c => ?_, hs.reachable⟩)
      fun _ => KeepsUp.pure none
    show Entries.get? (change s.server).outages c.name = none
    rw [h]
    exact hs.answers c
  · exact KeepsUp.throw _
  · exact KeepsUp.pure _

theorem greet_keepsUp (d : Deployment) (ref : CorrelationRef) : KeepsUp d (greet d ref) := by
  refine KeepsUp.bind (KeepsUp.attempt (request_keepsUp .ping fun _ => rfl)) fun outcome => ?_
  split
  · refine KeepsUp.bind (KeepsUp.of_modify fun s hs => ⟨hs.answers, .inl rfl⟩) fun _ => ?_
    split_ifs
    · exact KeepsUp.report_bind _ _ _ _ _ true
    · exact KeepsUp.pure true
  · exact KeepsUp.report_bind _ _ _ _ _ false

theorem connect_keepsUp (d : Deployment) (ref : CorrelationRef) : KeepsUp d (connect d ref) := by
  refine KeepsUp.get_bind fun s hs => ?_
  split_ifs
  · exact KeepsUp.pure true
  · exact greet_keepsUp d ref
  · split
    · exact KeepsUp.report_bind _ _ _ _ _ false
    · exact KeepsUp.bind (fun _ _ => ⟨hs.answers, .inr (.inl rfl)⟩) fun _ => greet_keepsUp d ref

/-! ## Searches -/

theorem readMembers_keepsUp (model : String) (predicate : Predicate) (members : List String) :
    KeepsUp d (readMembers d ref model predicate members) := by
  induction members with
  | nil => exact KeepsUp.pure []
  | cons raw rest ih =>
    refine KeepsUp.bind ?_ fun found => KeepsUp.bind ih fun _ => KeepsUp.pure _
    rw [readMember]
    split
    · exact KeepsUp.bind (KeepsUp.ofOutcome _) fun answer => KeepsUp.pure _
    · exact KeepsUp.ite (KeepsUp.report_bind _ _ _ _ _ none) (KeepsUp.throw _)

theorem matching_keepsUp (model : String) (where_ : Value) :
    KeepsUp d (matching d ref model where_) := by
  have hpredicate : KeepsUp d (predicateOf? d ref model where_) := by
    refine KeepsUp.bind (KeepsUp.attempt (KeepsUp.ofReported _)) fun outcome => ?_
    split
    · exact KeepsUp.pure _
    · exact KeepsUp.report_bind _ _ _ _ _ none
    · exact KeepsUp.throw _
  refine KeepsUp.bind hpredicate fun predicate => ?_
  split
  · exact KeepsUp.pure none
  · refine KeepsUp.bind (connect_keepsUp d ref) fun connected => KeepsUp.ite ?_ (KeepsUp.pure none)
    refine KeepsUp.bind (request_keepsUp .members fun _ => rfl) fun failure => ?_
    split
    · exact KeepsUp.report_bind _ _ _ _ _ none
    · exact KeepsUp.get_bind fun s _ =>
        KeepsUp.bind (readMembers_keepsUp _ _ _) fun _ => KeepsUp.pure _

/-- A search without related records leaves the cache up. -/
theorem find_keepsUp (given : Option CorrelationRef) (model : String) (where_ : Value) :
    KeepsUp d (find d given model where_ []) := by
  refine KeepsUp.inScope fun ref => KeepsUp.bind (KeepsUp.knows _ _ _ _) fun known =>
    KeepsUp.ite ?_ (KeepsUp.pure none)
  refine KeepsUp.bind (matching_keepsUp model where_) fun found => ?_
  cases found <;> exact KeepsUp.pure _

/-! ## Changes -/

theorem add_keepsUp (key : String) (members : List String) :
    KeepsUp d (request .add (·.add key members)) := request_keepsUp .add fun _ => rfl

theorem remove_keepsUp (key : String) (members : List String) :
    KeepsUp d (request .remove (·.remove key members)) := request_keepsUp .remove fun _ => rfl

theorem create_keepsUp (given : Option CorrelationRef) (model : String) (records : Value) :
    KeepsUp d (create d given model records) := by
  refine KeepsUp.inScope fun ref => KeepsUp.bind (KeepsUp.knows _ _ _ _) fun known =>
    KeepsUp.ite (KeepsUp.ite ?_ (KeepsUp.pure _)) (KeepsUp.pure none)
  split
  · exact KeepsUp.report_bind _ _ _ _ _ none
  · exact KeepsUp.throw _
  · refine KeepsUp.bind (connect_keepsUp d ref) fun connected => KeepsUp.ite ?_ (KeepsUp.pure none)
    refine KeepsUp.bind (add_keepsUp _ _) fun failure => ?_
    split
    · exact KeepsUp.report_bind _ _ _ _ _ none
    · exact KeepsUp.pure _

theorem delete_keepsUp (given : Option CorrelationRef) (model : String) (where_ : Value) :
    KeepsUp d (delete d given model where_) := by
  refine KeepsUp.inScope fun ref => KeepsUp.bind (KeepsUp.knows _ _ _ _) fun known =>
    KeepsUp.ite ?_ (KeepsUp.pure none)
  refine KeepsUp.bind (matching_keepsUp model where_) fun found => ?_
  split
  · exact KeepsUp.pure none
  · exact KeepsUp.pure _
  · refine KeepsUp.bind (remove_keepsUp _ _) fun failure => ?_
    split
    · exact KeepsUp.report_bind _ _ _ _ _ none
    · exact KeepsUp.pure _

theorem replace_keepsUp (model : String) (old new : List String) :
    KeepsUp d (replace d ref model old new) := by
  refine KeepsUp.bind (remove_keepsUp _ _) fun removal => ?_
  cases removal with
  | none =>
    refine KeepsUp.bind (add_keepsUp _ _) fun addition => ?_
    cases addition with
    | none => exact KeepsUp.pure _
    | some failure => exact KeepsUp.report_bind _ _ _ _ _ _
  | some failure =>
    refine KeepsUp.bind (KeepsUp.report _ _ _ _ _) fun _ => KeepsUp.bind (add_keepsUp _ _)
      fun addition => ?_
    cases addition <;> exact KeepsUp.report_bind _ _ _ _ _ _

theorem update_keepsUp (given : Option CorrelationRef) (model : String) (spec where_ : Value) :
    KeepsUp d (update d given model spec where_) := by
  refine KeepsUp.inScope fun ref => KeepsUp.bind (KeepsUp.knows _ _ _ _) fun known =>
    KeepsUp.ite ?_ (KeepsUp.pure none)
  refine KeepsUp.bind (KeepsUp.ofOutcome _) fun fields =>
    KeepsUp.ite ?_ (KeepsUp.report_bind _ _ _ _ _ none)
  refine KeepsUp.bind (matching_keepsUp model where_) fun found => ?_
  split
  · exact KeepsUp.pure none
  · exact KeepsUp.pure _
  · split
    · exact KeepsUp.report_bind _ _ _ _ _ none
    · exact KeepsUp.report_bind _ _ _ _ _ none
    · exact KeepsUp.throw _
    · exact replace_keepsUp model _ _

/-- Every call leaves the cache up. -/
theorem perform_keepsUp (call : Call) (given : Option CorrelationRef) :
    KeepsUp d (call.perform d given) := by
  cases call with
  | create => exact KeepsUp.bind (create_keepsUp given _ _) fun _ => KeepsUp.pure _
  | delete => exact KeepsUp.bind (delete_keepsUp given _ _) fun _ => KeepsUp.pure _
  | update => exact KeepsUp.bind (update_keepsUp given _ _ _) fun _ => KeepsUp.pure _
  | find => exact KeepsUp.bind (find_keepsUp given _ _) fun _ => KeepsUp.pure _

end Cache

end TwinStore
