import TwinStore.Cache.Change
import TwinStore.Proofs.Effects

/-!
# What the cache leaves alone

Whatever the cache does and however it fails, the primary store stays as it is.

Main definitions:

- `Action.Keeps`: an operation that leaves a part of the stores alone.
- `Action.IsApart`: the parts of the stores that are apart from the cache.
- `Stores.primary`: the part of the stores that belongs to the primary store.

Main result:

- Theorem `Cache.delete_keeps`: a removal from the cache leaves the primary store alone.
-/

namespace TwinStore

/-- The part of the stores that belongs to the primary store: its database, and the outcomes of
deletions that are planned. -/
def Stores.primary (s : Stores) : Primary.Database × List (Option Bool) :=
  (s.database, s.plannedDeletions)

namespace Action

variable {α β γ : Type} {view : Stores → γ}

/-- Whether an operation leaves a part of the stores alone, whatever its outcome. -/
def Keeps (view : Stores → γ) (x : Action α) : Prop := ∀ s, view (runFrom x s).2 = view s

namespace Keeps

variable {x : Action α} {f : α → Action β}

theorem pure (a : α) : Keeps view (Pure.pure a : Action α) := fun _ => rfl

theorem throw (fault : Fault) : Keeps view (MonadExcept.throw fault : Action α) := fun _ => rfl

theorem ofOutcome (o : Outcome α) : Keeps view (Action.ofOutcome o) := by
  intro s
  rw [runFrom_ofOutcome]

theorem of_modify {g : Stores → Stores} (h : ∀ s, view (g s) = view s) :
    Keeps view (modify g : Action PUnit) := h

theorem bind (hx : Keeps view x) (hf : ∀ a, Keeps view (f a)) : Keeps view (x >>= f) := by
  intro s
  have hfirst := hx s
  rw [runFrom_bind]
  split
  · next a s' hrun =>
    rw [hrun] at hfirst
    exact (hf a s').trans hfirst
  · next fault s' hrun =>
    rw [hrun] at hfirst
    exact hfirst

theorem get_bind {f : Stores → Action β} (h : ∀ s, Keeps view (f s)) : Keeps view (get >>= f) := by
  intro s
  rw [runFrom_bind_of_ok (runFrom_get s)]
  exact h s s

theorem attempt (hx : Keeps view x) : Keeps view (Action.attempt x) := by
  intro s
  rw [runFrom_attempt]
  exact hx s

end Keeps

/-! ## Operations of all components -/

/-- Whether a part of the stores is apart from the cache, and from all that is only written but
warnings. -/
structure IsApart (view : Stores → γ) : Prop where
  server : ∀ (s : Stores) (server : Cache.Server), view { s with server } = view s
  connection : ∀ (s : Stores) (hasClient connected : Bool),
    view { s with hasClient, connected } = view s
  log : ∀ (s : Stores) (log : List LogLine), view { s with log } = view s
  report : ∀ ref severity component message context, severity ≠ .warning →
    Keeps view (report ref severity component message context)

/-- The primary store is apart from the cache. -/
theorem isApart_primary : IsApart Stores.primary :=
  ⟨fun _ _ => rfl, fun _ _ _ => rfl, fun _ _ => rfl, fun _ _ _ _ _ _ _ => rfl⟩

/-- What is only written does not belong to the primary store. -/
theorem keeps_report (ref : CorrelationRef) (severity : Severity) (component message : String)
    (context : Entries Value) : Keeps Stores.primary (report ref severity component message context) :=
  Keeps.of_modify fun _ => rfl

theorem keeps_ofReported (hview : IsApart view) (x : Filter.Reported α) :
    Keeps view (ofReported x) :=
  Keeps.bind (Keeps.of_modify fun s => hview.log s _) fun _ => Keeps.ofOutcome _

theorem keeps_knows (hview : IsApart view) (d : Deployment) (ref : CorrelationRef)
    (component model : String) : Keeps view (knows d ref component model) := by
  rw [knows]
  split_ifs
  · exact Keeps.pure true
  · exact Keeps.bind (hview.report _ _ _ _ _ (by simp)) fun _ => Keeps.pure false

theorem keeps_inScope {given : Option CorrelationRef} {body : CorrelationRef → Action α}
    (h : ∀ ref, Keeps Stores.primary (body ref)) : Keeps Stores.primary (inScope given body) := by
  intro s
  rw [runFrom_inScope]
  exact h _ _

end Action

/-! ## Operations of the cache -/

namespace Cache

open Action Filter

variable {d : Deployment} {ref : CorrelationRef} {γ : Type} {view : Stores → γ}

theorem request_keeps (hview : IsApart view) (command : Command) (change : Server → Server) :
    Keeps view (request command change) := by
  refine Keeps.bind (Keeps.of_modify fun s => hview.server s _) fun _ => Keeps.get_bind fun s => ?_
  split
  · exact Keeps.bind (Keeps.of_modify fun s => hview.server s _) fun _ => Keeps.pure _
  · exact Keeps.throw _
  · exact Keeps.pure _

theorem unavailable_keeps (hview : IsApart view) (message : String) :
    Keeps view (unavailable ref message) :=
  Keeps.bind (hview.report _ _ _ _ _ nofun) fun _ => Keeps.pure _

theorem greet_keeps (hview : IsApart view) (d : Deployment) : Keeps view (greet d ref) := by
  refine Keeps.bind (Keeps.attempt (request_keeps hview _ _)) fun outcome => ?_
  split
  · refine Keeps.bind (Keeps.of_modify fun s => hview.connection s s.hasClient true) fun _ => ?_
    split_ifs
    · exact Keeps.bind (hview.report _ _ _ _ _ nofun) fun _ => Keeps.pure _
    · exact Keeps.pure _
  · exact unavailable_keeps hview _

theorem connect_keeps (hview : IsApart view) (d : Deployment) : Keeps view (connect d ref) := by
  intro s
  rw [connect, runFrom_bind_of_ok (runFrom_get s)]
  cases hconnected : s.connected with
  | true => rfl
  | false =>
    cases hclient : s.hasClient with
    | true => exact greet_keeps hview d s
    | false =>
      cases addressProblem? d with
      | some message => exact unavailable_keeps hview message s
      | none =>
        show view (runFrom (set _ >>= fun _ => greet d ref) s).2 = view s
        rw [runFrom_bind_of_ok (runFrom_set _ s), greet_keeps hview d]
        exact hview.connection s true false

theorem predicateOf_keeps (hview : IsApart view) (model : String) (where_ : Value) :
    Keeps view (predicateOf? d ref model where_) := by
  refine Keeps.bind (Keeps.attempt (keeps_ofReported hview _)) fun outcome => ?_
  split
  · exact Keeps.pure _
  · exact Keeps.bind (hview.report _ _ _ _ _ nofun) fun _ => Keeps.pure _
  · exact Keeps.throw _

theorem readMembers_keeps (model : String) (predicate : Predicate) (members : List String) :
    Keeps Stores.primary (readMembers d ref model predicate members) := by
  induction members with
  | nil => exact Keeps.pure _
  | cons raw rest ih =>
    refine Keeps.bind ?_ fun found => Keeps.bind ih fun _ => Keeps.pure _
    rw [readMember]
    split
    · refine Keeps.bind (Keeps.ofOutcome _) fun answer => ?_
      exact Keeps.pure _
    · split_ifs
      · exact Keeps.bind (keeps_report _ _ _ _ _) fun _ => Keeps.pure _
      · exact Keeps.throw _

theorem matching_keeps (model : String) (where_ : Value) :
    Keeps Stores.primary (matching d ref model where_) := by
  refine Keeps.bind (predicateOf_keeps isApart_primary model where_) fun predicate => ?_
  split
  · exact Keeps.pure _
  · refine Keeps.bind (connect_keeps isApart_primary d) fun connected => ?_
    split_ifs
    · refine Keeps.bind (request_keeps isApart_primary _ _) fun failure => ?_
      split
      · exact Keeps.bind (keeps_report _ _ _ _ _) fun _ => Keeps.pure _
      · refine Keeps.get_bind fun s => ?_
        exact Keeps.bind (readMembers_keeps _ _ _) fun _ => Keeps.pure _
    · exact Keeps.pure _

/-- A removal from the cache leaves the primary store alone. -/
theorem delete_keeps (given : Option CorrelationRef) (model : String) (where_ : Value) :
    Keeps Stores.primary (delete d given model where_) := by
  refine keeps_inScope fun ref => Keeps.bind (keeps_knows isApart_primary _ _ _ _) fun known => ?_
  split_ifs
  · refine Keeps.bind (matching_keeps _ _) fun found => ?_
    split
    · exact Keeps.pure _
    · exact Keeps.pure _
    · refine Keeps.bind (request_keeps isApart_primary _ _) fun failure => ?_
      split
      · exact Keeps.bind (keeps_report _ _ _ _ _) fun _ => Keeps.pure _
      · exact Keeps.pure _
  · exact Keeps.pure _

end Cache

end TwinStore
