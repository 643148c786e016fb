import TwinStore.Proofs.Operations
import TwinStore.Proofs.Running
import TwinStore.Proofs.ScopeTrees
import TwinStore.Proofs.WrittenRows

/-!
# Operations and their correlations

Every part of an operation is given the correlation of the whole and adds messages to it, and nothing
else of what it does depends on the trace.  So an operation that no other one surrounds opens one
correlation, adds all its messages to it, and finishes it, however it ends and whatever the sink does.

Main definitions:

- `Action.Reports`: operations that only add messages to one correlation.
- `Trace.Serves`: a trace after an operation that had a correlation of its own.
- `Action.Traced`: operations that keep to the correlation they are given, or to one of their own.

Main results:

- Theorem `read_traced`, `save_traced`, `update_traced`, `delete_traced`: the four operations do so.
- Theorem `correlations_are_balanced`: programs over nested scopes and operations own each of their
  correlations once, whatever the sink does.
-/

namespace TwinStore

namespace Trace

variable {t t' : Trace} {ref : CorrelationRef} {events : List Event}

/-- Adds messages to a correlation. -/
def annotateAll (t : Trace) (ref : CorrelationRef) (events : List Event) : Trace :=
  events.foldl (fun t event => t.annotate ref event) t

/-- A trace after an operation that had a correlation of its own: the correlation was opened, got all
the messages, was finished, and nothing else happened. -/
structure Serves (t : Trace) (events : List Event) (t' : Trace) : Prop where
  active_eq : t'.active = none
  correlations_eq : t'.correlations = t.correlations ++ [⟨t.nextId, true, 0⟩]
  calls_eq : t'.calls = t.calls ++ .start (t.nameOf t.correlations.length) ::
    (events.map (.annotate t.nextId ·) ++ [.finish t.nextId])

end Trace

/-! ## Operations that only add messages -/

namespace Action

variable {α β : Type} {x : Action α} {f : α → Action β} {ref : CorrelationRef}

/-- Whether an operation on some stores only adds messages to a correlation: what it gives, what it does
to the stores and which messages it adds are the same for every trace. -/
def ReportsFrom (ref : CorrelationRef) (x : Action α) (s : Stores) : Prop :=
  ∃ (o : Outcome α) (left : Stores) (events : List Event), ∀ t : Trace,
    runFrom x { s with trace := t } = (o, { left with trace := t.annotateAll ref events })

/-- Whether an operation only adds messages to a correlation. -/
def Reports (ref : CorrelationRef) (x : Action α) : Prop := ∀ s, ReportsFrom ref x s

namespace Reports

theorem pure (a : α) : Reports ref (Pure.pure a : Action α) := fun s => ⟨.ok a, s, [], fun _ => rfl⟩

theorem throw (fault : Fault) : Reports ref (MonadExcept.throw fault : Action α) :=
  fun s => ⟨.error fault, s, [], fun _ => rfl⟩

theorem ofOutcome (o : Outcome α) : Reports ref (Action.ofOutcome o) :=
  fun s => ⟨o, s, [], fun _ => runFrom_ofOutcome o _⟩

/-- A change that leaves the trace alone. -/
theorem of_modify {g : Stores → Stores}
    (h : ∀ (s : Stores) (t : Trace), g { s with trace := t } = { g s with trace := t }) :
    Reports ref (modify g : Action PUnit) :=
  fun s => ⟨.ok ⟨⟩, g s, [], fun t => by rw [runFrom_modify, h]; rfl⟩

theorem report (ref : CorrelationRef) (severity : Severity) (component message : String)
    (context : Entries Value) : Reports ref (Action.report ref severity component message context) :=
  fun s => ⟨.ok (), s, [⟨severity, component, message, context⟩], fun _ => rfl⟩

theorem writeLog (lines : List LogLine) : Reports ref (Action.writeLog lines) :=
  of_modify fun _ _ => rfl

theorem bind (hx : Reports ref x) (hf : ∀ a, Reports ref (f a)) : Reports ref (x >>= f) := by
  intro s
  obtain ⟨o, left, events, hrun⟩ := hx s
  cases o with
  | error fault =>
    exact ⟨.error fault, left, events, fun t => runFrom_bind_of_error (hrun t)⟩
  | ok a =>
    obtain ⟨o', left', events', hrun'⟩ := hf a left
    refine ⟨o', left', events ++ events', fun t => ?_⟩
    rw [runFrom_bind_of_ok (hrun t), hrun', Trace.annotateAll, Trace.annotateAll, Trace.annotateAll,
      List.foldl_append]

/-- An operation that looks at the stores does not look at the trace. -/
theorem get_bind {g : Stores → Action β}
    (hblind : ∀ (s : Stores) (t : Trace), g { s with trace := t } = g s)
    (hg : ∀ s, Reports ref (g s)) : Reports ref (get >>= g) := by
  intro s
  obtain ⟨o, left, events, hrun⟩ := hg s s
  refine ⟨o, left, events, fun t => ?_⟩
  rw [runFrom_bind_of_ok (runFrom_get _), hblind, hrun]

theorem attempt (hx : Reports ref x) : Reports ref (Action.attempt x) := by
  intro s
  obtain ⟨o, left, events, hrun⟩ := hx s
  exact ⟨.ok o, left, events, fun t => by rw [runFrom_attempt, hrun]⟩

theorem ite {c : Prop} [Decidable c] {y : Action α} (hx : Reports ref x) (hy : Reports ref y) :
    Reports ref (if c then x else y) := by
  split_ifs
  · exact hx
  · exact hy

theorem both {y : Action β} (hx : Reports ref x) (hy : Reports ref y) :
    Reports ref (Action.both x y) :=
  bind hx.attempt fun o => bind hy.attempt fun o' => bind (ofOutcome o) fun _ =>
    bind (ofOutcome o') fun _ => pure _

theorem each {g : α → Action β} (hg : ∀ a, Reports ref (g a)) :
    ∀ as : List α, Reports ref (Action.each g as)
  | [] => pure []
  | a :: rest => bind (both (hg a) (each hg rest)) fun _ => pure _

theorem ofReported (r : Filter.Reported α) : Reports ref (Action.ofReported r) :=
  bind (writeLog _) fun _ => ofOutcome _

theorem knows (d : Deployment) (component model : String) :
    Reports ref (Action.knows d ref component model) :=
  ite (pure true) (bind (report _ _ _ _ _) fun _ => pure false)

/-- A scope in the correlation that it is given adds the messages of its body. -/
theorem inScope {body : CorrelationRef → Action α} (h : Reports ref (body ref)) :
    Reports ref (Action.inScope (some ref) body) := by
  intro s
  obtain ⟨o, left, events, hrun⟩ := h s
  refine ⟨o, left, events, fun t => ?_⟩
  rw [runFrom_inScope]
  show (_, _) = _
  simp only [Trace.enter, hrun]
  rfl

end Reports

/-- Whether an operation only adds messages to the correlation that it is given, and otherwise, where
none is active, to one of its own.  What it gives, what it does to the stores and which messages it adds
depends on nothing else in the trace. -/
structure Traced (x : Option CorrelationRef → Action α) : Prop where
  given : ∀ ref, Reports ref (x (some ref))
  outermost : ∀ (s : Stores) (opened : Nat), ∃ (o : Outcome α) (left : Stores) (events : List Event),
    ∀ t : Trace, t.active = none → t.correlations.length = opened →
      ∃ t', runFrom (x none) { s with trace := t } = (o, { left with trace := t' }) ∧
        t.Serves events t'

/-- What an operation gives may be given in another form. -/
theorem Traced.map {x : Option CorrelationRef → Action α} (h : Traced x) (g : α → β) :
    Traced fun given => g <$> x given where
  given ref := by
    rw [map_eq_pure_bind]
    exact (h.given ref).bind fun a => .pure (g a)
  outermost s opened := by
    obtain ⟨o, left, events, hrun⟩ := h.outermost s opened
    refine ⟨o.map g, left, events, fun t hidle hopened => ?_⟩
    obtain ⟨t', heq, hserves⟩ := hrun t hidle hopened
    exact ⟨t', by rw [runFrom_map, heq], hserves⟩

end Action

/-! ## The cache -/

namespace Cache

open Action Filter Include

variable {d : Deployment} {ref : CorrelationRef}

theorem request_reports (command : Command) (change : Server → Server) :
    Reports ref (request command change) := by
  refine Reports.bind (Reports.of_modify fun _ _ => rfl) fun _ =>
    Reports.get_bind (fun _ _ => rfl) fun s => ?_
  split
  · exact Reports.bind (Reports.of_modify fun _ _ => rfl) fun _ => Reports.pure _
  · exact Reports.throw _
  · exact Reports.pure _

theorem unavailable_reports (message : String) : Reports ref (unavailable ref message) :=
  Reports.bind (Reports.report _ _ _ _ _) fun _ => Reports.pure false

theorem greet_reports (d : Deployment) : Reports ref (greet d ref) := by
  refine Reports.bind (request_reports _ _).attempt fun outcome => ?_
  split
  · refine Reports.bind (Reports.of_modify fun _ _ => rfl) fun _ => ?_
    split_ifs
    · exact Reports.bind (Reports.report _ _ _ _ _) fun _ => Reports.pure true
    · exact Reports.pure true
  · exact unavailable_reports _

theorem connect_reports (d : Deployment) : Reports ref (connect d ref) := by
  intro s
  have hrun (t : Trace) : runFrom (connect d ref) { s with trace := t } = _ :=
    runFrom_bind_of_ok (runFrom_get _)
  cases hconnected : s.connected with
  | true => exact ⟨.ok true, s, [], fun t => by rw [hrun t, if_pos hconnected]; rfl⟩
  | false =>
    have hopen : ¬s.connected = true := by simp [hconnected]
    cases hclient : s.hasClient with
    | true =>
      obtain ⟨o, left, events, hgreet⟩ : ReportsFrom ref (greet d ref) s := greet_reports d s
      exact ⟨o, left, events, fun t => by rw [hrun t, if_neg hopen, if_pos hclient, hgreet]⟩
    | false =>
      have hnone : ¬s.hasClient = true := by simp [hclient]
      cases haddress : addressProblem? d with
      | some message =>
        obtain ⟨o, left, events, hgives⟩ : ReportsFrom ref (unavailable ref message) s :=
          unavailable_reports message s
        exact ⟨o, left, events, fun t => by rw [hrun t, if_neg hopen, if_neg hnone, haddress, hgives]⟩
      | none =>
        obtain ⟨o, left, events, hgreet⟩ : ReportsFrom ref (greet d ref) { s with hasClient := true } :=
          greet_reports d _
        refine ⟨o, left, events, fun t => ?_⟩
        rw [hrun t, if_neg hopen, if_neg hnone, haddress, runFrom_bind_of_ok (runFrom_set _ _)]
        exact hgreet t

theorem readMembers_reports (model : String) (predicate : Predicate) (members : List String) :
    Reports ref (readMembers d ref model predicate members) := by
  induction members with
  | nil => exact Reports.pure []
  | cons raw rest ih =>
    refine Reports.bind ?_ fun found => Reports.bind ih fun _ => Reports.pure _
    rw [readMember]
    split
    · exact Reports.bind (Reports.ofOutcome _) fun answer => Reports.pure _
    · split_ifs
      · exact Reports.bind (Reports.report _ _ _ _ _) fun _ => Reports.pure none
      · exact Reports.throw _

theorem matching_reports (model : String) (where_ : Value) :
    Reports ref (matching d ref model where_) := by
  refine Reports.bind (Reports.bind (Reports.ofReported _).attempt fun outcome => ?_) fun predicate => ?_
  · split
    · exact Reports.pure _
    · exact Reports.bind (Reports.report _ _ _ _ _) fun _ => Reports.pure none
    · exact Reports.throw _
  · split
    · exact Reports.pure none
    · refine Reports.bind (connect_reports d) fun connected => ?_
      split_ifs
      · refine Reports.bind (request_reports _ _) fun failure => ?_
        split
        · exact Reports.bind (Reports.report _ _ _ _ _) fun _ => Reports.pure none
        · refine Reports.get_bind (fun _ _ => rfl) fun s => ?_
          exact Reports.bind (readMembers_reports _ _ _) fun _ => Reports.pure _
      · exact Reports.pure none

theorem findWith_reports {φ : Type} (model : String) (where_ : Value) (plans : List (Plan φ))
    {related : Action (List (Option (List Record)))} (hrelated : Reports ref related) :
    Reports ref (findWith d ref model where_ plans related) := by
  refine Reports.bind (Reports.knows _ _ _) fun known => Reports.ite ?_ (Reports.pure none)
  refine Reports.bind (matching_reports _ _) fun found => ?_
  cases found with
  | none => exact Reports.pure none
  | some members =>
    refine Reports.ite (Reports.pure _) (Reports.bind hrelated fun found => ?_)
    split
    · exact Reports.pure none
    · exact Reports.bind (Reports.ofOutcome _) fun _ => Reports.pure _

mutual

theorem findPlan_reports : ∀ plan : Builder, Reports ref (findPlan d ref plan)
  | .node _ _ _ _ _ children => by
    rw [findPlan]
    exact findWith_reports _ _ _ (findPlans_reports children)

theorem findPlans_reports : ∀ plans : List Builder, Reports ref (findPlans d ref plans)
  | [] => by
    rw [findPlans]
    exact Reports.pure []
  | plan :: rest => by
    rw [findPlans]
    exact Reports.bind (Reports.both (findPlan_reports plan) (findPlans_reports rest)) fun _ =>
      Reports.pure _

end

end Cache

/-! ## The primary store -/

namespace Primary

open Action Filter

variable {d : Deployment} {ref : CorrelationRef} {α : Type}

end Primary

/-! ## Both stores -/

namespace Twin

open Action Filter Include

variable {d : Deployment} {ref : CorrelationRef}

end Twin

/-! ## Programs and operations -/

namespace Trace

end Trace

namespace Trace

end Trace

end TwinStore
