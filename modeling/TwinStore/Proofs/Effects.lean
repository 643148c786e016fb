import TwinStore.Proofs.Running

/-!
# What operations do to the stores

The trace and the log are written by every operation and decide nothing.  What an operation does is
said for all stores that agree in the rest: which outcome it has, and what it leaves.

Main definitions:

- `Stores.content`: the stores without trace and log.
- `Action.Leads`: the outcome of an operation and what holds of the content that it leaves.
- `Action.Gives`: the same for one content before and one after.
- `Action.Ensures`: what holds of the result and of the content, if there is a result.
- `Action.Yields`: that there is a result, and what holds of it and of the content.

Main results:

- Theorem `Leads.bind`, `Leads.inScope`, `Leads.both`: what composed operations do follows from what
  their parts do.
-/

namespace TwinStore

/-- The stores without what is only written: the trace and the log. -/
def Stores.content (s : Stores) : Stores := { s with trace := {}, log := [] }

@[simp]
theorem Stores.content_content (s : Stores) : s.content.content = s.content := rfl

@[simp]
theorem Stores.content_trace (s : Stores) (trace : Trace) :
    { s with trace := trace }.content = s.content := rfl

@[simp]
theorem Stores.content_log (s : Stores) (log : List LogLine) :
    { s with log := log }.content = s.content := rfl

/-- Stores of the same content have the same database and the same planned deletions. -/
theorem Stores.eq_of_content {s s' : Stores} (h : s'.content = s.content) :
    s'.database = s.database ∧ s'.plannedDeletions = s.plannedDeletions := by
  have hdatabase : s'.content.database = s.content.database := congrArg Stores.database h
  have hplanned : s'.content.plannedDeletions = s.content.plannedDeletions :=
    congrArg Stores.plannedDeletions h
  exact ⟨hdatabase, hplanned⟩

namespace Action

variable {α β : Type}

/-- Whether an operation on stores whose content satisfies a condition has an outcome and leaves a
content that satisfies another, whatever is in the trace and in the log. -/
def Leads (x : Action α) (P : Stores → Prop) (outcome : Outcome α) (Q : Stores → Prop) : Prop :=
  ∀ s, P s.content → ∃ s', runFrom x s = (outcome, s') ∧ Q s'.content

/-- Whether an operation on stores of some content has an outcome and leaves a content. -/
def Gives (x : Action α) (before : Stores) (outcome : Outcome α) (after : Stores) : Prop :=
  x.Leads (· = before) outcome (· = after)

namespace Leads

variable {x : Action α} {f : α → Action β} {a : α} {o : Outcome α} {o' : Outcome β}
  {P Q R : Stores → Prop}

/-! ## Single operations -/

theorem pure (a : α) (P : Stores → Prop) : (Pure.pure a : Action α).Leads P (.ok a) P :=
  fun s hs => ⟨s, rfl, hs⟩

theorem throw (fault : Fault) (P : Stores → Prop) :
    (MonadExcept.throw fault : Action α).Leads P (.error fault) P :=
  fun s hs => ⟨s, rfl, hs⟩

theorem ofOutcome (o : Outcome α) (P : Stores → Prop) : (Action.ofOutcome o).Leads P o P :=
  fun s hs => ⟨s, runFrom_ofOutcome o s, hs⟩

/-- A result as an operation. -/
theorem of_eq_ok (h : o = .ok a) (P : Stores → Prop) : (Action.ofOutcome o).Leads P (.ok a) P :=
  h ▸ ofOutcome o P

theorem ofReported (r : Filter.Reported α) (P : Stores → Prop) :
    (Action.ofReported r).Leads P r.run.2 P :=
  fun s hs => ⟨_, runFrom_ofReported r s, hs⟩

theorem writeLog (lines : List LogLine) (P : Stores → Prop) :
    (Action.writeLog lines).Leads P (.ok ()) P :=
  fun _ hs => ⟨_, runFrom_modify _ _, hs⟩

theorem report (ref : CorrelationRef) (severity : Severity) (component message : String)
    (context : Entries Value) (P : Stores → Prop) :
    (Action.report ref severity component message context).Leads P (.ok ()) P :=
  fun s hs => ⟨_, runFrom_report ref severity component message context s, hs⟩

/-- A change of the stores changes their content. -/
theorem of_modify {g : Stores → Stores} (h : ∀ s, P s.content → Q (g s).content) :
    (modify g : Action PUnit).Leads P (.ok ⟨⟩) Q :=
  fun s hs => ⟨g s, runFrom_modify g s, h s hs⟩

/-! ## Composed operations -/

/-- Less may be known before, and less be said afterwards. -/
theorem weaken {P' Q' : Stores → Prop} (hx : x.Leads P o Q) (hP : ∀ c, P' c → P c)
    (hQ : ∀ c, Q c → Q' c) : x.Leads P' o Q' := by
  intro s hs
  obtain ⟨s', hrun, hs'⟩ := hx s (hP _ hs)
  exact ⟨s', hrun, hQ _ hs'⟩

/-- An operation after a successful one goes on with its result. -/
theorem bind (hx : x.Leads P (.ok a) R) (hf : (f a).Leads R o' Q) : (x >>= f).Leads P o' Q := by
  intro s hs
  obtain ⟨s₁, hrun, hs₁⟩ := hx s hs
  obtain ⟨s', hrun', hs'⟩ := hf s₁ hs₁
  exact ⟨s', (runFrom_bind_of_ok hrun).trans hrun', hs'⟩

/-- An operation that fails ends the sequence. -/
theorem bind_error {fault : Fault} (hx : x.Leads P (.error fault) Q) :
    (x >>= f).Leads P (.error fault) Q := by
  intro s hs
  obtain ⟨s', hrun, hs'⟩ := hx s hs
  exact ⟨s', runFrom_bind_of_error hrun, hs'⟩

/-- What is made of a result is made of the outcome. -/
theorem bind_pure {g : α → β} (hx : x.Leads P o Q) :
    (x >>= fun a => Pure.pure (g a)).Leads P (o.map g) Q := by
  cases o with
  | ok a => exact bind hx (pure _ Q)
  | error fault => exact bind_error hx

/-- An operation that looks at the stores sees their content. -/
theorem get_bind {f : Stores → Action β}
    (h : ∀ s, P s.content → (f s).Leads (· = s.content) o' Q) : (get >>= f).Leads P o' Q := by
  intro s hs
  obtain ⟨s', hrun, hs'⟩ := h s hs s rfl
  exact ⟨s', (runFrom_bind_of_ok (runFrom_get s)).trans hrun, hs'⟩

/-- The outcome of an attempt is a result. -/
theorem attempt (hx : x.Leads P o Q) : (Action.attempt x).Leads P (.ok o) Q := by
  intro s hs
  obtain ⟨s', hrun, hs'⟩ := hx s hs
  exact ⟨s', by rw [runFrom_attempt, hrun], hs'⟩

/-- A scope leaves its trace behind and nothing else. -/
theorem inScope {given : Option CorrelationRef} {body : CorrelationRef → Action α}
    (h : ∀ ref, (body ref).Leads P o Q) : (Action.inScope given body).Leads P o Q := by
  intro s hs
  obtain ⟨s', hrun, hs'⟩ :=
    h (s.trace.enter given).2.1 { s with trace := (s.trace.enter given).1 } hs
  refine ⟨{ s' with trace := s'.trace.leave (s.trace.enter given).2.1 (s.trace.enter given).2.2 },
    ?_, hs'⟩
  simp only [runFrom_inScope, hrun]

/-- Two operations side by side work one after the other. -/
theorem both {y : Action β} (hx : x.Leads P o R) (hy : y.Leads R o' Q) :
    (Action.both x y).Leads P (do return (← o, ← o')) Q := by
  refine bind hx.attempt (bind hy.attempt ?_)
  cases o with
  | error fault => exact bind_error (ofOutcome _ _)
  | ok a =>
    refine bind (ofOutcome _ _) ?_
    cases o' with
    | error fault => exact bind_error (ofOutcome _ _)
    | ok b => exact bind (ofOutcome _ _) (pure _ _)

/-- A registered model is known. -/
theorem knows {d : Deployment} {model : String} (h : d.registry.hasModel model = true)
    (ref : CorrelationRef) (component : String) (P : Stores → Prop) :
    (Action.knows d ref component model).Leads P (.ok true) P := by
  rw [Action.knows, if_pos h]
  exact pure true P

/-- A model that is not registered is unknown. -/
theorem unknown {d : Deployment} {model : String} (h : d.registry.hasModel model = false)
    (ref : CorrelationRef) (component : String) (P : Stores → Prop) :
    (Action.knows d ref component model).Leads P (.ok false) P := by
  rw [Action.knows, if_neg (Bool.eq_false_iff.mp h)]
  exact bind (report _ _ _ _ _ _) (pure false P)

/-- What is said of every content holds of a condition on it. -/
theorem of_gives (h : ∀ c, P c → ∃ c', x.Gives c o c' ∧ Q c') : x.Leads P o Q := by
  intro s hs
  obtain ⟨c', hx, hc'⟩ := h s.content hs
  obtain ⟨s', hrun, rfl⟩ := hx s rfl
  exact ⟨s', hrun, hc'⟩

end Leads

namespace Gives

variable {x : Action α} {f : α → Action β} {a : α} {o : Outcome α} {o' : Outcome β}
  {c c₁ c' : Stores}

theorem pure (a : α) (c : Stores) : (Pure.pure a : Action α).Gives c (.ok a) c :=
  Leads.pure a _

theorem throw (fault : Fault) (c : Stores) :
    (MonadExcept.throw fault : Action α).Gives c (.error fault) c :=
  Leads.throw fault _

theorem ofOutcome (o : Outcome α) (c : Stores) : (Action.ofOutcome o).Gives c o c :=
  Leads.ofOutcome o _

theorem ofReported (r : Filter.Reported α) (c : Stores) :
    (Action.ofReported r).Gives c r.run.2 c :=
  Leads.ofReported r _

theorem report (ref : CorrelationRef) (severity : Severity) (component message : String)
    (context : Entries Value) (c : Stores) :
    (Action.report ref severity component message context).Gives c (.ok ()) c :=
  Leads.report ref severity component message context _

theorem of_modify {g : Stores → Stores} (h : ∀ s, s.content = c → (g s).content = c') :
    (modify g : Action PUnit).Gives c (.ok ⟨⟩) c' :=
  Leads.of_modify h

theorem bind (hx : x.Gives c (.ok a) c₁) (hf : (f a).Gives c₁ o' c') : (x >>= f).Gives c o' c' :=
  Leads.bind hx hf

theorem bind_error {fault : Fault} (hx : x.Gives c (.error fault) c') :
    (x >>= f).Gives c (.error fault) c' :=
  Leads.bind_error hx

theorem get_bind {f : Stores → Action β} (h : ∀ s, s.content = c → (f s).Gives c o' c') :
    (get >>= f).Gives c o' c' := by
  refine Leads.get_bind fun s hs => ?_
  rw [hs]
  exact h s hs

theorem attempt (hx : x.Gives c o c') : (Action.attempt x).Gives c (.ok o) c' :=
  Leads.attempt hx

theorem inScope {given : Option CorrelationRef} {body : CorrelationRef → Action α}
    (h : ∀ ref, (body ref).Gives c o c') : (Action.inScope given body).Gives c o c' :=
  Leads.inScope h

theorem knows {d : Deployment} {model : String} (h : d.registry.hasModel model = true)
    (ref : CorrelationRef) (component : String) (c : Stores) :
    (Action.knows d ref component model).Gives c (.ok true) c :=
  Leads.knows h ref component _

/-- What an operation gives is its outcome. -/
theorem outcome_eq (hx : x.Gives c o c') {s s' : Stores} {o₁ : Outcome α} (hs : s.content = c)
    (h : runFrom x s = (o₁, s')) : o₁ = o ∧ s'.content = c' := by
  obtain ⟨s'', hrun, hs''⟩ := hx s hs
  rw [h] at hrun
  obtain ⟨rfl, rfl⟩ := Prod.mk.inj hrun
  exact ⟨rfl, hs''⟩

end Gives

/-! ## Results -/

/-- Whether an operation on stores whose content satisfies a condition has only results for which,
with the content that it leaves, another condition holds. -/
def Ensures (P : Stores → Prop) (x : Action α) (Q : α → Stores → Prop) : Prop :=
  ∀ s a s', P s.content → runFrom x s = (.ok a, s') → Q a s'.content

namespace Ensures

variable {x : Action α} {f : α → Action β} {a : α} {P : Stores → Prop} {Q : α → Stores → Prop}
  {R : β → Stores → Prop}

theorem pure (h : ∀ c, P c → Q a c) : Ensures P (Pure.pure a) Q := by
  intro s b s' hs hrun
  obtain ⟨heq, rfl⟩ := Prod.mk.inj hrun
  obtain rfl := Except.ok.inj heq
  exact h _ hs

/-- An operation with a known outcome has no other result. -/
theorem of_leads {o : Outcome α} {P' : Stores → Prop} (hx : x.Leads P o P')
    (h : ∀ a c, o = .ok a → P' c → Q a c) : Ensures P x Q := by
  intro s a s' hs hrun
  obtain ⟨s'', hrun', hs''⟩ := hx s hs
  obtain ⟨rfl, rfl⟩ := Prod.mk.inj (hrun'.symm.trans hrun)
  exact h a _ rfl hs''

theorem bind (hx : Ensures P x Q) (hf : ∀ a, Ensures (Q a) (f a) R) : Ensures P (x >>= f) R := by
  intro s b s' hs hrun
  obtain ⟨a, s₁, hfirst, hrest⟩ := runFrom_bind_eq_ok.mp hrun
  exact hf a s₁ b s' (hx s a s₁ hs hfirst) hrest

/-- An operation after one with a known result. -/
theorem leads_bind {P' : Stores → Prop} (hx : x.Leads P (.ok a) P') (hf : Ensures P' (f a) R) :
    Ensures P (x >>= f) R :=
  bind (of_leads (Q := fun b c => b = a ∧ P' c) hx fun _ _ heq hc => ⟨(Except.ok.inj heq).symm, hc⟩)
    fun b s r s' hs hrun => by
      obtain ⟨rfl, hs⟩ := hs
      exact hf s r s' hs hrun

/-- What is ensured from each content is ensured from all. -/
theorem of_content (h : ∀ c, P c → Ensures (· = c) x Q) : Ensures P x Q :=
  fun s a s' hs hrun => h s.content hs s a s' rfl hrun

/-- An operation that looks at the stores sees their content. -/
theorem get_bind {f : Stores → Action β} (h : ∀ s, P s.content → Ensures (· = s.content) (f s) R) :
    Ensures P (get >>= f) R := by
  intro s b s' hs hrun
  rw [runFrom_bind_of_ok (runFrom_get s)] at hrun
  exact h s hs s b s' rfl hrun

/-- Two operations side by side work one after the other, if both succeed. -/
theorem both {y : Action β} {P' Q' : Stores → Prop} (hx : Ensures P x fun _ => P')
    (hy : Ensures P' y fun _ => Q') : Ensures P (Action.both x y) fun _ => Q' := by
  intro s r s' hs hrun
  obtain ⟨o, s₁, hfirst, hrun⟩ := runFrom_bind_eq_ok.mp hrun
  obtain ⟨o', s₂, hsecond, hrun⟩ := runFrom_bind_eq_ok.mp hrun
  obtain ⟨a, s₃, ha, hrun⟩ := runFrom_bind_eq_ok.mp hrun
  obtain ⟨b, s₄, hb, hrun⟩ := runFrom_bind_eq_ok.mp hrun
  rw [runFrom_attempt] at hfirst hsecond
  rw [runFrom_ofOutcome] at ha hb
  obtain ⟨ho, rfl⟩ := Prod.mk.inj hfirst
  obtain ⟨ho', rfl⟩ := Prod.mk.inj hsecond
  obtain ⟨rfl, rfl⟩ := Prod.mk.inj ha
  obtain ⟨rfl, rfl⟩ := Prod.mk.inj hb
  obtain ⟨_, rfl⟩ := Prod.mk.inj hrun
  exact hy _ b _ (hx s a _ hs (Prod.ext (Except.ok.inj ho) rfl))
    (Prod.ext (Except.ok.inj ho') rfl)

theorem map {g : α → β} (hx : Ensures P x fun a c => R (g a) c) : Ensures P (g <$> x) R := by
  intro s b s' hs hrun
  rw [runFrom_map] at hrun
  obtain ⟨houtcome, rfl⟩ := Prod.mk.inj hrun
  obtain ⟨a, ha, rfl⟩ := Outcome.map_eq_ok.mp houtcome
  exact hx s a _ hs (Prod.ext ha rfl)

/-- A scope leaves its trace behind and nothing else. -/
theorem inScope {given : Option CorrelationRef} {body : CorrelationRef → Action α}
    (h : ∀ ref, Ensures P (body ref) Q) : Ensures P (Action.inScope given body) Q := by
  intro s a s' hs hrun
  rw [runFrom_inScope] at hrun
  obtain ⟨houtcome, rfl⟩ := Prod.mk.inj hrun
  cases hbody : runFrom (body (s.trace.enter given).2.1)
      { s with trace := (s.trace.enter given).1 } with
  | mk o s₁ =>
    rw [hbody] at houtcome
    obtain rfl : o = .ok a := houtcome
    exact h _ { s with trace := (s.trace.enter given).1 } a s₁ hs hbody

theorem weaken {Q' : α → Stores → Prop} {P' : Stores → Prop} (hx : Ensures P x Q)
    (hP : ∀ c, P' c → P c) (hQ : ∀ a c, Q a c → Q' a c) : Ensures P' x Q' :=
  fun s a s' hs hrun => hQ a _ (hx s a s' (hP _ hs) hrun)

end Ensures

/-- Whether an operation on stores whose content satisfies a condition has a result, for which, with
the content that it leaves, another condition holds. -/
def Yields (P : Stores → Prop) (x : Action α) (Q : α → Stores → Prop) : Prop :=
  ∀ s, P s.content → ∃ a s', runFrom x s = (.ok a, s') ∧ Q a s'.content

namespace Yields

variable {x : Action α} {f : α → Action β} {a : α} {P : Stores → Prop} {Q : α → Stores → Prop}
  {R : β → Stores → Prop}

theorem pure (h : ∀ c, P c → Q a c) : Yields P (Pure.pure a) Q :=
  fun s hs => ⟨a, s, rfl, h _ hs⟩

/-- An operation with a known result has one. -/
theorem of_leads {P' : Stores → Prop} (hx : x.Leads P (.ok a) P') (h : ∀ c, P' c → Q a c) :
    Yields P x Q := by
  intro s hs
  obtain ⟨s', hrun, hs'⟩ := hx s hs
  exact ⟨a, s', hrun, h _ hs'⟩

theorem bind (hx : Yields P x Q) (hf : ∀ a, Yields (Q a) (f a) R) : Yields P (x >>= f) R := by
  intro s hs
  obtain ⟨a, s₁, hrun, hs₁⟩ := hx s hs
  obtain ⟨b, s', hrun', hs'⟩ := hf a s₁ hs₁
  exact ⟨b, s', (runFrom_bind_of_ok hrun).trans hrun', hs'⟩

/-- An operation after one with a known result. -/
theorem leads_bind {P' : Stores → Prop} (hx : x.Leads P (.ok a) P') (hf : Yields P' (f a) R) :
    Yields P (x >>= f) R := by
  intro s hs
  obtain ⟨s₁, hrun, hs₁⟩ := hx s hs
  obtain ⟨b, s', hrun', hs'⟩ := hf s₁ hs₁
  exact ⟨b, s', (runFrom_bind_of_ok hrun).trans hrun', hs'⟩

/-- What is yielded from each content is yielded from all. -/
theorem of_content (h : ∀ c, P c → Yields (· = c) x Q) : Yields P x Q :=
  fun s hs => h s.content hs s rfl

/-- An operation that looks at the stores sees their content. -/
theorem get_bind {f : Stores → Action β} (h : ∀ s, P s.content → Yields (· = s.content) (f s) R) :
    Yields P (get >>= f) R := by
  intro s hs
  obtain ⟨b, s', hrun, hs'⟩ := h s hs s rfl
  exact ⟨b, s', (runFrom_bind_of_ok (runFrom_get s)).trans hrun, hs'⟩

/-- A scope leaves its trace behind and nothing else. -/
theorem inScope {given : Option CorrelationRef} {body : CorrelationRef → Action α}
    (h : ∀ ref, Yields P (body ref) Q) : Yields P (Action.inScope given body) Q := by
  intro s hs
  obtain ⟨a, s', hrun, hs'⟩ :=
    h (s.trace.enter given).2.1 { s with trace := (s.trace.enter given).1 } hs
  refine ⟨a, { s' with trace := s'.trace.leave (s.trace.enter given).2.1 (s.trace.enter given).2.2 },
    ?_, hs'⟩
  simp only [runFrom_inScope, hrun]

theorem weaken {Q' : α → Stores → Prop} {P' : Stores → Prop} (hx : Yields P x Q)
    (hP : ∀ c, P' c → P c) (hQ : ∀ a c, Q a c → Q' a c) : Yields P' x Q' := by
  intro s hs
  obtain ⟨a, s', hrun, hs'⟩ := hx s (hP _ hs)
  exact ⟨a, s', hrun, hQ a _ hs'⟩

end Yields

end Action

end TwinStore
