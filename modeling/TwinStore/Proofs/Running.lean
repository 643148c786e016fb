import TwinStore.Proofs.Outcome
import TwinStore.Stores

/-!
# Running operations

An operation runs from a state to an outcome and a state.  Readings of filters, resolutions of
requests and operations on the stores are all of this kind, so what is said here of sequences,
failures and reports holds of each of them.

Main definitions:

- `runFrom`: the outcome of an operation and the state afterwards.

Main results:

- Theorem `runFrom_bind_of_ok`: a sequence runs its first part, then the second on what it gave.
- Theorem `runFrom_bind_eq_ok`: a sequence that succeeds succeeds in both parts.
- Theorem `runFrom_inScope`: an operation in a scope runs between entering and leaving it.
-/

namespace TwinStore

variable {σ α β : Type}

/-- The outcome of an operation and the state afterwards. -/
def runFrom (x : ExceptT Fault (StateM σ) α) (s : σ) : Outcome α × σ := ExceptT.run x s

/-- An operation with a known outcome leaves some state. -/
theorem runFrom_eq {x : ExceptT Fault (StateM σ) α} {s : σ} {o : Outcome α}
    (h : (runFrom x s).1 = o) : runFrom x s = (o, (runFrom x s).2) := by
  rw [← h]

/-! ## Sequences -/

@[simp]
theorem runFrom_pure (a : α) (s : σ) :
    runFrom (pure a : ExceptT Fault (StateM σ) α) s = (.ok a, s) := rfl

@[simp]
theorem runFrom_throw (fault : Fault) (s : σ) :
    runFrom (throw fault : ExceptT Fault (StateM σ) α) s = (.error fault, s) := rfl

/-- A sequence runs its first part, then the second part on what it gave. -/
theorem runFrom_bind (x : ExceptT Fault (StateM σ) α) (f : α → ExceptT Fault (StateM σ) β) (s : σ) :
    runFrom (x >>= f) s =
      match runFrom x s with
      | (.ok a, s') => runFrom (f a) s'
      | (.error fault, s') => (.error fault, s') := by
  show (ExceptT.bind x f).run s = _
  simp only [ExceptT.bind, ExceptT.run, ExceptT.mk, runFrom]
  show (StateT.bind x (ExceptT.bindCont f)) s = _
  simp only [StateT.bind, ExceptT.bindCont]
  show (let p := x s; _) = _
  cases h : x s with
  | mk outcome s' => cases outcome <;> rfl

/-- Where the first part succeeds, the second part decides. -/
theorem runFrom_bind_of_ok {x : ExceptT Fault (StateM σ) α} {f : α → ExceptT Fault (StateM σ) β}
    {s s' : σ} {a : α} (h : runFrom x s = (.ok a, s')) : runFrom (x >>= f) s = runFrom (f a) s' := by
  rw [runFrom_bind, h]

/-- Where the first part fails, the sequence fails. -/
theorem runFrom_bind_of_error {x : ExceptT Fault (StateM σ) α}
    {f : α → ExceptT Fault (StateM σ) β} {s s' : σ} {fault : Fault}
    (h : runFrom x s = (.error fault, s')) : runFrom (x >>= f) s = (.error fault, s') := by
  rw [runFrom_bind, h]

/-- A sequence that succeeds succeeds in both parts. -/
theorem runFrom_bind_eq_ok {x : ExceptT Fault (StateM σ) α} {f : α → ExceptT Fault (StateM σ) β}
    {s s' : σ} {b : β} :
    runFrom (x >>= f) s = (.ok b, s') ↔
      ∃ a s₁, runFrom x s = (.ok a, s₁) ∧ runFrom (f a) s₁ = (.ok b, s') := by
  rw [runFrom_bind]
  constructor
  · intro h
    split at h
    · exact ⟨_, _, ‹_›, h⟩
    · cases h
  · rintro ⟨a, s₁, hx, hf⟩
    rw [hx]
    exact hf

@[simp]
theorem runFrom_map (f : α → β) (x : ExceptT Fault (StateM σ) α) (s : σ) :
    runFrom (f <$> x) s = ((runFrom x s).1.map f, (runFrom x s).2) := by
  rw [map_eq_pure_bind, runFrom_bind]
  split <;> simp_all [Except.map]

/-- Items of a list that are worked on one by one without a change of the state. -/
theorem runFrom_mapM {f : α → ExceptT Fault (StateM σ) β} {g : α → β} {s : σ} {as : List α}
    (h : ∀ a ∈ as, runFrom (f a) s = (.ok (g a), s)) :
    runFrom (as.mapM f) s = (.ok (as.map g), s) := by
  induction as with
  | nil => rfl
  | cons a as ih =>
    rw [List.mapM_cons, runFrom_bind_of_ok (h a List.mem_cons_self),
      runFrom_bind_of_ok (ih fun b hb => h b (List.mem_cons_of_mem a hb))]
    rfl

@[simp]
theorem runFrom_get (s : σ) : runFrom (get : ExceptT Fault (StateM σ) σ) s = (.ok s, s) := rfl

@[simp]
theorem runFrom_modify (f : σ → σ) (s : σ) :
    runFrom (modify f : ExceptT Fault (StateM σ) PUnit) s = (.ok ⟨⟩, f s) := rfl

@[simp]
theorem runFrom_set (s' s : σ) :
    runFrom (set s' : ExceptT Fault (StateM σ) PUnit) s = (.ok ⟨⟩, s') := rfl

/-! ## Readings of filters -/

namespace Filter.Reported

@[simp]
theorem runFrom_ofOutcome (x : Outcome α) (lines : List LogLine) :
    runFrom (ofOutcome x) lines = (x, lines) := by
  cases x <;> rfl

end Filter.Reported

/-! ## Operations on the stores -/

namespace Action

@[simp]
theorem runFrom_ofOutcome (x : Outcome α) (s : Stores) : runFrom (ofOutcome x) s = (x, s) := by
  cases x <;> rfl

@[simp]
theorem runFrom_attempt (x : Action α) (s : Stores) :
    runFrom (attempt x) s = (.ok (runFrom x s).1, (runFrom x s).2) := rfl

/-- A reading of a filter adds its warnings to the log. -/
@[simp]
theorem runFrom_ofReported (x : Filter.Reported α) (s : Stores) :
    runFrom (ofReported x) s = (x.run.2, { s with log := s.log ++ x.run.1 }) := by
  show runFrom (writeLog x.run.1 >>= fun _ => ofOutcome x.run.2) s = _
  rw [runFrom_bind, writeLog, runFrom_modify]
  exact runFrom_ofOutcome _ _

/-- A report changes the trace only. -/
@[simp]
theorem runFrom_report (ref : CorrelationRef) (severity : Severity) (component message : String)
    (context : Entries Value) (s : Stores) :
    runFrom (report ref severity component message context) s =
      (.ok (), { s with trace := s.trace.annotate ref ⟨severity, component, message, context⟩ }) :=
  rfl

/-- An operation in a scope runs between entering and leaving it. -/
theorem runFrom_inScope (given : Option CorrelationRef) (body : CorrelationRef → Action α)
    (s : Stores) :
    runFrom (inScope given body) s =
      let entered := s.trace.enter given
      let r := runFrom (body entered.2.1) { s with trace := entered.1 }
      (r.1, { r.2 with trace := r.2.trace.leave entered.2.1 entered.2.2 }) := by
  simp only [inScope, runFrom_bind, runFrom_get, runFrom_modify, runFrom_attempt, runFrom_ofOutcome]

end Action

end TwinStore
