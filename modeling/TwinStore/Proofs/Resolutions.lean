import TwinStore.Include.Resolve
import TwinStore.Proofs.QuietFilters

/-!
# What a resolution comes to

A resolution has a result or fails, and gives its notices in order, behind those that were given before
it.  What it comes to is the same wherever it stands in a request, so what resolutions one after another
come to follows from what each of them does.

Main definitions:

- `Resolving.Tells`: a resolution with a known outcome and known notices.
- `Resolving.Yields`: a resolution with a known result.
- `Resolving.Ends`: a condition on the outcome of a resolution.

Main results:

- Theorems `Tells.bind`, `Yields.bind`, `Ends.bind`: resolutions one after another.
- Theorems `Tells.run_eq`, `Yields.run_eq`, `Ends.run`: the run of a resolution.
-/

namespace TwinStore.Include.Resolving

open Filter

variable {α β : Type} {x : Resolving α} {f : α → Resolving β} {a : α} {b : β} {o : Outcome α}
  {q : Outcome β} {fault : Fault} {told told' : List Notice}

/-! ## Outcomes with notices -/

/-- Whether a resolution has an outcome and gives just these notices, whatever was given before. -/
def Tells (x : Resolving α) (o : Outcome α) (told : List Notice) : Prop :=
  ∀ notices, runFrom x notices = (o, notices ++ told)

namespace Tells

theorem pure (a : α) : Tells (Pure.pure a) (.ok a) [] := by
  intro notices
  rw [List.append_nil]
  rfl

theorem throw (fault : Fault) : Tells (MonadExcept.throw fault : Resolving α) (.error fault) [] := by
  intro notices
  rw [List.append_nil]
  rfl

theorem notify (notice : Notice) : Tells (Resolving.notify notice) (.ok ()) [notice] := fun _ => rfl

theorem bind (hx : Tells x (.ok a) told) (hf : Tells (f a) q told') :
    Tells (x >>= f) q (told ++ told') := by
  intro notices
  rw [runFrom_bind_of_ok (hx notices), hf, List.append_assoc]

/-- What a failure leaves out tells nothing. -/
theorem bind_error (hx : Tells x (.error fault) told) : Tells (x >>= f) (.error fault) told :=
  fun notices => runFrom_bind_of_error (hx notices)

/-- A result that is only changed. -/
theorem bind_pure (hx : Tells x (.ok a) told) (g : α → β) :
    Tells (x >>= fun a => Pure.pure (g a)) (.ok (g a)) told := by
  rw [← List.append_nil told]
  exact hx.bind (pure _)

theorem map (hx : Tells x o told) (g : α → β) : Tells (g <$> x) (o.map g) told := by
  intro notices
  rw [runFrom_map, hx]

/-- Notices one after another. -/
theorem notify_lines (lines : List LogLine) :
    Tells (lines.forM fun line => Resolving.notify (.filter line)) (.ok ()) (lines.map .filter) := by
  induction lines with
  | nil => exact pure ()
  | cons line lines ih => exact (notify (.filter line)).bind ih

/-- The reading of a filter gives its lines as notices. -/
theorem ofReported (x : Reported α) :
    Tells (Resolving.ofReported x) x.run.2 (x.run.1.map .filter) := by
  unfold Resolving.ofReported
  generalize x.run = reading
  obtain ⟨lines, outcome⟩ := reading
  rw [← List.append_nil (lines.map Notice.filter)]
  refine bind (notify_lines lines) ?_
  cases outcome with
  | ok a => exact pure a
  | error fault => exact throw fault

/-- The run of a resolution. -/
theorem run_eq (h : Tells x o told) : x.run = (told, o) := by
  have hrun : ExceptT.run x [] = (o, told) := h []
  rw [Resolving.run, hrun]

end Tells

/-! ## Results -/

/-- Whether a resolution has a result, whatever notices it gives. -/
def Yields (x : Resolving α) (a : α) : Prop :=
  ∀ notices, ∃ notices', runFrom x notices = (.ok a, notices')

theorem Tells.yields (h : Tells x (.ok a) told) : Yields x a :=
  fun notices => ⟨notices ++ told, h notices⟩

namespace Yields

theorem pure (a : α) : Yields (Pure.pure a) a := (Tells.pure a).yields

theorem notify (notice : Notice) : Yields (Resolving.notify notice) () := (Tells.notify notice).yields

theorem bind (hx : Yields x a) (hf : Yields (f a) b) : Yields (x >>= f) b := by
  intro notices
  obtain ⟨notices₁, hrun⟩ := hx notices
  obtain ⟨notices', hrun'⟩ := hf notices₁
  exact ⟨notices', (runFrom_bind_of_ok hrun).trans hrun'⟩

theorem map (hx : Yields x a) (g : α → β) : Yields (g <$> x) (g a) := by
  rw [map_eq_pure_bind]
  exact hx.bind (pure (g a))

/-- A reading of a filter that succeeds is a resolution that does. -/
theorem ofReported {x : Reported α} (h : x.run.2 = .ok a) : Yields (Resolving.ofReported x) a := by
  have htells := Tells.ofReported x
  rw [h] at htells
  exact htells.yields

/-- The outcome of a resolution is its result. -/
theorem run_eq (h : Yields x a) : x.run.2 = .ok a := by
  obtain ⟨notices, hrun⟩ := h []
  exact congrArg Prod.fst hrun

end Yields

/-! ## Conditions on outcomes -/

variable {Q : Outcome α → Prop} {T : Outcome β → Prop}

/-- Whether a condition holds of the outcome of a resolution, whatever notices were given before. -/
def Ends (x : Resolving α) (Q : Outcome α → Prop) : Prop := ∀ notices, Q (runFrom x notices).1

theorem Tells.ends (h : Tells x o told) (hq : Q o) : Ends x Q := by
  intro notices
  rwa [h]

theorem Yields.ends (h : Yields x a) (hq : Q (.ok a)) : Ends x Q := by
  intro notices
  obtain ⟨_, hrun⟩ := h notices
  rwa [hrun]

namespace Ends

theorem pure (h : Q (.ok a)) : Ends (Pure.pure a) Q := fun _ => h

theorem bind (hx : Ends x Q) (hf : ∀ a, Q (.ok a) → Ends (f a) T)
    (hfails : ∀ fault, Q (.error fault) → T (.error fault)) : Ends (x >>= f) T := by
  intro notices
  have hfirst := hx notices
  rw [runFrom_bind]
  split
  · next a notices' hrun =>
    rw [hrun] at hfirst
    exact hf a hfirst notices'
  · next fault notices' hrun =>
    rw [hrun] at hfirst
    exact hfails fault hfirst

/-- A sequence has a result of some kind, or fails as one of its parts does. -/
theorem bind_either {L : α → Prop} {M : β → Prop} {E : Fault → Prop} (hx : Ends x (Either L E))
    (hf : ∀ a, L a → Ends (f a) (Either M E)) : Ends (x >>= f) (Either M E) :=
  bind hx hf fun _ => id

/-- A notice is only given. -/
theorem notify_bind {notice : Notice} {g : Unit → Resolving β} (hg : Ends (g ()) T) :
    Ends (Resolving.notify notice >>= g) T := fun _ => hg _

/-- The reading of a filter ends as part of a resolution as it does by itself. -/
theorem ofReported {x : Reported α} (h : Q x.run.2) : Ends (Resolving.ofReported x) Q :=
  (Tells.ofReported x).ends h

theorem run (h : Ends x Q) : Q x.run.2 := h []

end Ends

end TwinStore.Include.Resolving
