import TwinStore.Cache.Server
import TwinStore.Include.Resolve
import TwinStore.Primary.Database
import TwinStore.Trace.Basic

/-!
# Both stores together

An operation on the stores may fail, and what it did before stays done.  It runs in a correlation,
to which it adds its diagnostic messages.

Main definitions:

- `Deployment`: what is fixed while a program runs.
- `Stores`: what changes: the sets of the cache, the tables of the database, the trace and the log.
- `Action`: an operation on the stores.
- `Action.inScope`: an operation in a scope, which is left however the operation ends.
- `Action.both`: two operations side by side.
-/

namespace TwinStore

/-- What is fixed while a program runs: the models, and how the cache is named, reached and
greeted. -/
structure Deployment where
  registry : Registry
  namespaceText : String := ""
  greets : Bool := true
  cacheUrl : Option String := none

/-- What changes while a program runs.  The cache has a connection if `hasClient` is set, and has
used it if `connected` is; `plannedDeletions` are outcomes that the next deletions of single rows
report without being carried out. -/
structure Stores where
  trace : Trace := {}
  server : Cache.Server := {}
  hasClient : Bool := true
  connected : Bool := false
  closed : Bool := false
  database : Primary.Database := {}
  plannedDeletions : List (Option Bool) := []
  log : List LogLine := []

/-- An operation on the stores; what it did before a failure stays done. -/
abbrev Action (α : Type) := ExceptT Fault (StateM Stores) α

namespace Action

variable {α β : Type}

/-- An outcome as an operation. -/
def ofOutcome : Outcome α → Action α
  | .ok a => pure a
  | .error fault => throw fault

/-- The outcome of an operation, which then does not fail. -/
def attempt (x : Action α) : Action (Outcome α) := fun s => do
  let (outcome, s) ← x s
  return (.ok outcome, s)

/-- Two operations side by side: both are carried out, and the failure of the first counts before
that of the second. -/
def both (x : Action α) (y : Action β) : Action (α × β) := do
  let first ← attempt x
  let second ← attempt y
  return (← ofOutcome first, ← ofOutcome second)

/-- Operations side by side. -/
def each (f : α → Action β) : List α → Action (List β)
  | [] => return []
  | a :: rest => do
    let (b, bs) ← both (f a) (each f rest)
    return b :: bs

/-- Adds lines to the log. -/
def writeLog (lines : List LogLine) : Action Unit :=
  modify fun s => { s with log := s.log ++ lines }

/-- A reading of a filter as an operation: its warnings go to the log. -/
def ofReported (x : Filter.Reported α) : Action α := do
  let (lines, outcome) := x.run
  writeLog lines
  ofOutcome outcome

/-- Adds a diagnostic message to a correlation. -/
def report (ref : CorrelationRef) (severity : Severity) (component message : String)
    (context : Entries Value) : Action Unit :=
  modify fun s => { s with trace := s.trace.annotate ref ⟨severity, component, message, context⟩ }

/-- Whether a model is registered; one that is not is reported by the component that asks. -/
def knows (d : Deployment) (ref : CorrelationRef) (component model : String) : Action Bool := do
  if d.registry.hasModel model then return true
  report ref .error component s!"Unknown model '{model}'" []
  return false

/-- An operation in a scope, in the given correlation or else in the active one or a new one. -/
def inScope (given : Option CorrelationRef) (body : CorrelationRef → Action α) : Action α := do
  let (trace, ref, hold) := (← get).trace.enter given
  modify fun s => { s with trace }
  let outcome ← attempt (body ref)
  modify fun s => { s with trace := s.trace.leave ref hold }
  ofOutcome outcome

end Action

end TwinStore
