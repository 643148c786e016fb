import TwinStore.Log
import TwinStore.Value.Basic

/-!
# Correlations

Every public operation runs in one correlation: the outermost call opens it, nested calls borrow it,
and the call that opened it finishes it.  What happens is told to a sink; a sink that fails is
reported in the log and changes nothing else.

Main definitions:

- `Event`: a diagnostic message.
- `SinkCall`: one thing that the sink is told.
- `Trace`: all correlations, the active one, and what the sink was told.
- `Trace.enter`, `Trace.leave`: the two ends of a scope.
-/

namespace TwinStore

/-- A diagnostic message of a component, with the data that it is about. -/
structure Event where
  severity : Severity
  component : String
  message : String
  context : Entries Value := []

/-- The four things that a sink can be told. -/
inductive SinkMethod where
  | start
  | annotate
  | markUsed
  | finish
deriving DecidableEq, Repr

namespace SinkMethod

/-- Every method of a sink. -/
def all : List SinkMethod := [start, annotate, markUsed, finish]

/-- The name of a method. -/
def name : SinkMethod → String
  | start => "start"
  | annotate => "annotate"
  | markUsed => "mark_used"
  | finish => "finish"

/-- The method with a name. -/
def ofName? (s : String) : Option SinkMethod := all.find? (·.name == s)

end SinkMethod

/-- One thing that the sink is told. -/
inductive SinkCall where
  | start (id : String)
  | annotate (id : String) (event : Event)
  | markUsed (id : String)
  | finish (id : String)

namespace SinkCall

/-- The method by which the sink is told. -/
def method : SinkCall → SinkMethod
  | start _ => .start
  | annotate _ _ => .annotate
  | markUsed _ => .markUsed
  | finish _ => .finish

end SinkCall

/-- One correlation: its identifier, whether it is finished, and how often it was borrowed. -/
structure Correlation where
  id : String
  finished : Bool := false
  borrowed : Nat := 0
deriving DecidableEq, Repr

/-- Stands for a correlation by its place in the order of opening. -/
abbrev CorrelationRef := Nat

/-- All correlations opened so far, the active one, what the sink was told, and the reports on
failures of the sink.  `outages` gives the text of the failure of every method that fails, and
`lapses` that of every single call that fails, told by the number of calls before it. -/
structure Trace where
  idStem : String := "op-"
  outages : List (SinkMethod × String) := []
  lapses : Nat → Option String := fun _ => none
  correlations : List Correlation := []
  active : Option CorrelationRef := none
  calls : List SinkCall := []
  reports : List LogLine := []

namespace Trace

/-! ## The sink -/

/-- The text with which a call of the sink fails, if it does, given the number of calls before. -/
def outageAt? (t : Trace) (before : Nat) (method : SinkMethod) : Option String :=
  (t.outages.lookup method).or (t.lapses before)

/-- The text with which the next call of the sink fails, if it does. -/
def outage? (t : Trace) (method : SinkMethod) : Option String := t.outageAt? t.calls.length method

/-- Tells the sink something; a failure is reported. -/
def tell (t : Trace) (call : SinkCall) : Trace :=
  let told := { t with calls := t.calls ++ [call] }
  match t.outage? call.method with
  | none => told
  | some detail =>
    { told with
      reports := told.reports ++
        [⟨.debug, "dbflow.runtime.correlation",
          s!"Correlation sink {call.method.name} failed: {detail}"⟩] }

/-! ## Correlations -/

/-- The identifier of a correlation whose opening the sink refused. -/
def untracedId : String := "untraced"

/-- The correlation that a reference stands for. -/
def correlation (t : Trace) (ref : CorrelationRef) : Correlation :=
  t.correlations.getD ref ⟨untracedId, false, 0⟩

/-- Changes a correlation. -/
def modify (t : Trace) (ref : CorrelationRef) (change : Correlation → Correlation) : Trace :=
  { t with correlations := t.correlations.modify ref change }

/-- The identifier of the active correlation. -/
def activeId? (t : Trace) : Option String := t.active.map fun ref => (t.correlation ref).id

/-- The identifier that the sink gives to a correlation. -/
def nameOf (t : Trace) (ref : CorrelationRef) : String := t.idStem ++ Number.digits (ref + 1)

/-- Opens a correlation; the sink names it, unless it fails. -/
def opened (t : Trace) : Trace × CorrelationRef :=
  let ref := t.correlations.length
  let id := t.nameOf ref
  let told := t.tell (.start id)
  let shown := if (t.outage? .start).isSome then untracedId else id
  ({ told with correlations := told.correlations ++ [⟨shown, false, 0⟩] }, ref)

/-- Adds a message to a correlation. -/
def annotate (t : Trace) (ref : CorrelationRef) (event : Event) : Trace :=
  t.tell (.annotate (t.correlation ref).id event)

/-- Finishes a correlation, once. -/
def finish (t : Trace) (ref : CorrelationRef) : Trace :=
  if (t.correlation ref).finished then t
  else (t.modify ref fun c => { c with finished := true }).tell (.finish (t.correlation ref).id)

/-! ## Scopes -/

/-- How a scope came to its correlation: it was given one, borrowed the active one, or opened
one. -/
inductive Hold where
  | given
  | borrowed
  | owned
deriving DecidableEq, Repr

/-- Enters a scope: the trace inside, its correlation, and how it came to it. -/
def enter (t : Trace) (given : Option CorrelationRef) : Trace × CorrelationRef × Hold :=
  match given, t.active with
  | some ref, _ => (t, ref, .given)
  | none, some ref =>
    let counted := t.modify ref fun c => { c with borrowed := c.borrowed + 1 }
    (counted.tell (.markUsed (t.correlation ref).id), ref, .borrowed)
  | none, none =>
    let (inside, ref) := t.opened
    ({ inside with active := some ref }, ref, .owned)

/-- Leaves a scope; the scope that opened its correlation finishes it. -/
def leave (t : Trace) (ref : CorrelationRef) (hold : Hold) : Trace :=
  match hold with
  | .owned => { t with active := none }.finish ref
  | _ => t

end Trace

end TwinStore
