import TwinStore.Journal.Entry
import TwinStore.Text.LowerCase
import TwinStore.Trace.Basic

/-!
# The journal

Entries are made through loggers.  Every component has a logger of its own, which gives its entries
the name of the component and the active correlation.  Where entries go is decided once for all
loggers; until then they are only collected.

Main definitions:

- `Journal`: where entries go, what they are given on the way, and what was written.
- `Journal.emit`: makes an entry.
- `Journal.tell`: writes what happens to correlations and in them.
- `Journal.enter`, `Journal.leave`: the two ends of a scope.
-/

namespace TwinStore

/-- A place where entries are written. -/
inductive Outlet where
  | console
  | file
deriving DecidableEq, Repr

/-- The least level of entries; the outlets, once they are chosen; the first component of every
logger that belongs to one; and what was collected, printed and filed so far. -/
structure Journal where
  level : Nat := Severity.debug.number
  outlets : Option (List Outlet) := none
  components : Entries String := []
  trace : Trace := { idStem := "id-" }
  collected : List Entry := []
  printed : List String := []
  filed : List Json := []

namespace Journal

/-! ## Loggers -/

/-- The logger above all others. -/
def rootLogger : String := "dbflow"

/-- The name of the logger of a component. -/
def loggerOf (component : String) : String :=
  rootLogger ++ "." ++ (Text.lowerCase component).map fun c => if c = ' ' then '_' else c

/-- Makes the logger of a component known; a logger keeps its first component. -/
def register (j : Journal) (component : String) : Journal :=
  let logger := loggerOf component
  if Entries.has j.components logger then j
  else { j with components := j.components ++ [(logger, component)] }

/-- Whether a logger stands below the root. -/
def isBelowRoot (logger : String) : Bool :=
  logger == rootLogger || logger.startsWith (rootLogger ++ ".")

/-- The least level of entries that are written; without one, that of foreign loggers counts. -/
def threshold (j : Journal) : Nat := if j.level = 0 then Severity.warning.number else j.level

/-- Chooses the least level and the outlets. -/
def setUp (j : Journal) (level : Nat) (withFile : Bool) : Journal :=
  { j with level, outlets := some (.console :: if withFile then [.file] else []) }

/-! ## Entries -/

/-- An entry as its logger gives it on: the logger of a component adds the component and the active
correlation where they are missing. -/
def stamp (j : Journal) (e : Entry) : Entry :=
  match Entries.get? j.components e.logger with
  | some component =>
    { e with
      component := e.component.or (some component)
      correlation := e.correlation.or j.trace.activeId? }
  | none => e

/-- Writes an entry to an outlet; an entry that has no written form is left out. -/
def write (j : Journal) (e : Entry) : Outlet → Journal
  | .console =>
    match e.consoleBody with
    | .ok text => { j with printed := j.printed ++ [text] }
    | .error _ => j
  | .file =>
    match e.members with
    | .ok members => { j with filed := j.filed ++ [.object members] }
    | .error _ => j

/-- Makes an entry, which is collected until outlets are chosen, and then written to each of
them. -/
def emit (j : Journal) (e : Entry) : Journal :=
  if !isBelowRoot e.logger || e.severity.number < j.threshold then j
  else
    let e := j.stamp e
    match j.outlets with
    | none => { j with collected := j.collected ++ [e] }
    | some outlets =>
      outlets.foldl
        (fun j => j.write { e with correlation := e.correlation.or j.trace.activeId? }) j

/-- Makes an entry of a line of the log. -/
def emitLine (j : Journal) (line : LogLine) : Journal :=
  j.emit { severity := line.severity, logger := line.logger, message := line.message }

/-- Makes an entry of a component; further items of context win over those of the same name, and an
empty context counts as none. -/
def log (j : Journal) (component : String) (severity : Severity) (message : String)
    (context further : Entries Value) (correlation : Option String) : Journal :=
  let context := Entries.merge context further
  (j.register component).emit {
    severity, logger := loggerOf component, message, correlation
    context := if context.isEmpty then .null else .map context }

/-! ## Correlations -/

/-- Writes what happens to correlations and in them. -/
def tell (j : Journal) : SinkCall → Journal
  | .start id => note id "Correlation started"
  | .annotate id e => j.log e.component e.severity e.message e.context [] (some id)
  | .markUsed id => note id "Correlation borrowed"
  | .finish id => note id "Correlation finished"
where
  /-- An entry about a correlation itself. -/
  note (id message : String) : Journal :=
    j.log Entry.defaultComponent .debug message [] [] (some id)

/-- Changes the trace; what the sink is told is written. -/
def follow (j : Journal) (trace : Trace) : Journal :=
  let told := (trace.calls.drop j.trace.calls.length).foldl tell j
  { told with trace }

/-- Enters a scope. -/
def enter (j : Journal) : Journal × CorrelationRef × Trace.Hold :=
  let (trace, ref, hold) := j.trace.enter none
  (j.follow trace, ref, hold)

/-- Leaves a scope. -/
def leave (j : Journal) (ref : CorrelationRef) (hold : Trace.Hold) : Journal :=
  let trace := j.trace.leave ref hold
  { j with trace := { j.trace with active := trace.active } }.follow trace

end Journal

end TwinStore
