import TwinStore.Coercion
import TwinStore.Json.OfValue
import TwinStore.Json.Printer
import TwinStore.Log

/-!
# Entries of the journal

An entry is written in two forms: for readers, on the console, and for programs, as one line of
JSON.

Main definitions:

- `Entry`: a message with all that belongs to it.
- `momentOf`: the point of time of a number of seconds.
- `Entry.consoleText`: the form for readers.
- `Entry.jsonLine`: the form for programs.
-/

namespace TwinStore

open Number Calendar

/-- A failure that an entry reports: its kind and its argument. -/
structure Incident where
  kind : String
  argument : Value

/-- The text of an incident; a key that is missing is shown as a literal. -/
def Incident.message (i : Incident) : String :=
  if i.kind = "KeyError" then i.argument.literal else i.argument.display

/-- A message with its level and logger, the component that it comes from, the correlation that it
belongs to, the data that it is about, and a failure.  The level may be shown under another name. -/
structure Entry where
  severity : Severity
  levelName : Option String := none
  logger : String := ""
  message : String
  component : Option String := none
  color : String := ""
  correlation : Option String := none
  context : Value := .null
  incident : Option Incident := none

/-! ## Time -/

/-- The point of time some seconds after the beginning of 1970. -/
def momentOf : Value → Outcome DateTime
  | .int n =>
    match Binary64.ofInt? n with
    | some seconds => instantOfSeconds seconds
    | none => .error .outOfRange
  | .float seconds => instantOfSeconds seconds
  | v => .error (.wrongKind s!"'{v.kindName}' object cannot be interpreted as an integer")

/-- A point of time as a line of JSON gives it, in universal time. -/
def timestampText (t : DateTime) : String := DateTime.text { t with offset := some 0 }

/-- The time of day as the console gives it. -/
def clockText (t : DateTime) : String :=
  ":".intercalate ([t.hour, t.minute, t.second].map (padded 2))

namespace Entry

/-! ## Parts -/

/-- The component of an entry that names none. -/
def defaultComponent : String := "FLOW"

/-- The name under which the level is shown. -/
def level (e : Entry) : String := e.levelName.getD e.severity.name

/-- The name of the component. -/
def componentName (e : Entry) : String := e.component.getD defaultComponent

/-- The correlation, if it has a name. -/
def correlation? (e : Entry) : Option String := e.correlation.filter (!·.isEmpty)

/-- The context as a document; what documents lack is written as a text. -/
def contextDocument (e : Entry) : Outcome Json :=
  Json.ofValue (fun v => .ok (.text v.display)) e.context

/-! ## The form for readers -/

/-- The number of characters of a correlation that the console shows. -/
def shownCorrelation : Nat := 8

/-- What the console shows after the time: component, correlation, level, message, and the context
of a warning or anything worse. -/
def consoleBody (e : Entry) : Outcome String := do
  let id := e.correlation?.map fun s => String.ofList (s.toList.take shownCorrelation)
  let level := if e.severity = .info then none else some (e.level ++ ":")
  let line := " ".intercalate
    ([e.color ++ "[" ++ e.componentName ++ "]"] ++ id.toList ++ level.toList ++ [e.message])
  if e.context.isTruthy && e.severity.number ≥ Severity.warning.number then
    return line ++ "\n" ++ (← e.contextDocument).indented
  else return line

/-- An entry as the console shows it. -/
def consoleText (clock : String) (e : Entry) : Outcome String := do
  return clock ++ " " ++ (← e.consoleBody)

/-! ## The form for programs -/

/-- The members of the line of an entry after its time. -/
def members (e : Entry) : Outcome (List (String × Json)) := do
  let context ← if e.context.isTruthy then do pure [("context", ← e.contextDocument)] else pure []
  let correlation := e.correlation?.toList.map fun s => ("correlation_id", Json.text s)
  let incident := e.incident.toList.map fun i =>
    ("exception", Json.object [("type", .text i.kind), ("message", .text i.message)])
  return [("level", .text e.level), ("component", .text e.componentName),
    ("message", .text e.message)] ++ correlation ++ context ++ incident

/-- An entry as one line of JSON. -/
def jsonLine (timestamp : String) (e : Entry) : Outcome String := do
  return (Json.object (("timestamp", .text timestamp) :: (← e.members))).spaced

end Entry

end TwinStore
