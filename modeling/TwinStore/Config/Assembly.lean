import TwinStore.Cache.Connection
import TwinStore.Config.Basic
import TwinStore.Journal.Journal

/-!
# Assembling the program

From a configuration and models, the parts of the program are put together: the journal, the
registry, the database, the cache and the sink.  Parts that are given ready are used as they are.

Main definitions:

- `Blueprint`: what is to be put together.
- `Assembly`: the parts put together.
- `assemble`: puts the parts together.
-/

namespace TwinStore.Config

/-- The models of a program: to be registered, or registered already. -/
inductive Source where
  | models (models : List Model)
  | registry (registry : Registry)

/-- What is to be put together, and which parts are given ready. -/
structure Blueprint where
  config : Config
  source : Source
  hasEngine : Bool := false
  hasClient : Bool := false
  hasSink : Bool := false
  setsUpJournal : Bool := true

/-- How a database engine is asked for: its address and its options. -/
structure EngineRequest where
  address : String
  options : Entries Value

/-- The parts put together: the engine and the address of the cache only if they were not given. -/
structure Assembly where
  deployment : Deployment
  engine : Option EngineRequest
  writesOwnJournal : Bool
  journal : Journal

/-- The registry of a program, with the reports on relations left out. -/
def registryOf : Source → Outcome (Registry × List LogLine)
  | .registry r => .ok (r, [])
  | .models models =>
    match Registry.register {} models with
    | (r, lines, .ok ()) => .ok (r, lines)
    | (_, _, .error fault) => .error fault

/-- The option that says whether statements are logged. -/
def echoOption : String := "echo"

/-- The request for an engine; the option on logging is fixed by the configuration. -/
def engineRequest (c : Config) : Outcome EngineRequest := do
  let address ← ofAddress c.engineUrl
  if Entries.has c.engineOptions echoOption then throw (.wrongKind "multiple values for 'echo'")
  return ⟨address, (echoOption, .bool c.echoesSql) :: c.engineOptions⟩

/-- The line that says which models a program has. -/
def announcement (r : Registry) : String :=
  "Flow created for models: " ++ ", ".intercalate (r.modelNames.mergeSort fun a b => a ≤ b)

/-- Puts the parts together. -/
def assemble (b : Blueprint) (journal : Journal) : Outcome Assembly := do
  let c := b.config
  let journal :=
    if b.setsUpJournal then journal.setUp c.logLevel.toNat c.logDirectory.isSome else journal
  let (registry, lines) ← registryOf b.source
  let journal := lines.foldl Journal.emitLine journal
  let engine ← if b.hasEngine then pure none else some <$> engineRequest c
  let cacheUrl ← if b.hasClient then pure none else some <$> ofAddress c.cacheUrl
  let journal := journal.log Entry.defaultComponent .debug (announcement registry) [] [] none
  return {
    deployment := { registry, namespaceText := c.namespaceText, greets := c.greets, cacheUrl }
    engine
    writesOwnJournal := !b.hasSink
    journal }

end TwinStore.Config
