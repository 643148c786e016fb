import TwinStore.Stores

/-!
# The connection to the cache

The cache connects when it is first used.  A command may fail; a failure that the server or the
system causes is an answer, any other one ends the operation.

Main definitions:

- `request`: sends a command.
- `connect`: connects, if that has not happened yet.
- `close`: gives the connection up.
-/

namespace TwinStore.Cache

/-- The component under which the cache reports. -/
def component : String := "REDIS"

/-- The key of the set of a model. -/
def setKey (d : Deployment) (model : String) : String := d.namespaceText ++ model

/-- The text of a command that fails. -/
def Command.failure (command : Command) : String := command.name ++ " failed"

/-- Sends a command that changes the server if it succeeds; the text of the failure otherwise. -/
def request (command : Command) (change : Server → Server) : Action (Option String) := do
  modify fun s => { s with server := { s.server with received := s.server.received ++ [command] } }
  match (← get).server.outage? command with
  | none =>
    modify fun s => { s with server := change s.server }
    return none
  | some .badValue => throw (.badValue command.failure)
  | some _ => return some command.failure

/-- What is wrong with the address of the cache, if it has to be used. -/
def addressProblem? (d : Deployment) : Option String :=
  match d.cacheUrl with
  | none | some "" => some "Cache store has no Redis URL configured"
  | some url => if url.startsWith "redis://" then none else some "Redis unavailable: bad url"

/-- Reports an error of the connection. -/
def unavailable (ref : CorrelationRef) (message : String) : Action Bool := do
  Action.report ref .error component message []
  return false

/-- Greets the server; every failure to do so is an answer. -/
def greet (d : Deployment) (ref : CorrelationRef) : Action Bool := do
  match ← Action.attempt (request .ping id) with
  | .ok none =>
    modify fun s => { s with connected := true }
    if d.greets then
      Action.report ref .info component "Connected to Redis" [("namespace", .text d.namespaceText)]
    return true
  | _ => unavailable ref s!"Redis unavailable: {Command.ping.failure}"

/-- Connects to the cache if that has not happened yet; whether the cache can be used. -/
def connect (d : Deployment) (ref : CorrelationRef) : Action Bool := do
  let s ← get
  if s.connected then return true
  if s.hasClient then greet d ref
  else
    match addressProblem? d with
    | some message => unavailable ref message
    | none =>
      set { s with hasClient := true }
      greet d ref

/-- Gives the connection up, if there is one. -/
def close : Action Unit :=
  modify fun s =>
    if s.hasClient then { s with hasClient := false, connected := false, closed := true } else s

end TwinStore.Cache
