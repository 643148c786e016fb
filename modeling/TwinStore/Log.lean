import TwinStore.Value.Basic

/-!
# Log lines

Main definitions:

- `Severity`: the five levels, with their numbers and names.
- `LogLine`: a message with its level and the name of the logger.
-/

namespace TwinStore

/-- The level of a message. -/
inductive Severity where
  | debug
  | info
  | warning
  | error
  | critical
deriving DecidableEq, Repr

namespace Severity

/-- The number of a level. -/
def number : Severity → Nat
  | debug => 10
  | info => 20
  | warning => 30
  | error => 40
  | critical => 50

/-- The name of a level. -/
def name : Severity → String
  | debug => "DEBUG"
  | info => "INFO"
  | warning => "WARNING"
  | error => "ERROR"
  | critical => "CRITICAL"

end Severity

/-- A message for the log. -/
structure LogLine where
  severity : Severity
  logger : String
  message : String
deriving DecidableEq, Repr

end TwinStore
