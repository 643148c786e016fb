import TwinStore.Config.Basic
import TwinStore.Log
import TwinStore.Text.LowerCase

/-!
# Reading a configuration

A configuration is read from named arguments, from the variables of an environment, or from both; an
argument counts before a variable.

Main definitions:

- `Config.withArguments`: a configuration changed by named arguments.
- `Config.ofEnvironment`: the configuration of an environment.
-/

namespace TwinStore

/-! ## Arguments -/

/-- A text, or nothing. -/
def optionalText (v : Value) : Option String := if v.isNull then none else some v.display

/-- A whole number; any other value counts as zero. -/
def wholeArgument : Value → Int
  | .int n => n
  | .bool b => if b then 1 else 0
  | _ => 0

/-- A part of a connection changed by a named argument. -/
def Connection.withArgument (c : Connection) : String × Value → Outcome Connection
  | ("user", v) => .ok { c with user := v.display }
  | ("password", v) => .ok { c with password := v.display }
  | ("host", v) => .ok { c with host := v.display }
  | ("port", v) => .ok { c with portText := v.display }
  | ("database", v) => .ok { c with database := v.display }
  | (name, _) => .error (.wrongKind s!"got an unexpected keyword argument '{name}'")

/-- The connection of named arguments; user and password must be among them. -/
def Connection.ofArguments (arguments : Entries Value) : Outcome Connection := do
  let missing := ["user", "password"].filter (!Entries.has arguments ·)
  unless missing.isEmpty do throw (.wrongKind "missing required positional arguments")
  arguments.foldlM Connection.withArgument { user := "", password := "" }

/-- The connection of an argument. -/
def Connection.ofValue : Value → Outcome (Option Connection)
  | .map fields => do return some (← Connection.ofArguments fields)
  | .null => .ok none
  | _ => .error (.wrongKind "connection")

namespace Config

/-- A configuration changed by a named argument. -/
def withArgument (c : Config) : String × Value → Outcome Config
  | ("database_url", v) => .ok { c with databaseText := optionalText v }
  | ("connection", v) => do return { c with connection := ← Connection.ofValue v }
  | ("echo_sql", v) => .ok { c with echoesSql := v.isTruthy }
  | ("redis_url", v) => .ok { c with cacheText := optionalText v }
  | ("redis_namespace", v) => .ok { c with namespaceText := v.display }
  | ("hello_message", v) => .ok { c with greets := v.isTruthy }
  | ("log_level", v) => .ok { c with logLevel := wholeArgument v }
  | ("log_dir", v) => .ok { c with logDirectory := (optionalText v).map Text.normalPath }
  | ("extra_engine_options", .map options) => .ok { c with engineOptions := options }
  | ("extra_engine_options", _) => .ok { c with engineOptions := [] }
  | (name, _) => .error (.wrongKind s!"got an unexpected keyword argument '{name}'")

/-- A configuration changed by named arguments. -/
def withArguments (c : Config) (arguments : Entries Value) : Outcome Config :=
  arguments.foldlM withArgument c

/-! ## Variables -/

/-- The words for true. -/
def trueWords : List String := ["1", "true", "yes", "on"]

/-- The names of levels with their numbers. -/
def levelNames : Entries Nat :=
  [("CRITICAL", 50), ("FATAL", 50), ("ERROR", 40), ("WARN", 30), ("WARNING", 30), ("INFO", 20),
    ("DEBUG", 10), ("NOTSET", 0)]

/-- The number of a level by its name in any case; an unknown name stands for the usual level. -/
def levelNamed (name : String) : Nat :=
  (Entries.get? levelNames (Text.upperAscii name)).getD Severity.info.number

/-- The configuration of an environment; an empty variable for an address or a directory counts as
none. -/
def ofEnvironment (environment : Entries String) : Config where
  databaseText := nonempty? (Entries.get? environment "DATABASE_URL")
  cacheText := nonempty? (Entries.get? environment "REDIS_URL")
  namespaceText := (Entries.get? environment "DBFLOW_REDIS_NAMESPACE").getD ""
  greets := trueWords.contains
    (Text.lowerCase ((Entries.get? environment "DBFLOW_HELLO_MESSAGE").getD "true"))
  logLevel := levelNamed ((Entries.get? environment "DBFLOW_LOG_LEVEL").getD "INFO")
  logDirectory := (nonempty? (Entries.get? environment "DBFLOW_LOG_DIR")).map Text.normalPath

end Config

end TwinStore
