import TwinStore.Value.Display

/-!
# Faults

Everything that can go wrong in a computation on values, each cause with the data that its message
shows.

Main definitions:

- `FilterError`, `UpdateError`: mistakes in a filter or an update, with `message` and `field?`.
- `RegistryError`, `ConfigError`: mistakes in models or in the configuration.
- `StatementError`: why the database refuses a statement.
- `ModelProblem`: one thing wrong with the declaration of a model.
- `Fault`: all of these, and the failures of the values themselves.
-/

namespace TwinStore

/-! ## Mistakes in filters -/

/-- Why a filter or an operand cannot be read. -/
inductive FilterError where
  | unknownField (field : String) (model : Option String)
  | invalidDate (text : String)
  | invalidUuid (text : String)
  | invalidDecimal (operand : Value)
  | booleanAsDate (b : Bool)
  | notADate (kind : String)
  | malformedGroup (key : String)

namespace FilterError

/-- The text of a mistake in a filter. -/
def message : FilterError → String
  | unknownField field (some model) => s!"Unknown field '{field}' for '{model}'"
  | unknownField field none => s!"Unknown field '{field}'"
  | invalidDate text => "Invalid date value " ++ Text.quoted text
  | invalidUuid text => "Invalid UUID value " ++ Text.quoted text
  | invalidDecimal operand => "Invalid decimal value " ++ operand.literal
  | booleanAsDate b => "Cannot compare boolean " ++ (Value.bool b).literal ++ " as a date"
  | notADate kind => s!"Cannot compare {kind} as a date"
  | malformedGroup key => s!"'{key}' expects a filter or a list of filters"

/-- The field that a mistake concerns, where it concerns one. -/
def field? : FilterError → Option String
  | unknownField field _ => some field
  | _ => none

end FilterError

/-! ## Mistakes in updates -/

/-- The directive that adds to a date. -/
def sumDateKey : String := "$sumDate"

/-- Why an update cannot be applied. -/
inductive UpdateCause where
  | notAnObject (field : String)
  | missingParts (field : String) (parts : List String)
  | unitNotText (unit : Value)
  | unknownUnit (text : String) (known : List String)
  | unknownReference (field reference : String)
  | missingReference (field reference : String)
  | unknownField (field model : String)
  | impossibleSum (field unit : String) (number : Value)
  | operand (error : FilterError)

/-- A mistake in an update, with the field that it concerns. -/
structure UpdateError where
  cause : UpdateCause
  field? : Option String

/-- The text of a mistake in an update. -/
def UpdateError.message (e : UpdateError) : String :=
  match e.cause with
  | .notAnObject field => s!"{sumDateKey} on '{field}' expects an object"
  | .missingParts field parts =>
    s!"{sumDateKey} on '{field}' is missing " ++ ", ".intercalate parts
  | .unitNotText unit => "Date unit must be a string, got " ++ unit.literal
  | .unknownUnit text known =>
    s!"Unknown date unit '{text}' (expected one of " ++ ", ".intercalate known ++ ")"
  | .unknownReference field reference =>
    s!"{sumDateKey} on '{field}' refers to unknown field '{reference}'"
  | .missingReference field reference =>
    s!"{sumDateKey} on '{field}' refers to missing field '{reference}'"
  | .unknownField field model => s!"Unknown field '{field}' for '{model}'"
  | .impossibleSum field unit number => s!"Cannot add {number.literal} {unit}s on '{field}'"
  | .operand error => error.message

/-! ## Mistakes in declarations -/

/-- Why a model cannot be registered. -/
inductive RegistryError where
  | duplicateModel (name : String)

/-- The text of a mistake in the registry. -/
def RegistryError.message : RegistryError → String
  | .duplicateModel name => s!"Model '{name}' is already registered"

/-- Why a configuration yields no address. -/
inductive ConfigError where
  | noDatabase
  | noCache

/-- The text of a mistake in the configuration. -/
def ConfigError.message : ConfigError → String
  | .noDatabase => "Either database_url or connection must be configured"
  | .noCache => "redis_url must be configured"

/-! ## Failures of statements -/

/-- Why the database refuses a statement. -/
inductive StatementError where
  /-- A key occurs twice, or a value is missing where one must be. -/
  | violation
  /-- The statement cannot be run: its table is gone, or it says nothing. -/
  | notRunnable
  /-- A column is not in the table. -/
  | unknownColumn
  /-- A value has no form in tables at all. -/
  | unsupported
  /-- A value has no form in its column. -/
  | unbindable
  /-- An operand has no place in an order. -/
  | unordered
deriving DecidableEq, Repr

/-- The name under which a failure of a statement is reported. -/
def StatementError.name : StatementError → String
  | violation => "IntegrityError"
  | notRunnable => "OperationalError"
  | unknownColumn => "CompileError"
  | unsupported => "ProgrammingError"
  | unbindable => "StatementError"
  | unordered => "ArgumentError"

/-! ## Problems of declarations -/

/-- One step on the way to a part of a declaration. -/
inductive PathStep where
  | key (name : String)
  | item (index : Nat)

/-- What is wrong with a part of a declaration. -/
inductive ModelProblem where
  | missing
  | notAnIdentifier
  | notText
  | unknownType
  | unreadableFlag
  | notAFlag
  | notAList
  | notAnObject
  | notAModel

/-! ## All faults -/

/-- A computation's failure: a mistake in its input, or a value that does not allow the
operation. -/
inductive Fault where
  | filter (e : FilterError)
  | update (e : UpdateError)
  | registry (e : RegistryError)
  | config (e : ConfigError)
  /-- The declaration of a model is wrong in some places. -/
  | declaration (problems : List (List PathStep × ModelProblem))
  /-- Two attributes of a model have one name. -/
  | duplicateColumn
  /-- A value has a kind that the operation does not take. -/
  | wrongKind (detail : String)
  /-- A value has the right kind but no meaning. -/
  | badValue (detail : String)
  /-- A text is no document. -/
  | malformedDocument
  /-- A result lies outside the range of its type. -/
  | outOfRange
  /-- A point of time has no year that the calendar service can name. -/
  | unreachableTime
  /-- A value does not answer a request that only some kinds answer. -/
  | missingMember
  /-- A signalling value took part in an operation. -/
  | signaling
  /-- Nothing is known under a key. -/
  | missingKey
  /-- The database refuses a statement. -/
  | statement (e : StatementError)

/-- A computation that may fail. -/
abbrev Outcome (α : Type) := Except Fault α

/-- A mistake in a filter as the failure of an outcome. -/
def Outcome.filterError {α : Type} (e : FilterError) : Outcome α := .error (.filter e)

end TwinStore
