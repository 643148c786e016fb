import TwinStore.Filter.Operator
import TwinStore.Log
import TwinStore.Model.Attribute

/-!
# Filters as formulas

A filter maps field names to operands or operator sets, and `$and` and `$or` to nested filters.  It
is read once into a formula; what stands at the leaves depends on who reads it.

Main definitions:

- `Formula`: conditions combined by conjunction and disjunction.
- `Reading`: which fields a reader knows and what it makes of a condition.
- `Reading.filter`: the formula of a filter; keys that nobody knows are reported and skipped.
-/

namespace TwinStore.Filter

/-- Conditions combined by conjunction and disjunction. -/
inductive Formula (α : Type) where
  | leaf (condition : α)
  | conj (parts : List (Formula α))
  | disj (parts : List (Formula α))

/-- A computation that may fail and reports warnings, also those before a failure. -/
abbrev Reported (α : Type) := ExceptT Fault (StateM (List LogLine)) α

namespace Reported

/-- Runs a reported computation: its warnings in order, and its outcome. -/
def run {α : Type} (x : Reported α) : List LogLine × Outcome α :=
  let (outcome, lines) := ExceptT.run x []
  (lines, outcome)

/-- Reports a warning. -/
def warn (message : String) : Reported Unit :=
  modify (· ++ [⟨.warning, "dbflow.runtime.filters", message⟩])

/-- An outcome without warnings. -/
def ofOutcome {α : Type} : Outcome α → Reported α
  | .ok a => pure a
  | .error e => throw e

end Reported

/-- A reader of filters: the type of a field, if the reader knows the field, and the leaf that it
makes of an operator and operand. -/
structure Reading (α : Type) where
  fieldType : String → Outcome (Option AttributeType)
  condition : String → Option AttributeType → Operator → Value → Outcome α

/-- The key that a filter may carry for other readers; it is ignored at every level. -/
def transformKey : String := "$transform"

/-- A filter without the key for other readers; an empty value is the empty filter, and only maps
have keys. -/
def withoutTransform (where_ : Value) : Outcome (Entries Value) :=
  match where_ with
  | .map entries => .ok (Entries.erase entries transformKey)
  | v => if v.isTruthy then .error .missingMember else .ok []

/-- The operand of a list operator as a list: texts, byte strings and single values stand for lists
of one, a map for its keys. -/
def operandList : Value → Value
  | .list items => .list items
  | .tuple items => .list items
  | .map entries => .list (entries.map fun e => .text e.1)
  | v => .list [v]

/-- The conditions of one field: an operator set, or a plain value for equality. -/
def conditionsOn (field : String) (value : Value) : Reported (List (Operator × Value)) :=
  match value with
  | .map entries => do
    let conditions ← entries.mapM fun (key, operand) => do
      match Operator.ofKey? key with
      | some op => return [(op, if op.takesList then operandList operand else operand)]
      | none =>
        Reported.warn s!"Unknown filter operator '{key}' on field '{field}' ignored"
        return []
    return conditions.flatten
  | value => return [(.eq, value)]

/-- The nested filters under a connective: one filter, or a list of filters only. -/
def groupMembers (key : String) (value : Value) : Outcome (List (List (String × Value))) :=
  let all (items : List Value) : Outcome (List (List (String × Value))) :=
    items.mapM fun
      | .map entries => .ok entries
      | _ => Outcome.filterError (.malformedGroup key)
  match value with
  | .map entries => .ok [entries]
  | .list items => all items
  | .tuple items => all items
  | _ => Outcome.filterError (.malformedGroup key)

/-- The formula of the parts under a connective. -/
def Connective.combine {α : Type} : Connective → List (Formula α) → Formula α
  | .and, parts => .conj parts
  | .or, parts => .disj parts

/-- Parts under a connective as one formula; an empty group says nothing. -/
def Connective.grouped {α : Type} (connective : Connective) (parts : List (Formula α)) :
    List (Formula α) :=
  if parts.isEmpty then [] else [connective.combine parts]

namespace Reading

variable {α : Type}

/-- The conditions of one field as leaves. -/
def field (reading : Reading α) (key : String) (value : Value) : Reported (List (Formula α)) := do
  let type ← Reported.ofOutcome (reading.fieldType key)
  let conditions ← conditionsOn key value
  conditions.mapM fun (op, operand) => do
    return .leaf (← Reported.ofOutcome (reading.condition key type op operand))

mutual

/-- The parts of a filter, key by key. -/
def entries (reading : Reading α) : List (String × Value) → Reported (List (Formula α))
  | [] => return []
  | (key, value) :: rest => do
    let here ←
      if key = transformKey then pure []
      else if key.startsWith "$" then group reading key value
      else reading.field key value
    return here ++ (← entries reading rest)

/-- The part under a key with a dollar sign. -/
def group (reading : Reading α) (key : String) (value : Value) : Reported (List (Formula α)) :=
  match Connective.ofKey? key with
  | none => do
    Reported.warn s!"Unknown logical operator '{key}' ignored"
    return []
  | some connective => do
    let _ ← Reported.ofOutcome (groupMembers key value)
    match value with
    | .map inner => return [connective.combine [.conj (← entries reading inner)]]
    | .list items => return connective.grouped (← groups reading items)
    | .tuple items => return connective.grouped (← groups reading items)
    | _ => return []

/-- The formulas of the filters of a list. -/
def groups (reading : Reading α) : List Value → Reported (List (Formula α))
  | [] => return []
  | .map inner :: rest => do
    let first ← entries reading inner
    return .conj first :: (← groups reading rest)
  | _ :: rest => groups reading rest

end

/-- The formula of a filter: the conjunction of its parts. -/
def filter (reading : Reading α) (where_ : Value) : Reported (Formula α) := do
  let stripped ← Reported.ofOutcome (withoutTransform where_)
  return .conj (← entries reading stripped)

end Reading

end TwinStore.Filter
