import TwinStore.Coercion
import TwinStore.Filter.Formula

/-!
# Filters on records

A filter read for the cache is a predicate on records.  Operands and fields take the form in which
records compare; a field whose value cannot take it does not match.

Main definitions:

- `Check`: one condition on a record.
- `recordReading`: the reading of a filter for records.
- `Formula.holdsFor`: whether a record satisfies a formula of checks.
- `Predicate.ofFilter`: the predicate of a filter.
-/

namespace TwinStore.Filter

/-- One condition on a record, its operand in the form in which records compare. -/
structure Check where
  field : String
  type : Option AttributeType
  operator : Operator
  operand : Value

/-- Whether a record satisfies a condition. -/
def Check.holdsFor (c : Check) (record : Record) : Outcome Bool :=
  match comparable c.type (record.field c.field) with
  | .ok value => c.operator.holds value c.operand
  | .error (.filter _) => .ok false
  | .error fault => .error fault

/-- The reading of a filter for records.  With known types, a field without one is a mistake;
without any, every field is taken as it is. -/
def recordReading (types : Option (Entries AttributeType)) : Reading Check where
  fieldType field :=
    match types with
    | none => .ok none
    | some known =>
      match Entries.get? known field with
      | some type => .ok (some type)
      | none => Outcome.filterError (.unknownField field none)
  condition field type operator operand := do
    let form ←
      if operator.takesList then
        let candidates ← (Operator.candidates operand).mapM (comparable type)
        pure (.list candidates)
      else if operator = .present then pure operand
      else comparable type operand
    return ⟨field, type, operator, form⟩

namespace Formula

mutual

/-- Whether a record satisfies a formula; parts are tried in order, and a decided formula tries no
further ones. -/
def holdsFor (record : Record) : Formula Check → Outcome Bool
  | leaf c => c.holdsFor record
  | conj parts => allHoldFor record parts
  | disj parts => someHoldsFor record parts

/-- Whether a record satisfies every part. -/
def allHoldFor (record : Record) : List (Formula Check) → Outcome Bool
  | [] => .ok true
  | part :: rest => do if ← holdsFor record part then allHoldFor record rest else return false

/-- Whether a record satisfies some part. -/
def someHoldsFor (record : Record) : List (Formula Check) → Outcome Bool
  | [] => .ok false
  | part :: rest => do if ← holdsFor record part then return true else someHoldsFor record rest

end

end Formula

/-- A predicate on records. -/
abbrev Predicate := Record → Outcome Bool

/-- The predicate of a filter. -/
def Predicate.ofFilter (where_ : Value) (types : Option (Entries AttributeType)) :
    Reported Predicate := do
  let formula ← (recordReading types).filter where_
  return fun record => formula.holdsFor record

end TwinStore.Filter
