import TwinStore.Coercion
import TwinStore.Filter.Formula
import TwinStore.Model.Basic

/-!
# Filters on tables

A filter read for the primary store is a clause over the columns of a table.

Main definitions:

- `Comparison`: one condition on a column.
- `storeReading`: the reading of a filter for a table.
- `Clause`: a clause without redundant groups; `Clause.ofFormula` drops and flattens them.
- `toClause`: the clause of a filter.
-/

namespace TwinStore.Filter

/-- One condition on a column, its operand in the form of the column. -/
structure Comparison where
  column : String
  type : AttributeType
  operator : Operator
  operand : Value

/-- Whether a value has no place in an order: null and the two booleans. -/
def isUnordered : Value → Bool
  | .null | .bool _ => true
  | _ => false

/-- The reading of a filter for the table of a model.  Only columns of the table are known, and the
order of a column with null or a boolean cannot be asked for. -/
def storeReading (model : Model) : Reading Comparison where
  fieldType field :=
    match Entries.get? model.attributeTypes field with
    | some type => .ok (some type)
    | none => Outcome.filterError (.unknownField field (some model.name))
  condition field type operator operand := do
    let form ←
      if operator.takesList then
        pure (Value.list (← (Operator.candidates operand).mapM (coerce type)))
      else if operator = .present then pure operand
      else coerce type operand
    if operator.isOrdering && isUnordered form then throw (.statement .unordered)
    return ⟨field, type.getD .str, operator, form⟩

/-! ## Clauses -/

/-- A clause over the columns of a table.  The constant `always` stands for an empty filter alone;
`truth` is the condition that remains where groups of empty filters were. -/
inductive Clause (α : Type) where
  | always
  | truth
  | compare (condition : α)
  | and (parts : List (Clause α))
  | or (parts : List (Clause α))

namespace Clause

variable {α β : Type}

/-- Whether the clause is the constant of the empty filter. -/
def isAlways : Clause α → Bool
  | always => true
  | _ => false

/-- The parts of a conjunction, or the clause itself as its only part. -/
def conjuncts : Clause α → List (Clause α)
  | and parts => parts
  | c => [c]

/-- The parts of a disjunction, or the clause itself as its only part. -/
def disjuncts : Clause α → List (Clause α)
  | or parts => parts
  | c => [c]

/-- The conjunction of a list: empty filters say nothing, nested conjunctions are flattened, and one
part stands for itself. -/
def conjunction (parts : List (Clause α)) : Clause α :=
  match (parts.filter (!·.isAlways)) with
  | [] => truth
  | [c] => c
  | several => and (several.flatMap conjuncts)

/-- The disjunction of a list: an empty filter makes it true, nested disjunctions are flattened, and
one part stands for itself. -/
def disjunction (parts : List (Clause α)) : Clause α :=
  if parts.any isAlways then truth
  else
    match parts with
    | [c] => c
    | several => or (several.flatMap disjuncts)

mutual

/-- The clause of a formula. -/
def ofFormula : Formula α → Clause α
  | .leaf c => compare c
  | .conj [] => always
  | .conj (part :: rest) => conjunction (ofFormula part :: ofFormulas rest)
  | .disj parts => disjunction (ofFormulas parts)

/-- The clauses of a list of formulas. -/
def ofFormulas : List (Formula α) → List (Clause α)
  | [] => []
  | part :: rest => ofFormula part :: ofFormulas rest

end

mutual

/-- The clause with every condition replaced, from left to right, up to the first failure. -/
def mapOutcome (f : α → Outcome β) : Clause α → Outcome (Clause β)
  | always => .ok always
  | truth => .ok truth
  | compare c => (f c).map compare
  | and parts => (mapOutcomes f parts).map and
  | or parts => (mapOutcomes f parts).map or

/-- A list of clauses with every condition replaced. -/
def mapOutcomes (f : α → Outcome β) : List (Clause α) → Outcome (List (Clause β))
  | [] => .ok []
  | part :: rest => do return (← mapOutcome f part) :: (← mapOutcomes f rest)

end

end Clause

/-- The clause of a filter over the table of a model. -/
def toClause (where_ : Value) (model : Model) : Reported (Clause Comparison) := do
  return Clause.ofFormula (← (storeReading model).filter where_)

end TwinStore.Filter
