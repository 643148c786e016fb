import TwinStore.Filter.Clause
import TwinStore.Primary.Binding

/-!
# Conditions on rows

A clause is evaluated on a row by the logic of three truth values: a comparison with null is neither
true nor false.  A row is selected if its clause is true.

Main definitions:

- `Row`: the cells of a row under the names of their columns.
- `Condition`: one condition on a column, its operands prepared.
- `Condition.holds?`, `Clause.holds?`: the truth value on a row.
-/

namespace TwinStore.Primary

open TwinStore.Filter

/-- The cells of a row under the names of their columns, in the order of the table. -/
abbrev Row := Entries Cell

/-- The cell in a column. -/
def Row.cell (row : Row) (column : String) : Cell := (Entries.get? row column).getD .null

/-- One condition on a column. -/
inductive Condition (α : Type) where
  | missing (column : String) (negated : Bool)
  | compare (column : String) (affinity : Affinity) (operator : Operator) (operand : α)
  | member (column : String) (affinity : Affinity) (negated : Bool) (operands : List α)

namespace Condition

/-- The condition of a comparison, its operands in the form of the column. -/
def ofComparison (c : Comparison) : Outcome (Condition Value) :=
  let column := Binding.ofType c.type
  let affinity := Affinity.ofType c.type
  let membership (negated : Bool) : Outcome (Condition Value) := do
    let operands := Operator.candidates c.operand
    let binding := column.ofOperands operands
    return .member c.column affinity negated (← operands.mapM binding.prepare)
  match c.operator with
  | .present => .ok (.missing c.column c.operand.isTruthy)
  | .isIn => membership false
  | .notIn => membership true
  | operator =>
    match c.operand with
    | .null => .ok (.missing c.column false)
    | .bool b => .ok (.compare c.column affinity operator (.int (if b then 1 else 0)))
    | operand => do
      return .compare c.column affinity operator (← (column.ofOperand operand).prepare operand)

/-- The condition with its operands replaced, up to the first failure. -/
def mapOutcome {α β : Type} (f : α → Outcome β) : Condition α → Outcome (Condition β)
  | missing column negated => .ok (missing column negated)
  | compare column affinity operator operand => do
    return compare column affinity operator (← f operand)
  | member column affinity negated operands => do
    return member column affinity negated (← operands.mapM f)

/-- The truth value of a comparison of a cell with an operand. -/
def compared? (operator : Operator) (cell operand : Cell) : Option Bool :=
  (cell.compare? operand).map fun order =>
    if operator = .eq then order == .eq else operator.accepts order

/-- The truth value of membership: false in an empty list, and unknown if the cell is null or if
only a null could be the match. -/
def memberOf? (cell : Cell) (operands : List Cell) : Option Bool :=
  if operands.isEmpty then some false
  else if cell.isNull then none
  else if operands.any (cell.sameKey ·) then some true
  else if operands.any Cell.isNull then none
  else some false

/-- The truth value of a condition on a row. -/
def holds? (row : Row) : Condition Cell → Option Bool
  | missing column negated => some ((row.cell column).isNull != negated)
  | compare column affinity operator operand =>
    compared? operator (row.cell column) (affinity.store operand)
  | member column affinity negated operands =>
    (memberOf? (row.cell column) (operands.map affinity.store)).map (· != negated)

end Condition

/-! ## Clauses -/

/-- Conjunction of truth values: false wins, then the unknown. -/
def andThree : Option Bool → Option Bool → Option Bool
  | some false, _ => some false
  | _, some false => some false
  | some true, b => b
  | none, _ => none

/-- Disjunction of truth values: true wins, then the unknown. -/
def orThree : Option Bool → Option Bool → Option Bool
  | some true, _ => some true
  | _, some true => some true
  | some false, b => b
  | none, _ => none

/-- A clause over the columns of a table, ready to be evaluated. -/
abbrev Test := Clause (Condition Cell)

mutual

/-- The truth value of a clause on a row. -/
def Test.holds? (row : Row) : Test → Option Bool
  | .always => some true
  | .truth => some true
  | .compare c => c.holds? row
  | .and parts => Test.allHold? row parts
  | .or parts => Test.someHolds? row parts

/-- The truth value of the conjunction of clauses. -/
def Test.allHold? (row : Row) : List Test → Option Bool
  | [] => some true
  | part :: rest => andThree (Test.holds? row part) (Test.allHold? row rest)

/-- The truth value of the disjunction of clauses. -/
def Test.someHolds? (row : Row) : List Test → Option Bool
  | [] => some false
  | part :: rest => orThree (Test.holds? row part) (Test.someHolds? row rest)

end

/-- Whether a clause selects a row. -/
def Test.selects (test : Test) (row : Row) : Bool := test.holds? row == some true

end TwinStore.Primary
