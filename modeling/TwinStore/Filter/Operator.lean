import TwinStore.Fault
import TwinStore.Value.Compare

/-!
# Filter operators

Main definitions:

- `Operator`: the eight operators on a field, with their names.
- `Connective`: the two ways to combine filters.
- `Operator.holds`: what an operator says of a value and an operand, nulls read as in SQL.
-/

namespace TwinStore.Filter

/-- An operator on one field. -/
inductive Operator where
  | present
  | eq
  | gt
  | gte
  | lt
  | lte
  | isIn
  | notIn
deriving DecidableEq, Repr

/-- A way to combine several filters. -/
inductive Connective where
  | and
  | or
deriving DecidableEq, Repr

namespace Operator

/-- Every operator. -/
def all : List Operator := [present, eq, gt, gte, lt, lte, isIn, notIn]

/-- The key of an operator in a filter. -/
def key : Operator → String
  | present => "$exists"
  | eq => "$eq"
  | gt => "$gt"
  | gte => "$gte"
  | lt => "$lt"
  | lte => "$lte"
  | isIn => "$in"
  | notIn => "$nin"

/-- The operator with a key. -/
def ofKey? (s : String) : Option Operator := all.find? (·.key == s)

/-- Whether the operator compares by order. -/
def isOrdering : Operator → Bool
  | gt | gte | lt | lte => true
  | _ => false

/-- Whether the operand is a list of candidates. -/
def takesList : Operator → Bool
  | isIn | notIn => true
  | _ => false

/-- Whether an ordering operator accepts the order of value and operand. -/
def accepts : Operator → Ordering → Bool
  | gt, o => o == .gt
  | gte, o => o != .lt
  | lt, o => o == .lt
  | lte, o => o != .gt
  | _, _ => false

/-- The answer of a comparison that may be refused. -/
def decided : Option Bool → Outcome Bool
  | some b => .ok b
  | none => .error .signaling

/-- The candidates of a list operand. -/
def candidates : Value → List Value
  | .list items => items
  | .tuple items => items
  | v => [v]

/-- What an operator says of a value.  Order, membership and its opposite never hold of null; a null
among the candidates makes the opposite of membership false. -/
def holds (op : Operator) (value operand : Value) : Outcome Bool :=
  match op with
  | present => .ok ((!value.isNull) == operand.isTruthy)
  | eq => if operand.isNull then .ok value.isNull else decided (value.equal? operand)
  | isIn => if value.isNull then .ok false else decided (value.isMember? (candidates operand))
  | notIn =>
    let items := candidates operand
    if items.isEmpty then .ok true
    else if value.isNull || items.any Value.isNull then .ok false
    else (decided (value.isMember? items)).map (!·)
  | _ =>
    if value.isNull || operand.isNull then .ok false
    else .ok ((value.order? operand).any op.accepts)

end Operator

namespace Connective

/-- The connective with a key. -/
def ofKey? (s : String) : Option Connective :=
  if s = "$and" then some .and else if s = "$or" then some .or else none

end Connective

end TwinStore.Filter
