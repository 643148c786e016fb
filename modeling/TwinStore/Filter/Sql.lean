import TwinStore.Filter.Clause

/-!
# Clauses as SQL text

Main definitions:

- `Dialect`: the two dialects that clauses are written for.
- `Sql`: text with its parameters in the order of their places.
- `Clause.sql`: the text of a clause.
-/

namespace TwinStore.Filter

/-- A dialect of SQL. -/
inductive Dialect where
  | sqlite
  | postgresql
deriving DecidableEq, Repr

/-- SQL text with the values of its parameters, in the order of the places marked `?`. -/
structure Sql where
  text : String
  parameters : List Value

namespace Dialect

/-- The name of a table; `user` is a reserved word of one dialect. -/
def table (dialect : Dialect) (name : String) : String :=
  if dialect = postgresql ∧ name = "user" then "\"user\"" else name

/-- A column with its table. -/
def column (dialect : Dialect) (table name : String) : String := dialect.table table ++ "." ++ name

/-- The constant true, as a whole clause. -/
def always : Dialect → String
  | sqlite => "1"
  | postgresql => "true"

/-- The condition that always holds. -/
def truth : Dialect → String
  | sqlite => "1 = 1"
  | postgresql => "true"

/-- A boolean constant. -/
def boolean : Dialect → Bool → String
  | sqlite, b => if b then "1" else "0"
  | postgresql, b => if b then "true" else "false"

end Dialect

namespace Sql

/-- Text without parameters. -/
def plain (text : String) : Sql := ⟨text, []⟩

/-- Several texts with a separator. -/
def join (separator : String) (parts : List Sql) : Sql :=
  ⟨separator.intercalate (parts.map (·.text)), parts.flatMap (·.parameters)⟩

/-- A text in parentheses. -/
def parenthesized (s : Sql) : Sql := ⟨"(" ++ s.text ++ ")", s.parameters⟩

end Sql

/-- One place for each of a number of parameters. -/
def places (n : Nat) : String := "(" ++ ", ".intercalate (List.replicate n "?") ++ ")"

/-- Membership in an empty list, which no value has. -/
def emptyMembership (dialect : Dialect) (column : String) (negated : Bool) : String :=
  match dialect, negated with
  | .sqlite, false => column ++ " IN (SELECT 1 FROM (SELECT 1) WHERE 1!=1)"
  | .sqlite, true => "(" ++ column ++ " NOT IN (SELECT 1 FROM (SELECT 1) WHERE 1!=1))"
  | .postgresql, false => column ++ " IN (NULL) AND (1 != 1)"
  | .postgresql, true => "(" ++ column ++ " NOT IN (NULL) OR (1 = 1))"

/-- The sign of an operator between column and operand. -/
def Operator.sign : Operator → String
  | gt => ">"
  | gte => ">="
  | lt => "<"
  | lte => "<="
  | _ => "="

/-- The text of a condition on a column. -/
def Comparison.sql (dialect : Dialect) (table : String) (c : Comparison) : Sql :=
  let column := dialect.column table c.column
  match c.operator with
  | .present => .plain (column ++ (if c.operand.isTruthy then " IS NOT NULL" else " IS NULL"))
  | .isIn =>
    let items := Operator.candidates c.operand
    if items.isEmpty then .plain (emptyMembership dialect column false)
    else ⟨column ++ " IN " ++ places items.length, items⟩
  | .notIn =>
    let items := Operator.candidates c.operand
    if items.isEmpty then .plain (emptyMembership dialect column true)
    else ⟨"(" ++ column ++ " NOT IN " ++ places items.length ++ ")", items⟩
  | operator =>
    match c.operand with
    | .null => .plain (column ++ " IS NULL")
    | .bool b => .plain (column ++ " = " ++ dialect.boolean b)
    | operand => ⟨column ++ " " ++ operator.sign ++ " ?", [operand]⟩

namespace Clause

/-- Whether the clause is a disjunction of several parts. -/
def isDisjunction {α : Type} : Clause α → Bool
  | or _ => true
  | _ => false

mutual

/-- The text of a clause over a table; a disjunction inside a conjunction is parenthesised. -/
def sql (dialect : Dialect) (table : String) : Clause Comparison → Sql
  | always => .plain dialect.always
  | truth => .plain dialect.truth
  | compare c => c.sql dialect table
  | and parts => Sql.join " AND " (conjunctTexts dialect table parts)
  | or parts => Sql.join " OR " (texts dialect table parts)

/-- The texts of the parts of a conjunction. -/
def conjunctTexts (dialect : Dialect) (table : String) : List (Clause Comparison) → List Sql
  | [] => []
  | part :: rest =>
    let here := sql dialect table part
    (if part.isDisjunction then here.parenthesized else here) :: conjunctTexts dialect table rest

/-- The texts of a list of clauses. -/
def texts (dialect : Dialect) (table : String) : List (Clause Comparison) → List Sql
  | [] => []
  | part :: rest => sql dialect table part :: texts dialect table rest

end

end Clause

end TwinStore.Filter
