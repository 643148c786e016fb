import TwinStore.Filter.Sql
import TwinStore.Update.Basic

/-!
# Updates as SQL text

Main definitions:

- `Assignment.sql`: the text of a new column value.
- `updateSql`: the text of an update of a table.
-/

namespace TwinStore

open TwinStore.Filter

/-- The text of a part of a directive. -/
def Term.sql (dialect : Dialect) (table : String) : Term → Sql
  | column name => .plain (dialect.column table name)
  | value v => ⟨"?", [v]⟩

/-- The text of a new column value.  One dialect multiplies an interval, the other writes the amount
as a modifier, in days instead of weeks. -/
def Assignment.sql (dialect : Dialect) (table : String) : Assignment → Sql
  | literal v => ⟨"?", [v]⟩
  | sum date number unit asDate =>
    let date := date.sql dialect table
    let number := number.sql dialect table
    let parameters := date.parameters ++ number.parameters
    match dialect with
    | .postgresql =>
      ⟨s!"({date.text} + INTERVAL '1 {unit.name}' * {number.text})", parameters⟩
    | .sqlite =>
      let function := if asDate then "date" else "datetime"
      let (amount, unitName) :=
        if unit = .week then (s!"({number.text}) * 7", DateUnit.day.name)
        else (number.text, unit.name)
      ⟨s!"{function}({date.text}, ({amount}) || ' {unitName}s')", parameters⟩

/-- The text of an update of a table; columns stand in the order of the table. -/
def updateSql (dialect : Dialect) (model : Model) (values : Entries Assignment) : Sql :=
  let columns := (model.attributeTypes).filterMap fun (name, _) =>
    (Entries.get? values name).map fun a =>
      let s := a.sql dialect model.name
      { s with text := name ++ "=" ++ s.text }
  let set := Sql.join ", " columns
  ⟨"UPDATE " ++ dialect.table model.name ++ " SET " ++ set.text, set.parameters⟩

end TwinStore
