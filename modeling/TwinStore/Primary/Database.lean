import TwinStore.Primary.DateSum
import TwinStore.Primary.Table
import TwinStore.Update.Basic

/-!
# The database

A statement is run in steps, and the first step that fails decides the failure: values take the
forms of their columns, the table is looked up, values become cells, and the table changes.  A
statement that fails changes nothing.

Main definitions:

- `Database`: the tables that exist.
- `Database.select`, `Database.insert`, `Database.insertEach`, `Database.insertMany`,
  `Database.update`, `Database.delete`: the statements.
-/

namespace TwinStore.Primary

open TwinStore.Filter

attribute [local instance (1100)] Zero.ofOfNat0

/-- The tables that exist, under the names of their models. -/
structure Database where
  tables : Entries Table := []

namespace Database

/-- Empty tables for a list of models. -/
def create (models : List Model) : Database := ⟨models.map fun m => (m.name, ⟨m, []⟩)⟩

/-- The table of a model. -/
def table (db : Database) (m : Model) : Outcome Table :=
  match Entries.get? db.tables m.name with
  | some t => .ok t
  | none => .error (.statement .notRunnable)

/-- Replaces the table of a model. -/
def put (db : Database) (t : Table) : Database := ⟨Entries.set db.tables t.model.name t⟩

/-- Deletes all rows of a table. -/
def wipe (db : Database) (name : String) : Database :=
  ⟨db.tables.map fun (n, t) => (n, if n = name then { t with rows := [] } else t)⟩

/-- Removes a table. -/
def drop (db : Database) (name : String) : Database := ⟨Entries.erase db.tables name⟩

/-- The number of rows in all tables. -/
def size (db : Database) : Nat := (db.tables.map fun (_, t) => t.rows.length).sum

/-- A change of a table as part of a statement. -/
def ofTable {α : Type} : Except StatementError α → Outcome α
  | .ok a => .ok a
  | .error e => .error (.statement e)

/-! ## Selection -/

/-- A clause with its operands in the forms of their columns. -/
def prepare (clause : Clause Comparison) : Outcome (Clause (Condition Value)) :=
  clause.mapOutcome Condition.ofComparison

/-- A prepared clause with its operands as cells. -/
def ready (clause : Clause (Condition Value)) : Outcome Test :=
  clause.mapOutcome (Condition.mapOutcome cellOf)

/-- A row as a record. -/
def recordOf (m : Model) (row : Row) : Outcome Record :=
  m.attributes.mapM fun a => do return (a.name, ← valueOf a.type (row.cell a.name))

/-- The table of a model and the test of a clause on its rows. -/
def tableAndTest (db : Database) (m : Model) (clause : Clause Comparison) :
    Outcome (Table × Test) := do
  let prepared ← prepare clause
  let t ← db.table m
  return (t, ← ready prepared)

/-- The records that a clause selects, in the order of their keys. -/
def select (db : Database) (m : Model) (clause : Clause Comparison) : Outcome (List Record) := do
  let (t, test) ← db.tableAndTest m clause
  (t.select test).mapM (recordOf m)

/-! ## Insertion -/

/-- The columns of a table that a record fills, in the order of the table, their values prepared. -/
def prepareRow (m : Model) (values : Entries Value) : Outcome (Entries Value) :=
  (m.attributes.filter fun a => Entries.has values a.name).mapM fun a => do
    return (a.name, ← (Binding.ofType a.type).prepare ((Entries.get? values a.name).getD .null))

/-- Prepared values as cells. -/
def readyRow (values : Entries Value) : Outcome (Entries Cell) :=
  values.mapM fun (name, v) => do return (name, ← cellOf v)

/-- Inserts a record: the database afterwards and the record as it stands in it. -/
def insert (db : Database) (m : Model) (values : Entries Value) : Outcome (Database × Record) := do
  unless values.all fun (name, _) => m.hasAttribute name do throw (.statement .unknownColumn)
  let prepared ← prepareRow m values
  let t ← db.table m
  let (t, row) ← ofTable (t.insert (← readyRow prepared))
  return (db.put t, ← recordOf m row)

/-- Inserts records by one statement each. -/
def insertEach (db : Database) (m : Model) :
    List (Entries Value) → Outcome (Database × List Record)
  | [] => .ok (db, [])
  | values :: rest => do
    let (db, record) ← db.insert m values
    let (db, records) ← db.insertEach m rest
    return (db, record :: records)

/-- Inserts records that fill the same columns by one statement, which leaves out what is no
column. -/
def insertMany (db : Database) (m : Model) (records : List (Entries Value)) :
    Outcome (Database × List Record) := do
  let prepared ← records.mapM (prepareRow m)
  let t ← db.table m
  let cells ← prepared.mapM readyRow
  let (t, rows) ← ofTable (t.insertAll cells)
  return (db.put t, ← rows.mapM (recordOf m))

/-! ## Change -/

/-- A part of a sum of dates in a statement. -/
inductive Part (α : Type) where
  | column (name : String)
  | value (v : α)

/-- The new value of a column in a statement. -/
inductive Setter (α : Type) where
  | literal (v : α)
  | sum (date number : Part α) (unit : DateUnit) (asDate : Bool)

/-- A part of a sum with its value in some form. -/
def Part.ofTerm (binding : Binding) : Term → Outcome (Part Value)
  | .column name => .ok (.column name)
  | .value v => do return .value (← binding.prepare v)

/-- The new value of a column with its values in their forms. -/
def Setter.ofAssignment (m : Model) (name : String) : Assignment → Outcome (Setter Value)
  | .literal v => do
    let type := (Entries.get? m.attributeTypes name).getD .str
    return .literal (← (Binding.ofType type).prepare v)
  | .sum date number unit asDate => do
    let date ← Part.ofTerm .instant date
    let operand := match number with
      | .value v => Binding.plain.ofOperand v
      | .column _ => .plain
    return .sum date (← Part.ofTerm operand number) unit asDate

/-- A part of a sum with its value as a cell. -/
def Part.ready : Part Value → Outcome (Part Cell)
  | column name => .ok (column name)
  | value v => (cellOf v).map value

/-- The new value of a column with its values as cells. -/
def Setter.ready : Setter Value → Outcome (Setter Cell)
  | literal v => (cellOf v).map literal
  | sum date number unit asDate => do
    return sum (← date.ready) (← number.ready) unit asDate

/-- The cell that a part of a sum stands for. -/
def Part.cell (row : Row) : Part Cell → Cell
  | column name => row.cell name
  | value cell => cell

/-- The new cell of a column. -/
def Setter.cell (row : Row) : Setter Cell → Cell
  | literal cell => cell
  | sum date number unit asDate => sumCell unit asDate (date.cell row) (number.cell row)

/-- The number of records that a clause selects. -/
def count (db : Database) (m : Model) (clause : Clause Comparison) : Outcome Nat := do
  let (t, test) ← db.tableAndTest m clause
  return (t.rows.filter test.selects).length

/-- Changes the records that a clause selects; new values read the row before the change. -/
def update (db : Database) (m : Model) (clause : Clause Comparison)
    (values : Entries Assignment) : Outcome Database := do
  let named ← (m.attributes.filterMap fun a =>
      (Entries.get? values a.name).map fun v => (a.name, v)).mapM fun (name, v) => do
    return (name, ← Setter.ofAssignment m name v)
  let prepared ← prepare clause
  let t ← db.table m
  if named.isEmpty then throw (.statement .notRunnable)
  let setters ← named.mapM fun (name, s) => do return (name, ← s.ready)
  let test ← ready prepared
  let t ← ofTable (t.update test fun row => setters.map fun (name, s) => (name, s.cell row))
  return db.put t

/-- Deletes the records that a clause selects: the database afterwards and their number. -/
def delete (db : Database) (m : Model) (clause : Clause Comparison) : Outcome (Database × Nat) := do
  let (t, test) ← db.tableAndTest m clause
  let (t, deleted) := t.delete test
  return (db.put t, deleted)

end Database

end TwinStore.Primary
