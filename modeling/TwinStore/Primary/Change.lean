import TwinStore.Primary.Query
import TwinStore.Update.Counts

/-!
# Changes of the primary store

Every change is one statement, or several in one transaction: it happens as a whole or not at all.

Main definitions:

- `create`, `createAll`: insertion of one record, and of several.
- `update`: change of the records that satisfy a filter.
- `destroy`: deletion of one record.
-/

namespace TwinStore.Primary

open TwinStore.Filter

/-! ## Insertion -/

/-- The column values of a record in the form of their columns, without the fields that hold related
records. -/
def columnValues (registry : Registry) (model : String) (record : Value) :
    Outcome (Entries Value) := do
  let fields := (← record.entries).filter fun (k, _) => !registry.modelNames.contains k
  fields.mapM fun (k, v) => do
    return (k, ← coerce (Entries.get? (registry.attributeTypes model) k) v)

/-- Runs a statement that changes the database and gives a result. -/
def run {α : Type} (statement : Database → Outcome (Database × α)) : Action α := do
  let (database, a) ← Action.ofOutcome (statement (← get).database)
  modify fun s => { s with database }
  return a

/-- Inserts a record: the record as it is stored, or nothing on a failure. -/
def create (d : Deployment) (given : Option CorrelationRef) (model : String) (record : Value) :
    Action (Option Record) :=
  onTable d given model fun ref m =>
    guarded ref "Insert" model do
      let values ← Action.ofOutcome (columnValues d.registry model record)
      run fun db => db.insert m values

/-- Whether two records fill the same columns. -/
def sameColumns (a b : Entries Value) : Bool :=
  a.length == b.length && (Entries.keys a).all (Entries.has b ·)

/-- Inserts rows, by one statement if they fill the same columns. -/
def insertRows (m : Model) (rows : List (Entries Value)) (db : Database) :
    Outcome (Database × List Record) :=
  if rows.all fun row => rows.head?.all (sameColumns row) then db.insertMany m rows
  else db.insertEach m rows

/-- Inserts records, all or none: the records as they are stored, or nothing on a failure. -/
def createAll (d : Deployment) (given : Option CorrelationRef) (model : String) (records : Value) :
    Action (Option (List Record)) :=
  onTable d given model fun ref m => do
    unless records.isTruthy do return some []
    let created ← guarded ref "Bulk insert" model do
      let items ← Action.ofOutcome records.items
      let rows ← Action.ofOutcome (items.mapM (columnValues d.registry model))
      run (insertRows m rows)
    if let some stored := created then
      Action.report ref .debug component s!"Inserted {Number.digits stored.length} rows"
        [("model", .text model)]
    return created

/-! ## Update -/

/-- Changes the records that satisfy a filter; nothing on a failure. -/
def update (d : Deployment) (given : Option CorrelationRef) (model : String) (spec where_ : Value) :
    Action (Option ChangeCounts) :=
  onTable d given model fun ref m =>
    guarded ref "Update" model do
      let clause ← Action.ofReported (toClause where_ m)
      let values ← Action.ofOutcome (do assignments (← spec.entries) m)
      run fun db => do
        let found ← db.count m clause
        if found = 0 then return (db, { found, updated := 0 })
        return (← db.update m clause values, { found, updated := found })

/-! ## Deletion -/

/-- The filter that names a record by its key, or by all columns if the model has no key. -/
def rowFilter (m : Model) (row : Value) : Outcome Value := do
  let fields ← row.entries
  let names := if m.primaryKeys.isEmpty then m.attributes.map (·.name) else m.primaryKeys
  return .map (names.map fun name => (name, Record.field fields name))

/-- Deletes the record of a row: true if it was there, false if not, and nothing on a failure. -/
def deleteRow (d : Deployment) (given : Option CorrelationRef) (model : String) (row : Value) :
    Action (Option Bool) :=
  onTable d given model fun ref m =>
    guarded ref "Delete" model do
      let where_ ← Action.ofOutcome (rowFilter m row)
      let clause ← Action.ofReported (toClause where_ m)
      let deleted ← run fun db => db.delete m clause
      return deleted > 0

/-- Deletes the record of a row, unless another outcome is planned. -/
def destroy (d : Deployment) (given : Option CorrelationRef) (model : String) (row : Value) :
    Action (Option Bool) := do
  match (← get).plannedDeletions with
  | outcome :: rest =>
    modify fun s => { s with plannedDeletions := rest }
    return outcome
  | [] => deleteRow d given model row

end TwinStore.Primary
