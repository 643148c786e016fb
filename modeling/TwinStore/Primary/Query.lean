import TwinStore.Include.Plan
import TwinStore.Primary.Failure
import TwinStore.Stores
import TwinStore.Value.Compare
import TwinStore.Value.Items

/-!
# Queries of the primary store

A query selects the records of a model.  The related records of all of them are fetched by one
selection for each plan.

Main definitions:

- `Selection`: what a query asks for.
- `attachPlans`: records with their related records attached.
- `query`: the records that a selection names, with related records.
-/

namespace TwinStore.Primary

open TwinStore.Filter Include

/-- The component under which the primary store reports. -/
def component : String := "SQL"

/-- A plan whose filter is a clause, as the primary store takes it. -/
abbrev ClausePlan := Plan (Clause Comparison)

/-- What a query asks for: a filter, or a clause made from one before. -/
inductive Selection where
  | filter (where_ : Value)
  | clause (clause : Clause Comparison)

/-- The clause of a selection. -/
def Selection.toClause (m : Model) : Selection → Reported (Clause Comparison)
  | filter where_ => Filter.toClause where_ m
  | clause c => return c

/-! ## Failures -/

/-- The text of a failure that the primary store answers for; any other one ends the operation. -/
def failureText? : Fault → Option String
  | .filter e => some (Failure.describe { kind := "FilterError", text := e.message })
  | .update e => some (Failure.describe { kind := "UpdateSpecError", text := e.message })
  | .statement e => some e.name
  | _ => none

/-- An operation on the table of a model; a failure that the store answers for is reported and gives
nothing. -/
def guarded {α : Type} (ref : CorrelationRef) (action model : String) (body : Action α) :
    Action (Option α) := do
  match ← Action.attempt body with
  | .ok a => return some a
  | .error fault =>
    match failureText? fault with
    | none => throw fault
    | some text =>
      Action.report ref .error component s!"{action} failed: {text}" [("model", .text model)]
      return none

/-- An operation on the table of a model, if the model is known. -/
def onTable {α : Type} (d : Deployment) (given : Option CorrelationRef) (model : String)
    (body : CorrelationRef → Model → Action (Option α)) : Action (Option α) :=
  Action.inScope given fun ref => do
    unless ← Action.knows d ref component model do return none
    body ref (← Action.ofOutcome (d.registry.table model))

/-! ## Related records -/

/-- The clause that selects the related records of some keys, under the filter of a plan. -/
def relatedClause (m : Model) (relation : Relation) (keys : List Value)
    (where_ : Option (Clause Comparison)) : Clause Comparison :=
  let type := (Entries.get? m.attributeTypes relation.otherKey).getD .str
  let member := Clause.compare ⟨relation.otherKey, type, .isIn, .list keys⟩
  match where_ with
  | none => member
  | some clause => Clause.conjunction [member, clause]

/-- The keys by which records refer to related ones; null refers to none. -/
def keysOf (relation : Relation) (records : List Record) : Outcome (List Value) := do
  let keys ← records.mapM fun r => (r.field relation.thisKey).asKey
  return keys.filter (!·.isNull)

/-- A record with those of the found records attached that its key refers to, and whether it
stays. -/
def attachFound (plan : ClausePlan) (relation : Relation) (shown : List (Value × Record))
    (entry : Record × Bool) : Record × Bool :=
  let (record, isKept) := entry
  let key := record.field relation.thisKey
  let related := shown.filter fun (other, _) => !key.isNull && Value.equal? other key == some true
  (Entries.set record plan.model (.list (related.map fun (_, r) => .map r)),
    isKept && !(plan.isRequired && related.isEmpty))

/-- Records of which none is dropped yet. -/
def keptAll (records : List Record) : List (Record × Bool) := records.map fun r => (r, true)

/-- The records that are not dropped. -/
def kept (entries : List (Record × Bool)) : List Record :=
  (entries.filter (·.2)).map (·.1)

mutual

/-- Records with the related records of a plan attached, and whether each stays. -/
def attachPlan (registry : Registry) (db : Database) :
    ClausePlan → List (Record × Bool) → Outcome (List (Record × Bool))
  | .node _ _ _ _ none _, entries => .ok entries
  | .node model required attributes where_ (some relation) children, entries => do
    let keys ← keysOf relation (entries.map (·.1))
    let plan : ClausePlan := .node model required attributes where_ (some relation) children
    let found ←
      if keys.isEmpty then pure []
      else do
        let m ← registry.table model
        let selected ← db.select m (relatedClause m relation keys where_)
        kept <$> attachPlans registry db children (keptAll selected)
    let shown ← found.mapM fun r => do
      return (← (r.field relation.otherKey).asKey, r.project attributes registry.modelNames)
    return entries.map (attachFound plan relation shown)

/-- Records with the related records of all plans attached, and whether each stays. -/
def attachPlans (registry : Registry) (db : Database) :
    List ClausePlan → List (Record × Bool) → Outcome (List (Record × Bool))
  | [], entries => .ok entries
  | plan :: rest, entries => do
    attachPlans registry db rest (← attachPlan registry db plan entries)

end

/-- The records that a clause selects, with the related records that plans ask for. -/
def selectWith (registry : Registry) (db : Database) (m : Model) (clause : Clause Comparison)
    (plans : List ClausePlan) : Outcome (List Record) := do
  let selected ← db.select m clause
  return kept (← attachPlans registry db plans (keptAll selected))

/-! ## Queries -/

/-- The fields of a record that a value names; all if it is null. -/
def projectNamed (modelNames : List String) (attributes : Value) (record : Record) :
    Outcome Record := do
  if attributes.isNull then return record
  return record.project (some (← attributes.names)) modelNames

/-- The records of a model that a selection names, with the related records that plans ask for;
nothing on a failure. -/
def query (d : Deployment) (given : Option CorrelationRef) (model : String) (selection : Selection)
    (attributes : Value) (plans : List ClausePlan) : Action (Option (List Record)) :=
  onTable d given model fun ref m => do
    let selected ← guarded ref "Query" model do
      let clause ← Action.ofReported (selection.toClause m)
      Action.ofOutcome (selectWith d.registry (← get).database m clause plans)
    match selected with
    | none => return none
    | some records =>
      return some (← Action.ofOutcome
        (records.mapM (projectNamed d.registry.modelNames attributes)))

end TwinStore.Primary
