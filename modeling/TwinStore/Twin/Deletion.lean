import TwinStore.Twin.Writing

/-!
# Deleting with all that belongs to it

Deleting records first deletes the records that belong to them, and so on.  Records that may refer
to each other in a circle are followed once: what is already being deleted is left to the call that
began it.

Main definitions:

- `Identity`: tells a record from all others.
- `targets`: the records that belong to some records, as filters on their models.
- `deleteWithin`: the deletion, given the records that are already being deleted.
- `delete`: the deletion of the records that satisfy a filter.
-/

namespace TwinStore.Twin

/-- What became of the records of a model, and of those that belong to them. -/
structure Deleted where
  primary : Option Bool := none
  cache : Option Bool := none
  failedRows : Nat := 0
  cascade : List (String × Deleted) := []

/-! ## Records that are being deleted -/

/-- Tells a record from all others: its model, with the values of its key or, without a key, with
its member. -/
structure Identity where
  model : String
  key : Value

namespace Identity

/-- Whether two identities are the same. -/
def same (a b : Identity) : Bool := a.model == b.model && Value.equal? a.key b.key == some true

/-- The identity of a record. -/
def ofRow (registry : Registry) (model : String) (row : Record) : Outcome Identity := do
  match registry.primaryKeys model with
  | [] => return ⟨model, .text (← Cache.encode row)⟩
  | names => return ⟨model, ← (Value.tuple (names.map row.field)).asKey⟩

end Identity

/-- The records that are not being deleted yet, and all that are being deleted with them. -/
def claimRows (registry : Registry) (model : String) (rows : List Record)
    (pending : List Identity) : Outcome (List Record × List Identity) := do
  let named ← rows.mapM fun row => do return (row, ← Identity.ofRow registry model row)
  let fresh := named.filter fun (_, identity) => !pending.any identity.same
  return (fresh.map (·.1), pending ++ fresh.map (·.2))

/-! ## Records that belong to others -/

/-- The values of a list without null and without repetition. -/
def distinctKeys : List Value → Outcome (List Value)
  | [] => .ok []
  | v :: rest => do
    let key ← v.asKey
    let others ← distinctKeys rest
    if key.isNull then return others
    return key :: others.filter fun other => Value.equal? key other != some true

/-- The filters that name the records that belong to some records, each with its model. -/
def targets (registry : Registry) (model : String) (rows : List Record) :
    Outcome (List (String × Value)) := do
  let relations := (registry.relationsOf model).filter (·.2.cascades)
  let filters ← relations.mapM fun (_, relation) => do
    let keys ← distinctKeys (rows.map (·.field relation.thisKey))
    if keys.isEmpty then return none
    return some (relation.name, Value.map [(relation.otherKey, .map [("$in", .list keys)])])
  return filters.filterMap id

/-! ## Deletion -/

/-- One deletion after another, each told what is already being deleted. -/
def deleteTargets
    (deletion : String → Value → List Identity → Action (Deleted × List Identity)) :
    List (String × Value) → List Identity → Action (List (String × Deleted) × List Identity)
  | [], pending => return ([], pending)
  | (name, where_) :: rest, pending => do
    let (result, pending) ← deletion name where_ pending
    let (results, pending) ← deleteTargets deletion rest pending
    return ((name, result) :: results, pending)

/-- Deletes rows of a model in the primary store: the common outcome, and how many failed. -/
def destroyRows (d : Deployment) (ref : CorrelationRef) (model : String) (rows : List Record) :
    Action (Option Bool × Nat) := do
  let outcomes ← Action.each (fun row => Primary.destroy d (some ref) model (.map row)) rows
  let failed := (outcomes.filter Option.isNone).length
  if failed > 0 then
    Action.report ref .error component
      s!"{Number.digits failed} of {Number.digits rows.length} rows not deleted"
      [("model", .text model)]
  if failed > 0 && failed = rows.length then return (none, failed)
  return (some (outcomes.any (· == some true)), failed)

/-- Deletes the records of a model that satisfy a filter, and before them all that belong to them,
except what is already being deleted.  Every step down finds a record that is not being deleted yet,
so the depth is at most the number of records. -/
def deleteWithin (d : Deployment) (ref : CorrelationRef) :
    (depth : Nat) → String → Value → List Identity → Action (Deleted × List Identity)
  | 0, _, _, pending => return ({}, pending)
  | depth + 1, model, where_, pending => do
    match ← Primary.query d (some ref) model (.filter where_) .null [] with
    | none =>
      let cache ← Cache.delete d (some ref) model where_
      return ({ cache }, pending)
    | some rows =>
      let (fresh, pending) ← Action.ofOutcome (claimRows d.registry model rows pending)
      let below ← Action.ofOutcome (targets d.registry model fresh)
      let (cascade, pending) ← deleteTargets (deleteWithin d ref depth) below pending
      let (primary, failedRows) ← destroyRows d ref model fresh
      let cache ← Cache.delete d (some ref) model where_
      return ({ primary, cache, failedRows, cascade }, pending)

/-- Deletes the records of a model that satisfy a filter, and all that belong to them. -/
def delete (d : Deployment) (given : Option CorrelationRef) (model : String) (where_ : Value) :
    Action Deleted :=
  Action.inScope given fun ref => do
    unless ← Action.knows d ref component model do return {}
    let depth := (← get).database.size + 1
    return (← deleteWithin d ref depth model where_ []).1

end TwinStore.Twin
