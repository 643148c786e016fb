import TwinStore.Cache.Search
import TwinStore.Update.Basic
import TwinStore.Update.Counts
import TwinStore.Value.Items

/-!
# Changing the cache

Records are added to and removed from the set of their model.  An update removes the old members and
adds the new ones; the two steps fail independently, and the counts tell what is left.

Main definitions:

- `create`, `delete`, `update`: the changes.
-/

namespace TwinStore.Cache

/-! ## Members of records -/

/-- The member of a record, without the fields that hold related records. -/
def memberOf (modelNames : List String) (record : Value) : Outcome String := do
  encode ((← record.entries).filter fun (k, _) => !modelNames.contains k)

/-- The members of records. -/
def membersOf (modelNames : List String) (records : Value) : Outcome (List String) := do
  (← records.items).mapM (memberOf modelNames)

/-! ## Addition and removal -/

/-- Adds records to the set of their model: true if they are in it now, false if there are none, and
nothing on a failure. -/
def create (d : Deployment) (given : Option CorrelationRef) (model : String) (records : Value) :
    Action (Option Bool) :=
  Action.inScope given fun ref => do
    let context : Entries Value := [("model", .text model)]
    unless ← Action.knows d ref component model do return none
    unless records.isTruthy do return some false
    match membersOf d.registry.modelNames records with
    | .error (.wrongKind detail) =>
      Action.report ref .error component s!"Record not serializable: {detail}" context
      return none
    | .error fault => throw fault
    | .ok members =>
      unless ← connect d ref do return none
      match ← request .add (·.add (setKey d model) members) with
      | some failure =>
        Action.report ref .error component s!"Cache write failed: {failure}" context
        return none
      | none => return some true

/-- Removes the records that satisfy a filter: true if there were some, false if there were none,
and nothing on a failure. -/
def delete (d : Deployment) (given : Option CorrelationRef) (model : String) (where_ : Value) :
    Action (Option Bool) :=
  Action.inScope given fun ref => do
    unless ← Action.knows d ref component model do return none
    match ← matching d ref model where_ with
    | none => return none
    | some [] => return some false
    | some found =>
      match ← request .remove (·.remove (setKey d model) (found.map (·.1))) with
      | some failure =>
        Action.report ref .error component s!"Cache delete failed: {failure}"
          [("model", .text model)]
        return none
      | none => return some true

/-! ## Update -/

/-- The fields that an update names. -/
def updatedFields (spec : Value) : Outcome (List String) := do
  (← spec.items).mapM fun
    | .text field => .ok field
    | v => .error (.wrongKind s!"sequence item: expected str instance, {v.kindName} found")

/-- The members of records with an update applied: all updates come before all members. -/
def updatedMembers (d : Deployment) (model : String) (spec : Value) (records : List Record) :
    Outcome (List String) := do
  let fields ← spec.entries
  let updated ← records.mapM fun r => revise fields r (d.registry.attributeTypes model)
  updated.mapM fun r => memberOf d.registry.modelNames (.map r)

/-- Replaces members of the set of a model, in two steps that fail independently. -/
def replace (d : Deployment) (ref : CorrelationRef) (model : String) (old new : List String) :
    Action (Option ChangeCounts) := do
  let context : Entries Value := [("model", .text model)]
  let fail (message : String) : Action Unit := Action.report ref .error component message context
  let found := old.length
  let removal ← request .remove (·.remove (setKey d model) old)
  if let some failure := removal then
    fail s!"Cache update could not remove old records: {failure}"
  match removal, ← request .add (·.add (setKey d model) new) with
  | none, none => return some { found, updated := found }
  | none, some failure =>
    fail (s!"Cache update removed {Number.digits found} records but could not re-add them: " ++
      failure)
    return some { found, updated := 0 }
  | some _, none =>
    Action.report ref .warning component
      "Cache update added new records but old records were not removed"
      (context ++ [("stale", .int found)])
    return some { found, updated := found, staleCopies := true }
  | some _, some failure =>
    fail s!"Cache update failed: {failure}"
    return none

/-- Applies an update to the records that satisfy a filter; nothing if no record could be
changed. -/
def update (d : Deployment) (given : Option CorrelationRef) (model : String) (spec where_ : Value) :
    Action (Option ChangeCounts) :=
  Action.inScope given fun ref => do
    let context : Entries Value := [("model", .text model)]
    unless ← Action.knows d ref component model do return none
    let types := d.registry.attributeTypes model
    let unknown := (← Action.ofOutcome (updatedFields spec)).filter (!Entries.has types ·)
    unless unknown.isEmpty do
      Action.report ref .error component
        ("Unknown update fields: " ++ ", ".intercalate unknown) context
      return none
    match ← matching d ref model where_ with
    | none => return none
    | some [] => return some { found := 0, updated := 0 }
    | some found =>
      match updatedMembers d model spec (found.map (·.2)) with
      | .error (.update e) =>
        Action.report ref .error component s!"Invalid update: {e.message}" context
        return none
      | .error (.wrongKind detail) =>
        Action.report ref .error component s!"Invalid update: {detail}" context
        return none
      | .error fault => throw fault
      | .ok members => replace d ref model (found.map (·.1)) members

end TwinStore.Cache
