import TwinStore.Cache.Connection
import TwinStore.Cache.Member
import TwinStore.Filter.Predicate
import TwinStore.Include.Plan
import TwinStore.Value.Compare

/-!
# Searching the cache

The cache has no query language: a search reads the whole set of a model and tests every record in
memory.  Related records are searched in the same way and joined on the keys of the relation.

Main definitions:

- `scan`: the members of a set whose records satisfy a predicate.
- `joinRecord`: a record with its related records attached.
- `find`: the records of a model that satisfy a filter, with related records.
-/

namespace TwinStore.Cache

open TwinStore.Filter Include

/-! ## Reading a set -/

/-- Whether a failure to read a member concerns only that member, which is then skipped. -/
def isUndecodable : Fault → Bool
  | .badValue _ | .malformedDocument | .wrongKind _ => true
  | _ => false

/-- The record of a member, if it can be read and satisfies a predicate. -/
def readMember (d : Deployment) (ref : CorrelationRef) (model : String) (predicate : Predicate)
    (raw : String) : Action (Option (String × Record)) := do
  match decode raw (d.registry.attributeTypes model) with
  | .ok record =>
    return if ← Action.ofOutcome (predicate record) then some (raw, record) else none
  | .error fault =>
    unless isUndecodable fault do throw fault
    Action.report ref .warning component "Undecodable cache member skipped" [("model", .text model)]
    return none

/-- The records of those members that can be read and satisfy a predicate. -/
def readMembers (d : Deployment) (ref : CorrelationRef) (model : String) (predicate : Predicate) :
    List String → Action (List (String × Record))
  | [] => return []
  | raw :: rest => do
    let found ← readMember d ref model predicate raw
    return found.toList ++ (← readMembers d ref model predicate rest)

/-- The members of the set of a model whose records satisfy a predicate, if the set can be read. -/
def scan (d : Deployment) (ref : CorrelationRef) (model : String) (predicate : Predicate) :
    Action (Option (List (String × Record))) := do
  unless ← connect d ref do return none
  match ← request .members id with
  | some failure =>
    Action.report ref .error component s!"Cache read failed: {failure}" [("model", .text model)]
    return none
  | none =>
    let members := (← get).server.members (setKey d model)
    return some (← readMembers d ref model predicate members)

/-- The predicate of a filter, if it can be read. -/
def predicateOf? (d : Deployment) (ref : CorrelationRef) (model : String) (where_ : Value) :
    Action (Option Predicate) := do
  let types := d.registry.attributeTypes model
  match ← Action.attempt (Action.ofReported (Predicate.ofFilter where_ (some types))) with
  | .ok predicate => return some predicate
  | .error (.filter e) =>
    Action.report ref .error component s!"Invalid filter: {e.message}" [("model", .text model)]
    return none
  | .error fault => throw fault

/-- The members of the set of a known model whose records satisfy a filter. -/
def matching (d : Deployment) (ref : CorrelationRef) (model : String) (where_ : Value) :
    Action (Option (List (String × Record))) := do
  match ← predicateOf? d ref model where_ with
  | none => return none
  | some predicate => scan d ref model predicate

/-! ## Joining related records -/

/-- Whether a related record belongs to a record by their keys; a missing key belongs to none. -/
def isRelated (relation : Relation) (record child : Record) : Outcome Bool :=
  let key := record.field relation.thisKey
  if key.isNull then .ok false
  else
    match Value.equal? (child.field relation.otherKey) key with
    | some answer => .ok answer
    | none => .error .signaling

/-- A record with its related records attached under the model of a plan, and whether the plan keeps
it; a plan that is bound to no relation attaches nothing. -/
def attach {φ : Type} (modelNames : List String) (plan : Plan φ) (found : List Record)
    (record : Record) : Outcome (Record × Bool) :=
  match plan.relation with
  | none => .ok (record, true)
  | some relation => do
    let related ← found.filterM (isRelated relation record)
    let shown := related.map fun child => Value.map (child.project plan.attributes modelNames)
    return (Entries.set record plan.model (.list shown), !(plan.isRequired && related.isEmpty))

/-- A record with the related records of all plans attached, if every plan keeps it. -/
def joinRecord {φ : Type} (modelNames : List String) :
    List (Plan φ × List Record) → Record → Outcome (Option Record)
  | [], record => .ok (some record)
  | (plan, found) :: rest, record => do
    let (record, isKept) ← attach modelNames plan found record
    let joined ← joinRecord modelNames rest record
    return if isKept then joined else none

/-- The records that all plans keep, each with its related records. -/
def joinRecords {φ : Type} (modelNames : List String) (plans : List (Plan φ × List Record))
    (records : List Record) : Outcome (List Record) := do
  return (← records.mapM (joinRecord modelNames plans)).filterMap id

/-! ## Searching -/

/-- The records of a model that satisfy a filter, given the plans for related records and the search
for those, which is needed only if a record is found. -/
def findWith {φ : Type} (d : Deployment) (ref : CorrelationRef) (model : String) (where_ : Value)
    (plans : List (Plan φ)) (related : Action (List (Option (List Record)))) :
    Action (Option (List Record)) := do
  unless ← Action.knows d ref component model do return none
  match ← matching d ref model where_ with
  | none => return none
  | some members =>
    let records := members.map (·.2)
    if plans.isEmpty || records.isEmpty then return some records
    match (← related).mapM id with
    | none => return none
    | some found =>
      return some (← Action.ofOutcome
        (joinRecords d.registry.modelNames (plans.zip found) records))

mutual

/-- The records that a plan asks for, with the records below it. -/
def findPlan (d : Deployment) (ref : CorrelationRef) : Builder → Action (Option (List Record))
  | .node model _ _ where_ _ children =>
    findWith d ref model ((where_.map Value.map).getD .null) children (findPlans d ref children)

/-- The records that each of some plans asks for. -/
def findPlans (d : Deployment) (ref : CorrelationRef) :
    List Builder → Action (List (Option (List Record)))
  | [] => return []
  | plan :: rest => do
    let (found, others) ← Action.both (findPlan d ref plan) (findPlans d ref rest)
    return found :: others

end

/-- The records of a model that satisfy a filter, with the records that plans ask for; nothing if
the cache cannot answer. -/
def find (d : Deployment) (given : Option CorrelationRef) (model : String) (where_ : Value)
    (plans : List Builder) : Action (Option (List Record)) :=
  Action.inScope given fun ref => findWith d ref model where_ plans (findPlans d ref plans)

end TwinStore.Cache
