import TwinStore.Cache.Change
import TwinStore.Include.Resolve
import TwinStore.Primary.Change

/-!
# Reading through the cache

A read asks the cache first.  If the cache finds nothing or cannot answer, the primary store is
asked, and what it finds is written into the cache.

Main definitions:

- `includedRows`: the related rows of an answer that go into the cache.
- `refill`: writes an answer of the primary store into the cache.
- `read`: the records of a model that satisfy a filter.
-/

namespace TwinStore.Twin

open TwinStore.Filter Include

/-- The component under which operations on both stores report. -/
def component : String := "FLOW"

/-! ## Requests for related records -/

/-- Passes a notice on: on the request to the correlation, on a filter to the log. -/
def passOn (ref : CorrelationRef) : Notice → Action Unit
  | .request message model =>
    Action.report ref .warning component message
      (model.toList.map fun name => ("model", .text name))
  | .filter line => Action.writeLog [line]

/-- A resolution as an operation: its notices are passed on. -/
def resolved {α : Type} (ref : CorrelationRef) (x : Resolving α) : Action α := do
  let (notices, outcome) := x.run
  notices.forM (passOn ref)
  Action.ofOutcome outcome

/-- The plans of a request for the primary store, if its filters can be read. -/
def tablePlans (d : Deployment) (ref : CorrelationRef) (model : String) (tokens : List Token) :
    Action (Option (List Primary.ClausePlan)) := do
  let resolution := resolve d.registry (tableForm d.registry) model tokens
  match ← Action.attempt (resolved ref resolution) with
  | .ok plans => return some plans
  | .error (.filter e) =>
    Action.report ref .error component s!"Invalid include filter: {e.message}"
      [("model", .text model)]
    return none
  | .error fault => throw fault

/-! ## Fields to return -/

/-- The word that asks for all fields. -/
def allAttributes : String := "all"

/-- Records with the fields that a caller asks for: all, one, or some. -/
def shown (modelNames : List String) (attributes : Value) (records : List Record) :
    Outcome (List Record) :=
  match attributes with
  | .text name =>
    if name = allAttributes then .ok records
    else .ok (records.map (·.project (some [name]) modelNames))
  | v => records.mapM (Primary.projectNamed modelNames v)

/-! ## Writing an answer into the cache -/

/-- What stands in a row under a name, which should be several things; none if the name is not
there. -/
def itemsUnder (name : String) (row : Value) : Outcome (List Value) := do
  match Entries.get? (← row.entries) name with
  | some v => v.items
  | none => return []

section

variable {φ : Type}

mutual

/-- What stands in some rows under the name of a plan, and what stands in that; rows of which fields
were left out do not count. -/
def includedRows (rows : List Value) : Plan φ → Outcome (List (String × List Value))
  | .node model _ attributes _ _ children => do
    let found := (← rows.mapM (itemsUnder model)).flatten
    let below ← includedRowsOf found children
    return (if attributes.isNone then [(model, found)] else []) ++ below

/-- What stands in some rows under the names of plans, and what stands in that. -/
def includedRowsOf (rows : List Value) : List (Plan φ) → Outcome (List (String × List Value))
  | [] => return []
  | plan :: rest => return (← includedRows rows plan) ++ (← includedRowsOf rows rest)

end

end

/-- Rows of one model put together, in the order in which the models come first. -/
def byModel {α : Type} (rows : List (String × List α)) : Entries (List α) :=
  rows.foldl (fun groups (model, records) =>
    Entries.set groups model ((Entries.get? groups model).getD [] ++ records)) []

/-- Records as one value. -/
def asValue (records : List Record) : Value := .list (records.map .map)

/-- Writes the records of an answer, and the related ones, into the sets of their models. -/
def refill {φ : Type} (d : Deployment) (ref : CorrelationRef) (model : String)
    (rows : List Record) (plans : List (Plan φ)) : Action Unit := do
  let rows := rows.map Value.map
  let included ← Action.ofOutcome (includedRowsOf rows plans)
  let groups := (byModel ((model, rows) :: included)).filter (!·.2.isEmpty)
  let _ ← Action.each (fun (name, rows) => Cache.create d (some ref) name (.list rows)) groups

/-! ## Reading -/

/-- The answer of the primary store, which is also written into the cache. -/
def readPrimary (d : Deployment) (ref : CorrelationRef) (model : String) (where_ : Value)
    (tokens : List Token) : Action (Option (List Record)) := do
  match ← tablePlans d ref model tokens with
  | none => return none
  | some plans =>
    let rows ← Primary.query d (some ref) model (.filter where_) .null plans
    match rows with
    | none | some [] => return rows
    | some rows =>
      refill d ref model rows plans
      return some rows

/-- The records of a model that satisfy a filter, with the related records that a request names;
nothing if neither store can answer. -/
def read (d : Deployment) (given : Option CorrelationRef) (model : String)
    (where_ attributes : Value) (tokens : List Token) : Action (Option (List Record)) :=
  Action.inScope given fun ref => do
    unless ← Action.knows d ref component model do return none
    let plans ← resolved ref (resolve d.registry cacheForm model tokens)
    let cached ← Cache.find d (some ref) model where_ plans
    let answer ←
      match cached with
      | some (first :: rest) => pure (some (first :: rest))
      | none | some [] =>
        let message :=
          if cached.isSome then "Cache miss" else "Cache unavailable, using primary store"
        Action.report ref .debug component message [("model", .text model)]
        readPrimary d ref model where_ tokens
    match answer with
    | none => return none
    | some records =>
      return some (← Action.ofOutcome (shown d.registry.modelNames attributes records))

end TwinStore.Twin
