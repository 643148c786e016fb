import TwinStore.Twin.Reading

/-!
# Writing to both stores

The primary store decides; the cache follows.  The outcome of each store is reported separately.

Main definitions:

- `save`: inserts records, which are then added to the cache.
- `update`: changes records in both stores.
- `close`: gives the connections up.
-/

namespace TwinStore.Twin

/-! ## Saving -/

/-- What became of records in each store, and the records as they are stored. -/
structure Saved where
  primary : Option Bool := none
  cache : Option Bool := none
  records : Option (List Record) := none

/-- Inserts records into the primary store: a single one by itself, several together. -/
def insertAll (d : Deployment) (ref : CorrelationRef) (model : String) (records : Value) :
    Action (Option (List Record)) := do
  match ← Action.ofOutcome records.items with
  | [record] => return (← Primary.create d (some ref) model record).map fun stored => [stored]
  | _ => Primary.createAll d (some ref) model records

/-- Inserts one record or several into the primary store and, if that succeeds, adds them to the
cache. -/
def save (d : Deployment) (given : Option CorrelationRef) (model : String) (records : Value) :
    Action Saved :=
  Action.inScope given fun ref => do
    let context : Entries Value := [("model", .text model)]
    unless ← Action.knows d ref component model do return {}
    let several := if records.isMap then .list [records] else records
    unless several.isTruthy do
      Action.report ref .error component "Nothing to save" context
      return {}
    match ← insertAll d ref model several with
    | none => return {}
    | some stored =>
      let cache ← Cache.create d (some ref) model (asValue stored)
      if cache.isNone then
        Action.report ref .warning component "Saved to primary store but not to cache"
          (context ++ [("rows", .int stored.length)])
      return { primary := some true, cache, records := some stored }

/-! ## Updating -/

/-- What an update did in each store. -/
structure Updated where
  primary : Option ChangeCounts := none
  cache : Option ChangeCounts := none

/-- Applies an update to the records that satisfy a filter, in both stores, whatever the outcome of
the first. -/
def update (d : Deployment) (given : Option CorrelationRef) (model : String) (spec where_ : Value) :
    Action Updated :=
  Action.inScope given fun ref => do
    unless ← Action.knows d ref component model do return {}
    let primary ← Primary.update d (some ref) model spec where_
    let cache ← Cache.update d (some ref) model spec where_
    return { primary, cache }

/-- Gives the connections up; a database in memory goes with its connection. -/
def close : Action Unit := do
  Cache.close
  modify fun s => { s with database := {} }

end TwinStore.Twin
