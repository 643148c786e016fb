import TwinStore.Proofs.Effects
import TwinStore.Twin.Reading

/-!
# Reads during which commands fail

Each command that a read sends to the cache may fail by itself: the greeting, the reading of any set at
any depth of the request, the additions afterwards.  A pattern of failures says which commands fail; the
stores are set up for it before each search and each addition.

Main definitions:

- `Disruption`: patterns of failures, with `Disruption.arm`, the stores before the next commands, and
  `Disruption.Spares`, the commands that do not fail.
- `Cache.findAmid`, `Twin.readAmid`: a search and a read while the stores change.
- `Twin.readBy`: a read by whatever search of the cache and whatever answer of the primary store.

Main results:

- Theorem `findAmid_id`, `readAmid_id`: where nothing else happens to the stores these are the search and
  the read.
- Theorem `outage?_arm`: stores are set up for exactly the failures of the pattern.
-/

namespace TwinStore

open Cache Include

/-! ## Patterns of failures -/

/-- A pattern of failures: how a command fails, if it does, given the commands that the server has
received before it. -/
def Disruption : Type := List Command → Command → Option Outage

namespace Disruption

variable {p : Disruption} {s : Stores} {before sent rest : List Command}

/-- How the next command of a kind fails: a greeting comes before other commands, where the cache is not
connected yet. -/
def next (p : Disruption) (s : Stores) : Command → Option Outage
  | .ping => p s.server.received .ping
  | command => p (s.server.received ++ if s.connected then [] else [.ping]) command

/-- The stores whose next commands fail as a pattern says. -/
def arm (p : Disruption) (s : Stores) : Stores :=
  { s with server := { s.server with
      outages := [Command.ping, .members, .add, .remove].filterMap fun command =>
        (p.next s command).map fun outage => (command.name, outage) } }

theorem outage?_arm (p : Disruption) (s : Stores) (command : Command) :
    (p.arm s).server.outage? command = p.next s command := by
  rw [Server.outage?, arm]
  cases hping : p.next s .ping <;> cases hmembers : p.next s .members <;>
    cases hadd : p.next s .add <;> cases hremove : p.next s .remove <;>
    cases command <;> simp [Entries.get?, Command.name, hping, hmembers, hadd, hremove]

/-- Whether commands that are sent after others do not fail. -/
def Spares (p : Disruption) (before : List Command) : List Command → Prop
  | [] => True
  | command :: rest => p before command = none ∧ Spares p (before ++ [command]) rest

theorem spares_append :
    p.Spares before (sent ++ rest) ↔ p.Spares before sent ∧ p.Spares (before ++ sent) rest := by
  induction sent generalizing before with
  | nil => simp [Spares]
  | cons command sent ih => simp only [List.cons_append, Spares, ih, List.append_assoc, and_assoc,
      List.nil_append]

end Disruption

/-! ## Searches while the stores change -/

namespace Cache

mutual

/-- The search for a plan, where the stores change before each set is searched. -/
def findPlanAmid (upset : Stores → Stores) (d : Deployment) (ref : CorrelationRef) :
    Builder → Action (Option (List Record))
  | .node model _ _ where_ _ children => do
    modify upset
    findWith d ref model ((where_.map Value.map).getD .null) children
      (findPlansAmid upset d ref children)

/-- The searches for plans, where the stores change before each set is searched. -/
def findPlansAmid (upset : Stores → Stores) (d : Deployment) (ref : CorrelationRef) :
    List Builder → Action (List (Option (List Record)))
  | [] => return []
  | plan :: rest => do
    let (found, others) ← Action.both (findPlanAmid upset d ref plan) (findPlansAmid upset d ref rest)
    return found :: others

end

/-- A search with related records, where the stores change before each set is searched. -/
def findAmid (upset : Stores → Stores) (d : Deployment) (given : Option CorrelationRef)
    (model : String) (where_ : Value) (plans : List Builder) : Action (Option (List Record)) :=
  Action.inScope given fun ref => do
    modify upset
    findWith d ref model where_ plans (findPlansAmid upset d ref plans)

variable {d : Deployment}

mutual

theorem findPlanAmid_id (ref : CorrelationRef) : ∀ plan : Builder,
    findPlanAmid id d ref plan = findPlan d ref plan
  | .node _ _ _ _ _ children => by
    rw [findPlanAmid, findPlan, findPlansAmid_id ref children]
    rfl

theorem findPlansAmid_id (ref : CorrelationRef) : ∀ plans : List Builder,
    findPlansAmid id d ref plans = findPlans d ref plans
  | [] => by rw [findPlansAmid, findPlans]
  | plan :: rest => by
    rw [findPlansAmid, findPlans, findPlanAmid_id ref plan, findPlansAmid_id ref rest]

end

/-- Where nothing else happens to the stores, the search is that of the cache. -/
theorem findAmid_id (given : Option CorrelationRef) (model : String) (where_ : Value)
    (plans : List Builder) : findAmid id d given model where_ plans = find d given model where_ plans := by
  simp only [findAmid, findPlansAmid_id]
  rfl

end Cache

/-! ## Reads while the stores change -/

namespace Twin

variable {φ : Type}

/-- Writes an answer of the primary store into the cache, which changes before each addition. -/
def refillAmid (upset : Stores → Stores) (d : Deployment) (ref : CorrelationRef) (model : String)
    (rows : List Record) (plans : List (Plan φ)) : Action Unit := do
  let rows := rows.map Value.map
  let included ← Action.ofOutcome (includedRowsOf rows plans)
  let groups := (byModel ((model, rows) :: included)).filter (!·.2.isEmpty)
  let _ ← Action.each (fun (name, rows) => do
    modify upset
    Cache.create d (some ref) name (.list rows)) groups

/-- The answer of the primary store, written into the cache while that changes. -/
def readPrimaryAmid (upset : Stores → Stores) (d : Deployment) (ref : CorrelationRef) (model : String)
    (where_ : Value) (tokens : List Token) : Action (Option (List Record)) := do
  match ← tablePlans d ref model tokens with
  | none => return none
  | some plans =>
    let rows ← Primary.query d (some ref) model (.filter where_) .null plans
    match rows with
    | none | some [] => return rows
    | some rows =>
      refillAmid upset d ref model rows plans
      return some rows

/-- A read that asks the cache by some search, and else the primary store in some way. -/
def readBy (search : CorrelationRef → List Builder → Action (Option (List Record)))
    (primary : CorrelationRef → Action (Option (List Record))) (d : Deployment)
    (given : Option CorrelationRef) (model : String) (attributes : Value) (tokens : List Token) :
    Action (Option (List Record)) :=
  Action.inScope given fun ref => do
    unless ← Action.knows d ref component model do return none
    let plans ← resolved ref (resolve d.registry cacheForm model tokens)
    let cached ← search ref plans
    let answer ←
      match cached with
      | some (first :: rest) => pure (some (first :: rest))
      | none | some [] =>
        let message :=
          if cached.isSome then "Cache miss" else "Cache unavailable, using primary store"
        Action.report ref .debug component message [("model", .text model)]
        primary ref
    match answer with
    | none => return none
    | some records =>
      return some (← Action.ofOutcome (shown d.registry.modelNames attributes records))

/-- A read while the stores change. -/
def readAmid (upset : Stores → Stores) (d : Deployment) (given : Option CorrelationRef)
    (model : String) (where_ attributes : Value) (tokens : List Token) :
    Action (Option (List Record)) :=
  readBy (fun ref plans => Cache.findAmid upset d (some ref) model where_ plans)
    (fun ref => readPrimaryAmid upset d ref model where_ tokens) d given model attributes tokens

/-- Where nothing else happens to the stores, the read is that of both stores. -/
theorem readAmid_id (d : Deployment) (given : Option CorrelationRef) (model : String)
    (where_ attributes : Value) (tokens : List Token) :
    readAmid id d given model where_ attributes tokens = read d given model where_ attributes tokens := by
  simp only [readAmid, Cache.findAmid_id]
  rfl

end Twin

end TwinStore
