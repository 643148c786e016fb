import TwinStore.Twin.Deletion
import TwinStore.Twin.Writing

/-!
# Operations on both stores

A program uses the two stores by four operations.

Main definitions:

- `Operation`: an operation with its arguments.
- `Answer`: what an operation gives.
- `Operation.perform`: what an operation does.
- `showAnswer`: the end of a read.
- `Answer.IsComplete`: an answer in which no store failed.
-/

namespace TwinStore.Twin

open Include

/-- An operation on both stores, with its arguments. -/
inductive Operation where
  | read (model : String) (where_ attributes : Value) (tokens : List Token)
  | save (model : String) (records : Value)
  | update (model : String) (spec where_ : Value)
  | delete (model : String) (where_ : Value)

/-- What an operation gives. -/
inductive Answer where
  | found (records : Option (List Record))
  | saved (outcome : Saved)
  | updated (outcome : Updated)
  | deleted (outcome : Deleted)

/-- What an operation does, in the given correlation. -/
def Operation.perform (d : Deployment) (given : Option CorrelationRef) :
    Operation → Action Answer
  | read model where_ attributes tokens =>
    .found <$> Twin.read d given model where_ attributes tokens
  | save model records => .saved <$> Twin.save d given model records
  | update model spec where_ => .updated <$> Twin.update d given model spec where_
  | delete model where_ => .deleted <$> Twin.delete d given model where_

/-- What a read answers with, when a store has answered with records. -/
def showAnswer (d : Deployment) (attributes : Value) :
    Option (List Record) → Action (Option (List Record))
  | none => pure none
  | some records => do
    return some (← Action.ofOutcome (shown d.registry.modelNames attributes records))

mutual

/-- Whether no store failed in a deletion, down to all that belongs to the records. -/
def Deleted.IsComplete : Deleted → Prop
  | ⟨primary, cache, failedRows, cascade⟩ =>
    primary.isSome ∧ cache.isSome ∧ failedRows = 0 ∧ AreComplete cascade

/-- Whether no store failed in some deletions. -/
def AreComplete : List (String × Deleted) → Prop
  | [] => True
  | (_, deleted) :: rest => deleted.IsComplete ∧ AreComplete rest

end

/-- Whether no store failed in an operation. -/
def Answer.IsComplete : Answer → Prop
  | found records => records.isSome
  | saved outcome => outcome.primary.isSome ∧ outcome.cache.isSome
  | updated outcome => outcome.primary.isSome ∧ outcome.cache.isSome
  | deleted outcome => outcome.IsComplete

end TwinStore.Twin
