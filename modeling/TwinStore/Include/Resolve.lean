import TwinStore.Filter.Clause
import TwinStore.Include.Plan
import TwinStore.Model.Registry

/-!
# Resolving include requests

A written request is read from left to right and bound to the relations of the registry.  What means
nothing is reported and skipped; reading goes on behind it.  The reading is the same for both
stores, which differ in the form that they give to filters.

Main definitions:

- `Notice`: a report of the reader.
- `FilterForm`: the form that a store gives to filters; `cacheForm` and `tableForm` are the two.
- `bind`: a built node bound to a relation.
- `resolve`: the plans of a request.
-/

namespace TwinStore.Include

open TwinStore.Filter

/-! ## Reports -/

/-- A report of the reader: on the request itself, with the parent model that it concerns, or on a
filter in it. -/
inductive Notice where
  | request (message : String) (model : Option String)
  | filter (line : LogLine)

/-- The notice as a line of the log. -/
def Notice.line : Notice → LogLine
  | request message _ => ⟨.warning, "dbflow.runtime.includes", message⟩
  | filter line => line

/-- A resolution that may fail and gives notices, also those before a failure. -/
abbrev Resolving (α : Type) := ExceptT Fault (StateM (List Notice)) α

namespace Resolving

/-- Runs a resolution: its notices in order, and its outcome. -/
def run {α : Type} (x : Resolving α) : List Notice × Outcome α :=
  let (outcome, notices) := ExceptT.run x []
  (notices, outcome)

/-- Gives a notice. -/
def notify (notice : Notice) : Resolving Unit := modify (· ++ [notice])

/-- Gives a notice on the request under a parent model. -/
def report (model message : String) : Resolving Unit := notify (.request message (some model))

/-- The reading of a filter as part of a resolution. -/
def ofReported {α : Type} (x : Reported α) : Resolving α := do
  let (lines, outcome) := x.run
  lines.forM fun line => notify (.filter line)
  match outcome with
  | .ok a => return a
  | .error fault => throw fault

end Resolving

/-- The notice that a model has no relation of a name. -/
def noRelation (parent target : String) : String :=
  s!"Include skipped: '{parent}' has no relation '{target}'"

/-! ## Filters of the two stores -/

/-- The form that a store gives to the filter of a node. -/
structure FilterForm (φ : Type) where
  shape : String → Entries Value → Resolving φ

/-- The cache keeps filters as they are, without the key for other readers. -/
def cacheForm : FilterForm (Entries Value) where
  shape _ where_ := return Entries.erase where_ transformKey

/-- The primary store takes filters as clauses over the table of the model. -/
def tableForm (registry : Registry) : FilterForm (Clause Comparison) where
  shape model where_ :=
    match registry.table model with
    | .ok table => Resolving.ofReported (toClause (.map where_) table)
    | .error fault => throw fault

/-! ## Built nodes -/

section

variable {φ : Type} (registry : Registry) (form : FilterForm φ)

mutual

/-- Binds a built node to a relation of its parent; without one, the node is skipped. -/
def bind (parent : String) : Builder → Resolving (Option (Plan φ))
  | .node model required attributes where_ _ children => do
    match registry.relation? parent model with
    | none =>
      Resolving.report parent (noRelation parent model)
      return none
    | some relation =>
      let children ← bindAll model children
      let where_ ← match where_ with
        | some w => (form.shape model w).map some
        | none => pure none
      return some (.node model (some (required.getD relation.isRequired)) attributes where_
        (some relation) children)

/-- Binds built nodes of one parent; those that are skipped are left out. -/
def bindAll (parent : String) : List Builder → Resolving (List (Plan φ))
  | [] => return []
  | first :: rest => do
    let bound ← bind parent first
    return bound.toList ++ (← bindAll parent rest)

end

/-! ## Written requests -/

/-- What the next tokens apply to: nothing yet, nothing because the last relation is unknown, or the
last node. -/
inductive Focus (φ : Type) where
  | start
  | skipping
  | on (plan : Plan φ)

/-- The node that is finished when the focus moves on. -/
def Focus.finished : Focus φ → List (Plan φ)
  | .on plan => [plan]
  | _ => []

/-- The notice on a token that has no node to apply to. -/
def misplaced (position : Nat) : String :=
  s!"Include token {position} ignored: no relation to apply it to"

/-- A node with the fields that a projection names; what is no name is left out. -/
def project (plan : Plan φ) (fields : List Token) : Resolving (Plan φ) := do
  let names := Token.names fields
  if names.length ≠ fields.length then
    Resolving.notify
      (.request s!"Non-string attributes ignored in projection of '{plan.model}'" none)
  return plan.withAttributes names

/-- The plans of the tokens from a position on, under a parent model. -/
def resolveFrom (parent : String) (position : Nat) (focus : Focus φ) :
    List Token → Resolving (List (Plan φ))
  | [] => return focus.finished
  | .plan builder :: rest => do
    let next ← match ← bind registry form parent builder with
      | some bound => pure (Focus.on bound)
      | none => pure .skipping
    return focus.finished ++ (← resolveFrom parent (position + 1) next rest)
  | .name target :: rest => do
    let next ← match registry.relation? parent target with
      | some relation => pure (Focus.on (.ofRelation relation))
      | none =>
        Resolving.report parent (noRelation parent target)
        pure .skipping
    return focus.finished ++ (← resolveFrom parent (position + 1) next rest)
  | .items tokens :: rest => do
    let next ← match focus with
      | .skipping => pure focus
      | .start =>
        Resolving.report parent (misplaced position)
        pure focus
      | .on plan =>
        match Token.projection? tokens with
        | some fields => Focus.on <$> project plan fields
        | none =>
          let below ← resolveFrom plan.model 0 .start tokens
          pure (Focus.on (plan.addChildren below))
    resolveFrom parent (position + 1) next rest
  | .filter where_ :: rest => do
    let next ← match focus with
      | .skipping => pure focus
      | .start =>
        Resolving.report parent (misplaced position)
        pure focus
      | .on plan => pure (Focus.on (plan.withWhere (← form.shape plan.model where_)))
    resolveFrom parent (position + 1) next rest
  | .other kind :: rest => do
    Resolving.report parent s!"Include token {position} ignored: unexpected {kind}"
    resolveFrom parent (position + 1) focus rest

/-- The plans of a request for records related to a model. -/
def resolve (model : String) (tokens : List Token) : Resolving (List (Plan φ)) :=
  resolveFrom registry form model 0 .start tokens

end

end TwinStore.Include
