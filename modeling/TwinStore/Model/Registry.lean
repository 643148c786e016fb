import TwinStore.Fault
import TwinStore.Log
import TwinStore.Model.Basic

/-!
# The registry of models

Models are registered in batches.  After all models of a batch are known, their relations are
checked; a relation that does not hold is reported and left out.  A batch that fails keeps what it
had done before the failure.

Main definitions:

- `Registry`: the registered models, their tables and their relations.
- `RelationProblem`: why a declared relation is left out.
- `Registry.relationOf?`: the check of a declared relation.
- `Registry.register`: the registration of a batch.
-/

namespace TwinStore

/-- The registered models in order, the models that have a table, and the accepted relations of
every model under the names of their targets. -/
structure Registry where
  models : Entries Model := []
  tables : List String := []
  relations : Entries (Entries Relation) := []
deriving DecidableEq, Repr

/-- Why a declared relation is left out. -/
inductive RelationProblem where
  | unsupportedKind (kind : String)
  | unknownModel (target : String)
  | missingAttribute (model name : String)
deriving DecidableEq, Repr

/-- The text of a problem with a relation. -/
def RelationProblem.message (model target : String) (problem : RelationProblem) : String :=
  s!"Relation {model}->{target}: " ++ match problem with
    | unsupportedKind kind =>
      s!"unsupported kind '{kind}' (expected one of " ++
        ", ".intercalate (RelationKind.all.map RelationKind.name) ++ ")"
    | unknownModel target => s!"unknown model '{target}'"
    | missingAttribute model name => s!"'{model}' has no attribute '{name}'"

namespace Registry

/-! ## Questions -/

/-- The model with a name. -/
def model? (r : Registry) (name : String) : Option Model := Entries.get? r.models name

/-- Whether a model is registered. -/
def hasModel (r : Registry) (name : String) : Bool := Entries.has r.models name

/-- The names of all models. -/
def modelNames (r : Registry) : List String := Entries.keys r.models

/-- The relations of a model under the names of their targets. -/
def relationsOf (r : Registry) (name : String) : Entries Relation :=
  (Entries.get? r.relations name).getD []

/-- The relation from one model to another. -/
def relation? (r : Registry) (name target : String) : Option Relation :=
  Entries.get? (r.relationsOf name) target

/-- The attributes of a model; an unknown model has none. -/
def attributesOf (r : Registry) (name : String) : List Attribute :=
  ((r.model? name).map (·.attributes)).getD []

/-- The types of the fields of a model; an unknown model has none. -/
def attributeTypes (r : Registry) (name : String) : Entries AttributeType :=
  ((r.model? name).map (·.attributeTypes)).getD []

/-- The names of the key attributes of a model; an unknown model has none. -/
def primaryKeys (r : Registry) (name : String) : List String :=
  ((r.model? name).map (·.primaryKeys)).getD []

/-- The model whose table has a name. -/
def table (r : Registry) (name : String) : Outcome Model :=
  match r.tables.contains name, r.model? name with
  | true, some m => .ok m
  | _, _ => .error .missingKey

/-! ## Relations -/

/-- A declared relation of a model, if it holds: its kind is supported, its target is registered,
and both keys are attributes. -/
def relationOf? (r : Registry) (m : Model) (target : String) (spec : RelationDeclaration) :
    Except RelationProblem Relation :=
  match RelationKind.ofName? spec.kind, r.model? target with
  | none, _ => .error (.unsupportedKind spec.kind)
  | some _, none => .error (.unknownModel target)
  | some kind, some other =>
    if !m.hasAttribute spec.thisKey then .error (.missingAttribute m.name spec.thisKey)
    else if !other.hasAttribute spec.otherKey then .error (.missingAttribute target spec.otherKey)
    else .ok ⟨target, m.name, kind, spec.thisKey, spec.otherKey, spec.innerJoin⟩

/-- The relations of a model that hold. -/
def acceptedRelations (r : Registry) (m : Model) : Entries Relation :=
  m.relations.filterMap fun (target, spec) =>
    match r.relationOf? m target spec with
    | .ok relation => some (target, relation)
    | .error _ => none

/-- The reports on the relations of a model that do not hold. -/
def relationReports (r : Registry) (m : Model) : List LogLine :=
  m.relations.filterMap fun (target, spec) =>
    match r.relationOf? m target spec with
    | .ok _ => none
    | .error problem =>
      some ⟨.error, "dbflow.runtime.registry", problem.message m.name target⟩

/-! ## Registration -/

/-- Registers a model and makes its table; the table fails if an attribute name occurs twice. -/
def addModel (r : Registry) (m : Model) : Registry × Outcome Unit :=
  if r.hasModel m.name then (r, .error (.registry (.duplicateModel m.name)))
  else
    let named := { r with models := r.models ++ [(m.name, m)] }
    if Model.hasRepeatedAttribute m.attributes then (named, .error .duplicateColumn)
    else ({ named with tables := named.tables ++ [m.name] }, .ok ())

/-- Registers the models of a list up to the first failure. -/
def addModels (r : Registry) : List Model → Registry × Outcome Unit
  | [] => (r, .ok ())
  | m :: rest =>
    match r.addModel m with
    | (r, .ok ()) => r.addModels rest
    | failed => failed

/-- Gives a model the relations that hold. -/
def addRelations (r : Registry) (m : Model) : Registry :=
  { r with relations := Entries.set r.relations m.name (r.acceptedRelations m) }

/-- Registers a batch: the registry afterwards, the reports on relations left out, and whether it
succeeded. -/
def register (r : Registry) (models : List Model) : Registry × List LogLine × Outcome Unit :=
  match r.addModels models with
  | (r, .error fault) => (r, [], .error fault)
  | (r, .ok ()) =>
    (models.foldl addRelations r, models.flatMap (relationReports r), .ok ())

end Registry

end TwinStore
