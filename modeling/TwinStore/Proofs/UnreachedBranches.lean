import Mathlib
import TwinStore.Cache.Search
import TwinStore.Primary.Query
import TwinStore.Proofs.Outcome
import TwinStore.Proofs.RelationWalks

/-!
# Branches that no request reaches

Both stores say what becomes of a plan that is bound to no relation, and the primary store fails for a
plan whose model has no table.  The plans of a request are walks in the graph of relations, so these
branches are for nobody: whatever stood in them, every answer would be the same.  The only way to a model
without a table is a registration that failed over an attribute name that occurs twice.

Main definitions:

- `Cache.findOr`: the search of the cache, with another branch for plans without a relation.
- `Primary.Fallback`: other branches of the primary store, for plans without a relation and without a
  table.
- `Primary.attachPlansOr`: the related records of the primary store, with those branches.

Main results:

- Theorems `Cache.findOr_usual`, `Primary.attachPlansOr_usual`: with the usual branches, nothing is
  changed.
- Theorems `Cache.findOr_of_walks`, `Primary.attachPlansOr_of_walks`: on walks, no branch matters.
- Theorem `Include.requests_are_walks`: what requests are resolved to.
-/

namespace TwinStore

open Filter Include Registry

variable {r : Registry} {parent : String} {builders : List Builder}

/-! ## The cache -/

namespace Cache

/-- What the cache attaches for a plan without a relation: nothing, and the record is kept. -/
def leftOut (record : Record) : Outcome (Record × Bool) := .ok (record, true)

section

variable (unbound : Record → Outcome (Record × Bool))

/-- `attach`, with another branch for plans without a relation. -/
def attachOr (modelNames : List String) (plan : Builder) (found : List Record) (record : Record) :
    Outcome (Record × Bool) :=
  if plan.relation.isNone then unbound record else attach modelNames plan found record

/-- `joinRecord`, with that branch. -/
def joinRecordOr (modelNames : List String) :
    List (Builder × List Record) → Record → Outcome (Option Record)
  | [], record => .ok (some record)
  | (plan, found) :: rest, record => do
    let (record, isKept) ← attachOr unbound modelNames plan found record
    let joined ← joinRecordOr modelNames rest record
    return if isKept then joined else none

/-- `joinRecords`, with that branch. -/
def joinRecordsOr (modelNames : List String) (plans : List (Builder × List Record))
    (records : List Record) : Outcome (List Record) := do
  return (← records.mapM (joinRecordOr unbound modelNames plans)).filterMap id

/-- `findWith`, with that branch. -/
def findWithOr (d : Deployment) (ref : CorrelationRef) (model : String) (where_ : Value)
    (plans : List Builder) (related : Action (List (Option (List Record)))) :
    Action (Option (List Record)) := do
  unless ← Action.knows d ref component model do return none
  match ← matching d ref model where_ with
  | none => return none
  | some members =>
    let records := members.map (·.2)
    if plans.isEmpty || records.isEmpty then return some records
    match (← related).mapM id with
    | none => return none
    | some found =>
      return some (← Action.ofOutcome
        (joinRecordsOr unbound d.registry.modelNames (plans.zip found) records))

mutual

/-- `findPlan`, with that branch. -/
def findPlanOr (d : Deployment) (ref : CorrelationRef) : Builder → Action (Option (List Record))
  | .node model _ _ where_ _ children =>
    findWithOr unbound d ref model ((where_.map Value.map).getD .null) children
      (findPlansOr d ref children)

/-- `findPlans`, with that branch. -/
def findPlansOr (d : Deployment) (ref : CorrelationRef) :
    List Builder → Action (List (Option (List Record)))
  | [] => return []
  | plan :: rest => do
    let (found, others) ← Action.both (findPlanOr d ref plan) (findPlansOr d ref rest)
    return found :: others

end

/-- `find`, with another branch for plans without a relation. -/
def findOr (d : Deployment) (given : Option CorrelationRef) (model : String) (where_ : Value)
    (plans : List Builder) : Action (Option (List Record)) :=
  Action.inScope given fun ref => findWithOr unbound d ref model where_ plans (findPlansOr unbound d ref plans)

end

variable {unbound : Record → Outcome (Record × Bool)} {d : Deployment} {ref : CorrelationRef}
  {plan : Builder} {plans : List Builder}

/-- Whether a plan passes by the branch, or finds the usual one there. -/
def PassesBy (unbound : Record → Outcome (Record × Bool)) (plan : Builder) : Prop :=
  plan.relation = none → unbound = leftOut

theorem PassesBy.attachOr_eq (h : PassesBy unbound plan) (modelNames : List String) (found : List Record)
    (record : Record) :
    attachOr unbound modelNames plan found record = attach modelNames plan found record := by
  unfold attachOr
  split_ifs with hnone
  · have hrelation := Option.isNone_iff_eq_none.mp hnone
    rw [h hrelation, attach, hrelation]
    rfl
  · rfl

theorem joinRecordOr_eq (modelNames : List String) (plans : List (Builder × List Record))
    (h : ∀ plan ∈ plans, PassesBy unbound plan.1) (record : Record) :
    joinRecordOr unbound modelNames plans record = joinRecord modelNames plans record := by
  induction plans generalizing record with
  | nil => rfl
  | cons plan rest ih =>
    obtain ⟨hplan, hrest⟩ := List.forall_mem_cons.mp h
    simp only [joinRecordOr, joinRecord, hplan.attachOr_eq, ih hrest]

theorem joinRecordsOr_eq (modelNames : List String) (plans : List (Builder × List Record))
    (h : ∀ plan ∈ plans, PassesBy unbound plan.1) (records : List Record) :
    joinRecordsOr unbound modelNames plans records = joinRecords modelNames plans records := by
  have hjoin := funext (joinRecordOr_eq modelNames plans h)
  rw [joinRecordsOr, joinRecords, hjoin]

/-- A search is the usual one if its plans pass the branch by. -/
theorem findWithOr_eq (h : ∀ plan ∈ plans, PassesBy unbound plan) (model : String) (where_ : Value)
    (related : Action (List (Option (List Record)))) :
    findWithOr unbound d ref model where_ plans related = findWith d ref model where_ plans related := by
  have hjoin (found : List (List Record)) :
      joinRecordsOr unbound d.registry.modelNames (plans.zip found) =
        joinRecords d.registry.modelNames (plans.zip found) :=
    funext (joinRecordsOr_eq _ _ fun plan hplan => h plan.1 (List.of_mem_zip hplan).1)
  simp only [findWithOr, hjoin]
  rfl

mutual

theorem findPlanOr_usual : ∀ plan : Builder, findPlanOr leftOut d ref plan = findPlan d ref plan
  | .node model _ _ where_ _ children => by
    rw [findPlanOr, findPlan, findPlansOr_usual children]
    exact findWithOr_eq (fun _ _ _ => rfl) _ _ _

theorem findPlansOr_usual :
    ∀ plans : List Builder, findPlansOr leftOut d ref plans = findPlans d ref plans
  | [] => rfl
  | plan :: rest => by
    rw [findPlansOr, findPlans, findPlanOr_usual plan, findPlansOr_usual rest]

end

/-- With the usual branch, the search is the usual one. -/
theorem findOr_usual (d : Deployment) (given : Option CorrelationRef) (model : String) (where_ : Value)
    (plans : List Builder) : findOr leftOut d given model where_ plans = find d given model where_ plans := by
  have hplans : ∀ plan ∈ plans, PassesBy leftOut plan := fun _ _ _ => rfl
  unfold findOr find
  simp only [findPlansOr_usual, findWithOr_eq hplans]

/-- Every step of a walk has a relation. -/
theorem passesBy_of_walks (h : Walks r parent builders plans) : ∀ plan ∈ plans, PassesBy unbound plan := by
  induction h with
  | nil => exact nofun
  | stray _ _ ih => exact ih
  | step _ _ _ _ ih => exact List.forall_mem_cons.mpr ⟨nofun, ih⟩

theorem findPlansOr_of_walks (h : Walks r parent builders plans) :
    findPlansOr unbound d ref plans = findPlans d ref plans := by
  induction h with
  | nil => rfl
  | stray _ _ ih => exact ih
  | step _ hbelow _ ihbelow ihrest =>
    rw [findPlansOr, findPlans, findPlanOr, findPlan, ihbelow, ihrest,
      findWithOr_eq (passesBy_of_walks hbelow)]

/-- On walks, it does not matter what the cache does for plans without a relation. -/
theorem findOr_of_walks (h : Walks r parent builders plans)
    (unbound : Record → Outcome (Record × Bool)) (d : Deployment) (given : Option CorrelationRef)
    (model : String) (where_ : Value) :
    findOr unbound d given model where_ plans = find d given model where_ plans := by
  unfold findOr find
  simp only [findPlansOr_of_walks h, findWithOr_eq (passesBy_of_walks h)]

end Cache

/-! ## The primary store -/

namespace Primary

/-- Other branches for plans without a relation, and for models without a table. -/
structure Fallback where
  unbound : List (Record × Bool) → Outcome (List (Record × Bool))
  untabled : Outcome Model

namespace Fallback

/-- The usual branches: nothing is attached without a relation, and nothing is found without a
table. -/
def usual : Fallback := ⟨.ok, .error .missingKey⟩

/-- The model whose table has a name, with another branch where there is none. -/
def table (f : Fallback) (registry : Registry) (name : String) : Outcome Model :=
  match registry.table name with
  | .ok m => .ok m
  | .error _ => f.untabled

/-- With the usual branch, tables are found as usual. -/
theorem table_eq {f : Fallback} (h : f.untabled = .error .missingKey) (registry : Registry)
    (name : String) : f.table registry name = registry.table name := by
  unfold table Registry.table
  split
  · next m hm => exact hm.symm
  · next fault hfault =>
    rw [h]
    split at hfault
    · cases hfault
    · rfl

end Fallback

section

variable (f : Fallback) (registry : Registry) (db : Database)

mutual

/-- `attachPlan`, with other branches. -/
def attachPlanOr : ClausePlan → List (Record × Bool) → Outcome (List (Record × Bool))
  | .node _ _ _ _ none _, entries => f.unbound entries
  | .node model required attributes where_ (some relation) children, entries => do
    let keys ← keysOf relation (entries.map (·.1))
    let plan : ClausePlan := .node model required attributes where_ (some relation) children
    let found ←
      if keys.isEmpty then pure []
      else do
        let m ← f.table registry model
        let selected ← db.select m (relatedClause m relation keys where_)
        kept <$> attachPlansOr children (keptAll selected)
    let shown ← found.mapM fun r => do
      return (← (r.field relation.otherKey).asKey, r.project attributes registry.modelNames)
    return entries.map (attachFound plan relation shown)

/-- `attachPlans`, with other branches. -/
def attachPlansOr : List ClausePlan → List (Record × Bool) → Outcome (List (Record × Bool))
  | [], entries => .ok entries
  | plan :: rest, entries => do attachPlansOr rest (← attachPlanOr plan entries)

end

end

variable {f : Fallback} {db : Database} {model : String} {required : Option Bool}
  {attributes : Option (List String)} {where_ : Option (Clause Comparison)} {relation : Relation}
  {children plans : List ClausePlan}

/-- A plan with a relation is attached as usual, if its model is looked up and the plans below it are
attached as usual. -/
theorem attachPlanOr_eq (htable : f.table r model = r.table model)
    (hbelow : ∀ entries, attachPlansOr f r db children entries = attachPlans r db children entries)
    (entries : List (Record × Bool)) :
    attachPlanOr f r db (.node model required attributes where_ (some relation) children) entries =
      attachPlan r db (.node model required attributes where_ (some relation) children) entries := by
  simp only [attachPlanOr, attachPlan, htable, hbelow]

mutual

theorem attachPlanOr_usual : ∀ (plan : ClausePlan) (entries : List (Record × Bool)),
    attachPlanOr .usual r db plan entries = attachPlan r db plan entries
  | .node _ _ _ _ none _, _ => by
    rw [attachPlanOr, attachPlan]
    rfl
  | .node model _ _ _ (some _) children, entries =>
    attachPlanOr_eq (Fallback.table_eq rfl r model) (attachPlansOr_usual children) entries

/-- With the usual branches, related records are attached as usual. -/
theorem attachPlansOr_usual : ∀ (plans : List ClausePlan) (entries : List (Record × Bool)),
    attachPlansOr .usual r db plans entries = attachPlans r db plans entries
  | [], _ => by rw [attachPlansOr, attachPlans]
  | plan :: rest, entries => by
    simp only [attachPlansOr, attachPlans, attachPlanOr_usual plan, attachPlansOr_usual rest]

end

/-- On walks, it does not matter what the primary store does for plans without a relation, nor what it
does for models without a table, if no registered model has two attributes of one name. -/
theorem attachPlansOr_of_walks (h : Walks r parent builders plans)
    (hf : f.untabled = .error .missingKey ∨
      ∀ name m, r.model? name = some m → Model.hasRepeatedAttribute m.attributes = false)
    (entries : List (Record × Bool)) :
    attachPlansOr f r db plans entries = attachPlans r db plans entries := by
  induction h generalizing entries with
  | nil => rw [attachPlansOr, attachPlans]
  | stray _ _ ih => exact ih entries
  | @step _ model _ _ _ _ _ _ _ _ _ _ hedge _ _ ihbelow ihrest =>
    have htable : f.table r model = r.table model := by
      rcases hf with husual | hproper
      · exact Fallback.table_eq husual r model
      · obtain ⟨m, hm, htable⟩ := hedge.exists_model
        rw [Fallback.table, htable (hproper model m hm)]
    simp only [attachPlansOr, attachPlans, attachPlanOr_eq htable ihbelow, ihrest]

end Primary

/-! ## Requests -/

namespace Include

/-- What requests for records related to a model are resolved to, whatever registrations succeeded or
failed before.  The plans for both stores are walks: every node is bound to the relation of the registry
from its actual parent to its model, which is registered, and is required as it says, or else as the
relation is declared.  So no search of the cache comes to a plan without a relation, and no query of the
primary store does; and none comes to a model without a table, if no registered model has two attributes
of one name. -/
theorem requests_are_walks (hr : Reached r) (model : String) (tokens : List Token) :
    (∀ {φ : Type} (form : FilterForm φ) (plans : List (Plan φ)),
      (resolve r form model tokens).run.2 = .ok plans → Walks r model (spelled none tokens) plans) ∧
    (∃ plans, (resolve r cacheForm model tokens).run.2 = .ok plans ∧
      ∀ unbound d given name where_,
        Cache.findOr unbound d given name where_ plans = Cache.find d given name where_ plans) ∧
    ∀ plans, (resolve r (tableForm r) model tokens).run.2 = .ok plans → ∀ f : Primary.Fallback,
      (f.untabled = .error .missingKey ∨
        ∀ name m, r.model? name = some m → Model.hasRepeatedAttribute m.attributes = false) →
      ∀ db entries,
        Primary.attachPlansOr f r db plans entries = Primary.attachPlans r db plans entries := by
  have hwalks {φ : Type} (form : FilterForm φ) (plans : List (Plan φ))
      (h : (resolve r form model tokens).run.2 = .ok plans) :
      Walks r model (spelled none tokens) plans := by
    have hends := resolve_walks hr form.failsOnly model tokens
    rwa [h] at hends
  refine ⟨hwalks, ?_, fun plans h f hf db => Primary.attachPlansOr_of_walks (hwalks _ plans h) hf⟩
  have hcache := resolve_walks hr cacheForm_failsOnly model tokens
  cases houtcome : (resolve r cacheForm model tokens).run.2 with
  | ok plans => exact ⟨plans, rfl, Cache.findOr_of_walks (hwalks _ plans houtcome)⟩
  | error fault =>
    rw [houtcome] at hcache
    exact hcache.elim

/-- The relation from authors to their books. -/
def wrote : Relation := ⟨"book", "author", .hasMany, "id", "author", true⟩

/-- The relation from books to their authors. -/
def writtenBy : Relation := ⟨"author", "book", .belongsTo, "author", "id", false⟩

/-- A library of authors and their books. -/
def catalogue : Registry :=
  (({} : Registry).register
    [{ name := "author"
       attributes := [{ name := "id", type := .int, primaryKey := true }]
       relations := [("book", ⟨"hasMany", "id", "author", true⟩)] },
     { name := "book"
       attributes := [{ name := "id", type := .int, primaryKey := true },
         { name := "author", type := .int }]
       relations := [("author", ⟨"belongsTo", "author", "id", false⟩)] }]).1

/-- A request for the books of authors by a built node, and for their authors by one below it that was
bound to another relation, and for the books of those. -/
def booksWithAuthors : List Token :=
  [.plan (.node "book" none none none none [.node "author" (some true) none none (some wrote) []]),
   .items [.name "author", .items [.name "book"]]]

/-- The plans of that request. -/
def plansOfBooks (φ : Type) : List (Plan φ) :=
  [.node "book" (some true) none none (some wrote)
    [.node "author" (some true) none none (some writtenBy) [],
      .node "author" (some false) none none (some writtenBy)
        [.node "book" (some true) none none (some wrote) []]]]

/-- The authors of books are found along the relations of the library. -/
theorem books_with_authors_are_walks :
    Reached catalogue ∧
    (resolve catalogue cacheForm "author" booksWithAuthors).run.2 = .ok (plansOfBooks _) ∧
    (resolve catalogue (tableForm catalogue) "author" booksWithAuthors).run.2 =
      .ok (plansOfBooks _) ∧
    Walks catalogue "author" (spelled none booksWithAuthors) (plansOfBooks (Clause Comparison)) ∧
    ∀ f : Primary.Fallback, ∀ db entries,
      Primary.attachPlansOr f catalogue db (plansOfBooks _) entries =
        Primary.attachPlans catalogue db (plansOfBooks _) entries := by
  have hreached : Reached catalogue := Reached.empty.register _
  have hplans : (resolve catalogue (tableForm catalogue) "author" booksWithAuthors).run.2 =
      .ok (plansOfBooks _) := by cbv
  have hproper : ∀ name m, catalogue.model? name = some m →
      Model.hasRepeatedAttribute m.attributes = false := by
    intro name m hm
    have hall : ∀ entry ∈ catalogue.models,
        Model.hasRepeatedAttribute entry.2.attributes = false := by decide
    exact hall (name, m) (Entries.mem_of_get? hm)
  obtain ⟨hwalks, -, hstore⟩ := requests_are_walks hreached "author" booksWithAuthors
  exact ⟨hreached, by cbv, hplans, hwalks _ _ hplans, fun f => hstore _ hplans f (.inr hproper)⟩

/-- A registry in which parts were refused, because they have two attributes of one name, and wholes were
registered that have parts. -/
def wholesOfParts : Registry :=
  ((({} : Registry).register
    [{ name := "part"
       attributes := [{ name := "id", type := .int, primaryKey := true },
         { name := "id", type := .int }] }]).1.register
    [{ name := "whole"
       attributes := [{ name := "id", type := .int, primaryKey := true }]
       relations := [("part", ⟨"hasMany", "id", "id", true⟩)] }]).1

/-- The relation from wholes to their parts. -/
def partOf : Relation := ⟨"part", "whole", .hasMany, "id", "id", true⟩

/-- Parts that were refused are related to wholes, and have no table, so the branch of the primary store
for models without a table is reached. -/
theorem refused_parts_have_no_table :
    Reached wholesOfParts ∧
    (resolve wholesOfParts (tableForm wholesOfParts) "whole" [.name "part"]).run.2 =
      .ok [.node "part" (some true) none none (some partOf) []] ∧
    wholesOfParts.relation? "whole" "part" = some partOf ∧
    wholesOfParts.hasModel "part" = true ∧
    wholesOfParts.table "part" = .error .missingKey ∧
    Primary.attachPlans wholesOfParts {} [.node "part" (some true) none none (some partOf) []]
      [([("id", .int 1)], true)] = .error .missingKey ∧
    ∀ fault, Primary.attachPlansOr ⟨.ok, .error fault⟩ wholesOfParts {}
      [.node "part" (some true) none none (some partOf) []] [([("id", .int 1)], true)] = .error fault :=
  ⟨(Reached.empty.register _).register _, by cbv, rfl, rfl, rfl, rfl, fun _ => rfl⟩

end Include

end TwinStore
