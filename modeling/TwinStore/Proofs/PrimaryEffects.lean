import TwinStore.Primary.Change
import TwinStore.Proofs.Effects
import TwinStore.Proofs.Registrations

/-!
# What operations of the primary store do

Each operation of the primary store looks at the database and nothing else.  A statement that
succeeds leaves the database that it makes; any failure leaves the database as it was.

Main definitions:

- `answered`: an outcome as the primary store answers it.
- `Stores.after`: the stores after a statement.

Main results:

- Theorem `query_gives`: a query answers with the selection and changes nothing.
- Theorem `create_gives`, `createAll_gives`, `update_gives`, `deleteRow_gives`: a change is that of
  its statement.
-/

namespace TwinStore

/-- The stores after a statement: a failure changes nothing. -/
def Stores.after {α : Type} (c : Stores) (x : Outcome (Primary.Database × α)) : Stores :=
  match x with
  | .ok (database, _) => { c with database }
  | .error _ => c

namespace Primary

open Filter Action

variable {α : Type} {d : Deployment} {model : String} {m : Model} {c c' : Stores}

/-! ## Answers -/

/-- An outcome as the primary store answers it: nothing for a failure that it answers for. -/
def answered (o : Outcome α) : Outcome (Option α) :=
  match o with
  | .ok a => .ok (some a)
  | .error fault => if (failureText? fault).isSome then .ok none else .error fault

/-- An operation on a table answers with its outcome. -/
theorem guarded_gives (ref : CorrelationRef) (action model : String) {body : Action α}
    {o : Outcome α} (h : body.Gives c o c') : (guarded ref action model body).Gives c (answered o) c' := by
  refine Gives.bind h.attempt ?_
  cases o with
  | ok a => exact Gives.pure _ _
  | error fault =>
    simp only [answered]
    cases failureText? fault with
    | none => exact Gives.throw fault _
    | some text => exact Gives.bind (Gives.report _ _ _ _ _ _) (Gives.pure _ _)

/-- An operation on the table of a registered model has its table. -/
theorem onTable_gives (hm : d.registry.table model = .ok m) {given : Option CorrelationRef}
    {body : CorrelationRef → Model → Action (Option α)} {o : Outcome (Option α)}
    (h : ∀ ref, (body ref m).Gives c o c') : (onTable d given model body).Gives c o c' := by
  refine Gives.inScope fun ref => ?_
  refine Gives.bind (Gives.knows (Registry.hasModel_of_table hm) ref component c) ?_
  rw [hm]
  exact Gives.bind (Gives.pure _ _) (Gives.bind (Gives.ofOutcome (.ok m) c) (h ref))

/-- A statement leaves the database that it makes. -/
theorem run_gives (statement : Database → Outcome (Database × α)) (c : Stores) :
    (run statement).Gives c ((statement c.database).map (·.2)) (c.after (statement c.database)) := by
  refine Gives.get_bind fun s hs => ?_
  rw [show s.database = c.database by rw [← hs]; rfl]
  cases statement c.database with
  | error fault => exact Gives.bind_error (Gives.ofOutcome (.error fault) c)
  | ok result =>
    refine Gives.bind (Gives.ofOutcome (.ok result) c) ?_
    have hchange : ∀ s : Stores, s.content = c →
        { s with database := result.1 }.content = { c with database := result.1 } := by
      intro s hs
      rw [← hs]
      rfl
    exact Gives.bind (Gives.of_modify hchange) (Gives.pure _ _)

/-- A statement that is made from a reading leaves the database that it makes. -/
theorem statement_gives {β : Type} {x : Action β} {o : Outcome β} (hx : x.Gives c o c)
    (statement : β → Database → Outcome (Database × α)) :
    (x >>= fun b => run (statement b)).Gives c ((o >>= fun b => statement b c.database).map (·.2))
      (c.after (o >>= fun b => statement b c.database)) := by
  cases o with
  | error fault => exact Gives.bind_error hx
  | ok b => exact Gives.bind hx (run_gives (statement b) c)

/-! ## Queries -/

/-- Reading a selection and selecting its records changes nothing. -/
theorem selectWith_gives (registry : Registry) (m : Model) (selection : Selection)
    (plans : List ClausePlan) (c : Stores) :
    (do
      let clause ← Action.ofReported (selection.toClause m)
      Action.ofOutcome (selectWith registry (← get).database m clause plans) :
        Action (List Record)).Gives c
      ((selection.toClause m).run.2 >>= fun clause =>
        selectWith registry c.database m clause plans) c := by
  have hread := Gives.ofReported (selection.toClause m) c
  cases hclause : (selection.toClause m).run.2 with
  | error fault =>
    rw [hclause] at hread
    exact Gives.bind_error hread
  | ok clause =>
    rw [hclause] at hread
    refine Gives.bind hread (Gives.get_bind fun s hs => ?_)
    rw [show s.database = c.database by rw [← hs]; rfl]
    exact Gives.ofOutcome _ c

/-- A query answers with the records that its clause selects, and changes nothing. -/
theorem query_gives (hm : d.registry.table model = .ok m) (given : Option CorrelationRef)
    (selection : Selection) (plans : List ClausePlan) (c : Stores) :
    (query d given model selection .null plans).Gives c
      (answered ((selection.toClause m).run.2 >>= fun clause =>
        selectWith d.registry c.database m clause plans)) c := by
  refine onTable_gives hm fun ref => ?_
  have hguarded := guarded_gives ref "Query" model (selectWith_gives d.registry m selection plans c)
  generalize ((selection.toClause m).run.2 >>= fun clause =>
    selectWith d.registry c.database m clause plans) = o at hguarded
  have hshown (records : List Record) :
      records.mapM (projectNamed d.registry.modelNames .null) = .ok records := by
    have h : records.mapM (projectNamed d.registry.modelNames .null) = .ok (records.map id) :=
      Outcome.mapM_eq_ok fun record _ => rfl
    rwa [List.map_id] at h
  unfold answered at hguarded ⊢
  split at hguarded
  · refine Gives.bind hguarded ?_
    simp only [hshown]
    exact Gives.bind (Gives.ofOutcome _ c) (Gives.pure _ _)
  · split_ifs at hguarded ⊢
    · exact Gives.bind hguarded (Gives.pure _ _)
    · exact Gives.bind_error hguarded

/-! ## Changes -/

/-- The statement that inserts a record. -/
def creation (d : Deployment) (m : Model) (model : String) (record : Value) (db : Database) :
    Outcome (Database × Record) := do
  db.insert m (← columnValues d.registry model record)

/-- The statement that inserts several records. -/
def creations (d : Deployment) (m : Model) (model : String) (records : Value) (db : Database) :
    Outcome (Database × List Record) := do
  let items ← records.items
  insertRows m (← items.mapM (columnValues d.registry model)) db

/-- The statement that changes the records that satisfy a filter. -/
def changing (m : Model) (spec where_ : Value) (db : Database) :
    Outcome (Database × ChangeCounts) := do
  let clause ← (toClause where_ m).run.2
  let values ← assignments (← spec.entries) m
  let found ← db.count m clause
  if found = 0 then return (db, { found, updated := 0 })
  return (← db.update m clause values, { found, updated := found })

/-- The statement that deletes the record of a row. -/
def deletion (m : Model) (row : Value) (db : Database) : Outcome (Database × Bool) := do
  let where_ ← rowFilter m row
  let clause ← (toClause where_ m).run.2
  let (db, deleted) ← db.delete m clause
  return (db, decide (deleted > 0))

/-- Inserting a record is one statement. -/
theorem create_gives (hm : d.registry.table model = .ok m) (given : Option CorrelationRef)
    (record : Value) (c : Stores) :
    (create d given model record).Gives c
      (answered ((creation d m model record c.database).map (·.2)))
      (c.after (creation d m model record c.database)) :=
  onTable_gives hm fun ref => guarded_gives ref "Insert" model
    (statement_gives (Gives.ofOutcome (columnValues d.registry model record) c) fun values db =>
      db.insert m values)

/-- Inserting several records is one transaction. -/
theorem createAll_gives (hm : d.registry.table model = .ok m) (given : Option CorrelationRef)
    {records : Value} (hrecords : records.isTruthy = true) (c : Stores) :
    (createAll d given model records).Gives c
      (answered ((creations d m model records c.database).map (·.2)))
      (c.after (creations d m model records c.database)) := by
  refine onTable_gives hm fun ref => ?_
  have hread : (do
      let items ← Action.ofOutcome records.items
      Action.ofOutcome (items.mapM (columnValues d.registry model)) : Action _).Gives c
      (records.items >>= fun items => items.mapM (columnValues d.registry model)) c := by
    cases records.items with
    | error fault => exact Gives.bind_error (Gives.ofOutcome _ c)
    | ok items => exact Gives.bind (Gives.ofOutcome _ c) (Gives.ofOutcome _ c)
  have hstatement := statement_gives hread (insertRows m)
  rw [bind_assoc, bind_assoc] at hstatement
  have hguarded := guarded_gives ref "Bulk insert" model hstatement
  rw [hrecords]
  show (_ >>= _ : Action _).Gives _ _ _
  simp only [creations]
  unfold answered at hguarded ⊢
  split at hguarded
  · exact Gives.bind hguarded (Gives.bind (Gives.report _ _ _ _ _ _) (Gives.pure _ _))
  · split_ifs at hguarded ⊢
    · exact Gives.bind hguarded (Gives.pure _ _)
    · exact Gives.bind_error hguarded

/-- Changing records is one statement. -/
theorem update_gives (hm : d.registry.table model = .ok m) (given : Option CorrelationRef)
    (spec where_ : Value) (c : Stores) :
    (update d given model spec where_).Gives c
      (answered ((changing m spec where_ c.database).map (·.2)))
      (c.after (changing m spec where_ c.database)) := by
  refine onTable_gives hm fun ref => guarded_gives ref "Update" model ?_
  have hread : (do
      let clause ← Action.ofReported (toClause where_ m)
      let values ← Action.ofOutcome (do assignments (← spec.entries) m)
      return (clause, values) : Action _).Gives c
      (do
        let clause ← (toClause where_ m).run.2
        let values ← (do assignments (← spec.entries) m : Outcome _)
        return (clause, values)) c := by
    have hread := Gives.ofReported (toClause where_ m) c
    generalize (toClause where_ m).run.2 = o at hread
    cases o with
    | error fault => exact Gives.bind_error hread
    | ok clause =>
      refine Gives.bind hread ?_
      generalize (do assignments (← spec.entries) m : Outcome _) = o
      cases o with
      | error fault => exact Gives.bind_error (Gives.ofOutcome _ c)
      | ok values => exact Gives.bind (Gives.ofOutcome _ c) (Gives.pure _ _)
  have hstatement := statement_gives hread fun (clause, values) db => do
    let found ← db.count m clause
    if found = 0 then return (db, ({ found, updated := 0 } : ChangeCounts))
    return (← db.update m clause values, { found, updated := found })
  simp only [bind_assoc, pure_bind] at hstatement
  simpa only [changing, bind_assoc, pure_bind] using hstatement

/-- Deleting the record of a row is one statement. -/
theorem deleteRow_gives (hm : d.registry.table model = .ok m) (given : Option CorrelationRef)
    (row : Value) (c : Stores) :
    (deleteRow d given model row).Gives c
      (answered ((deletion m row c.database).map (·.2)))
      (c.after (deletion m row c.database)) := by
  refine onTable_gives hm fun ref => guarded_gives ref "Delete" model ?_
  simp only [deletion]
  cases rowFilter m row with
  | error fault => exact Gives.bind_error (Gives.ofOutcome _ c)
  | ok where_ =>
    refine Gives.bind (Gives.ofOutcome _ c) ?_
    have hread := Gives.ofReported (toClause where_ m) c
    rw [Outcome.ok_bind]
    generalize (toClause where_ m).run.2 = o at hread
    cases o with
    | error fault => exact Gives.bind_error hread
    | ok clause =>
      refine Gives.bind hread ?_
      rw [Outcome.ok_bind]
      have hrun := run_gives (fun db => db.delete m clause) c
      generalize c.database.delete m clause = x at hrun
      cases x with
      | error fault => exact Gives.bind_error hrun
      | ok result => exact Gives.bind hrun (Gives.pure _ _)

/-- Where no other outcome is planned, the deletion is carried out. -/
theorem destroy_gives (hm : d.registry.table model = .ok m) (given : Option CorrelationRef)
    (row : Value) {c : Stores} (hplanned : c.plannedDeletions = []) :
    (destroy d given model row).Gives c
      (answered ((deletion m row c.database).map (·.2)))
      (c.after (deletion m row c.database)) := by
  refine Gives.get_bind fun s hs => ?_
  rw [show s.plannedDeletions = [] by rw [← hplanned, ← hs]; rfl]
  exact deleteRow_gives hm given row c

end Primary

end TwinStore
