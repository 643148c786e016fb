import TwinStore.Proofs.ServerSets
import TwinStore.Proofs.WorkingCache
import TwinStore.Twin.Reading

/-!
# Changes of a cache that answers

Where the cache can be reached and no command fails, records are added, removed and replaced as they
are meant to be, and the answers tell so.  What cannot be done changes nothing.

Main definitions:

- `added`, `removed`: sets after members were added to one of them, or removed from it.
- `updateFound`: the part of an update that follows its search.
- `updateFailed`: the answer to an update that cannot be applied to a record.

Main results:

- Theorem `create_leads`, `delete_leads`, `update_leads`: the changes of the sets and their answers.
- Theorem `unknown_leads`, `mistaken_leads`, `update_failed_leads`: models that are not registered,
  filters with mistakes and updates that fail change nothing.
-/

namespace TwinStore.Cache

open Action

/-! ## Changed sets -/

/-- Sets after members were added to the set under a key. -/
def added (sets : Entries (List String)) (key : String) (members : List String) :
    Entries (List String) :=
  (({ sets } : Server).add key members).sets

/-- Sets after members were removed from the set under a key. -/
def removed (sets : Entries (List String)) (key : String) (members : List String) :
    Entries (List String) :=
  (({ sets } : Server).remove key members).sets

section

variable {sets : Entries (List String)} {key key' raw : String} {members : List String}

theorem mem_added : raw ∈ (Entries.get? (added sets key members) key').getD [] ↔
    raw ∈ (Entries.get? sets key').getD [] ∨ key' = key ∧ raw ∈ members :=
  Server.mem_members_add

theorem mem_removed : raw ∈ (Entries.get? (removed sets key members) key').getD [] ↔
    raw ∈ (Entries.get? sets key').getD [] ∧ ¬(key' = key ∧ raw ∈ members) :=
  Server.mem_members_remove

/-- Adding members to a set leaves the others alone. -/
theorem get?_added_of_ne (sets : Entries (List String)) (members : List String) (h : key' ≠ key) :
    Entries.get? (added sets key members) key' = Entries.get? sets key' :=
  Entries.get?_set_of_ne _ _ h

/-- Removing members from a set leaves the others alone. -/
theorem get?_removed_of_ne (sets : Entries (List String)) (members : List String) (h : key' ≠ key) :
    Entries.get? (removed sets key members) key' = Entries.get? sets key' :=
  Entries.get?_set_of_ne _ _ h

theorem AreSorted.added (h : AreSorted sets) (key : String) (members : List String) :
    AreSorted (added sets key members) :=
  @AreSorted.add { sets } h key members

theorem AreSorted.removed (h : AreSorted sets) (key : String) (members : List String) :
    AreSorted (removed sets key members) :=
  @AreSorted.remove { sets } h key members

end

/-! ## Answers -/

section

variable {d : Deployment} {model : String} {sets : Entries (List String)}
  {primary : Primary.Database × List (Option Bool)}

/-- Members are added by a command. -/
theorem add_leads (key : String) (members : List String) :
    (request .add (·.add key members)).Leads (Stores.Stands d sets primary) (.ok none)
      (Stores.Stands d (added sets key members) primary) := by
  refine request_leads .add fun server hserver => ⟨?_, rfl⟩
  rw [← hserver]
  rfl

/-- Members are removed by a command. -/
theorem remove_leads (key : String) (members : List String) :
    (request .remove (·.remove key members)).Leads (Stores.Stands d sets primary) (.ok none)
      (Stores.Stands d (removed sets key members) primary) := by
  refine request_leads .remove fun server hserver => ⟨?_, rfl⟩
  rw [← hserver]
  rfl

/-- Records that have members are added. -/
theorem create_leads (hm : d.registry.hasModel model = true) (given : Option CorrelationRef)
    {records : Value} (hrecords : records.isTruthy = true) {members : List String}
    (hmembers : membersOf d.registry.modelNames records = .ok members) :
    (create d given model records).Leads (Stores.Stands d sets primary) (.ok (some true))
      (Stores.Stands d (added sets (setKey d model) members) primary) := by
  refine Leads.inScope fun ref => Leads.bind (Leads.knows hm ref component _) ?_
  simp only [hrecords, if_true, hmembers]
  exact Leads.bind (connect_leads d ref) (Leads.bind (add_leads _ members) (Leads.pure _ _))

/-- No records are not added. -/
theorem create_nothing_leads (hm : d.registry.hasModel model = true) (given : Option CorrelationRef)
    {records : Value} (hrecords : records.isTruthy = false) (P : Stores → Prop) :
    (create d given model records).Leads P (.ok (some false)) P := by
  refine Leads.inScope fun ref => Leads.bind (Leads.knows hm ref component _) ?_
  simp only [hrecords, Bool.false_eq_true, if_false]
  exact Leads.pure _ _

/-- The records that a filter finds are removed. -/
theorem delete_leads (hm : d.registry.hasModel model = true) (given : Option CorrelationRef)
    {where_ : Value} {found : List (String × Record)}
    (hfound : ∀ ref, (matching d ref model where_).Leads (Stores.Stands d sets primary)
      (.ok (some found)) (Stores.Stands d sets primary)) :
    (delete d given model where_).Leads (Stores.Stands d sets primary) (.ok (some !found.isEmpty))
      (Stores.Stands d (if found.isEmpty then sets
        else removed sets (setKey d model) (found.map (·.1))) primary) := by
  refine Leads.inScope fun ref => Leads.bind (Leads.knows hm ref component _)
    (Leads.bind (hfound ref) ?_)
  cases found with
  | nil => exact Leads.pure _ _
  | cons e found => exact Leads.bind (remove_leads _ _) (Leads.pure _ _)

/-- An update names the fields of its entries. -/
theorem updatedFields_map (entries : Entries Value) :
    updatedFields (.map entries) = .ok (Entries.keys entries) := by
  rw [updatedFields, Value.items, Outcome.ok_bind, List.mapM_map]
  exact Outcome.mapM_eq_ok fun e _ => rfl

/-- Of known fields none is unknown. -/
theorem unknownFields_eq_nil {fields : List String}
    (hknown : ∀ field ∈ fields, Entries.has (d.registry.attributeTypes model) field = true) :
    fields.filter (!Entries.has (d.registry.attributeTypes model) ·) = [] := by
  refine List.filter_eq_nil_iff.mpr fun field hfield => ?_
  rw [hknown field hfield]
  exact Bool.false_ne_true

/-- Members are replaced. -/
theorem replace_leads (ref : CorrelationRef) (model : String) (old new : List String) :
    (replace d ref model old new).Leads (Stores.Stands d sets primary)
      (.ok (some { found := old.length, updated := old.length }))
      (Stores.Stands d (added (removed sets (setKey d model) old) (setKey d model) new) primary) :=
  Leads.bind (remove_leads _ old) (Leads.bind (add_leads _ new) (Leads.pure _ _))

/-- What an update does once its filter has been tried. -/
def updateFound (d : Deployment) (ref : CorrelationRef) (model : String) (spec : Value) :
    Option (List (String × Record)) → Action (Option ChangeCounts)
  | none => return none
  | some [] => return some { found := 0, updated := 0 }
  | some found =>
    match updatedMembers d model spec (found.map (·.2)) with
    | .error (.update e) => do
      Action.report ref .error component s!"Invalid update: {e.message}" [("model", .text model)]
      return none
    | .error (.wrongKind detail) => do
      Action.report ref .error component s!"Invalid update: {detail}" [("model", .text model)]
      return none
    | .error fault => throw fault
    | .ok members => replace d ref model (found.map (·.1)) members

/-- An update of known fields does what it does with the answer to its search. -/
theorem update_leads_of_search (hm : d.registry.hasModel model = true)
    (given : Option CorrelationRef) {spec where_ : Value} {fields : List String}
    (hfields : updatedFields spec = .ok fields)
    (hknown : ∀ field ∈ fields, Entries.has (d.registry.attributeTypes model) field = true)
    {answer : Option (List (String × Record))} {P Q R : Stores → Prop}
    {o : Outcome (Option ChangeCounts)}
    (hsearch : ∀ ref, (matching d ref model where_).Leads P (.ok answer) R)
    (hrest : ∀ ref, (updateFound d ref model spec answer).Leads R o Q) :
    (update d given model spec where_).Leads P o Q := by
  refine Leads.inScope fun ref => Leads.bind (Leads.knows hm ref component _) ?_
  rw [hfields]
  refine Leads.bind (Leads.ofOutcome (.ok fields) _) ?_
  simp only [unknownFields_eq_nil hknown, List.isEmpty_nil, if_true]
  exact Leads.bind (hsearch ref) (hrest ref)

/-- The records that a filter finds are updated, if all fields are known and all updated records have
members. -/
theorem update_leads (hm : d.registry.hasModel model = true) (given : Option CorrelationRef)
    {spec where_ : Value} {fields : List String} (hfields : updatedFields spec = .ok fields)
    (hknown : ∀ field ∈ fields, Entries.has (d.registry.attributeTypes model) field = true)
    {found : List (String × Record)}
    (hfound : ∀ ref, (matching d ref model where_).Leads (Stores.Stands d sets primary)
      (.ok (some found)) (Stores.Stands d sets primary))
    {members : List String}
    (hmembers : updatedMembers d model spec (found.map (·.2)) = .ok members) :
    (update d given model spec where_).Leads (Stores.Stands d sets primary)
      (.ok (some { found := found.length, updated := found.length }))
      (Stores.Stands d (if found.isEmpty then sets else
        added (removed sets (setKey d model) (found.map (·.1))) (setKey d model) members) primary) := by
  refine update_leads_of_search hm given hfields hknown hfound fun ref => ?_
  cases found with
  | nil => exact Leads.pure _ _
  | cons e found =>
    simp only [updateFound, hmembers]
    have hreplaced := @replace_leads d sets primary ref model ((e :: found).map (·.1)) members
    rw [List.length_map] at hreplaced
    exact hreplaced

/-! ## Refusals -/

/-- Nothing is done to a model that is not registered. -/
theorem unknown_leads (hm : d.registry.hasModel model = false) (given : Option CorrelationRef)
    (P : Stores → Prop) :
    (∀ records, (create d given model records).Leads P (.ok none) P) ∧
      (∀ where_, (delete d given model where_).Leads P (.ok none) P) ∧
      (∀ spec where_, (update d given model spec where_).Leads P (.ok none) P) ∧
      ∀ where_ plans, (find d given model where_ plans).Leads P (.ok none) P := by
  refine ⟨fun _ => ?_, fun _ => ?_, fun _ _ => ?_, fun _ _ => ?_⟩
  all_goals exact Leads.inScope fun ref =>
    Leads.bind (Leads.unknown hm ref component P) (Leads.pure none P)

/-- Records without members fail to be created, unless that is reported. -/
theorem create_failed_leads (hm : d.registry.hasModel model = true) (given : Option CorrelationRef)
    {records : Value} (hrecords : records.isTruthy = true) {fault : Fault}
    (hmembers : membersOf d.registry.modelNames records = .error fault)
    (hkind : ∀ detail, fault ≠ .wrongKind detail) (P : Stores → Prop) :
    (create d given model records).Leads P (.error fault) P := by
  refine Leads.inScope fun ref => Leads.bind (Leads.knows hm ref component _) ?_
  simp only [hrecords, if_true, hmembers]
  cases fault with
  | wrongKind detail => exact absurd rfl (hkind detail)
  | _ => exact Leads.throw _ P

/-- Nothing is done by a filter that does not search. -/
theorem mistaken_leads {where_ : Value} {P : Stores → Prop}
    (hfound : ∀ ref, (matching d ref model where_).Leads P (.ok none) P)
    (hm : d.registry.hasModel model = true) (given : Option CorrelationRef) :
    (delete d given model where_).Leads P (.ok none) P ∧
      (∀ plans, (find d given model where_ plans).Leads P (.ok none) P) := by
  constructor
  · exact Leads.inScope fun ref => Leads.bind (Leads.knows hm ref component P)
      (Leads.bind (hfound ref) (Leads.pure none P))
  · exact fun _ => Leads.inScope fun ref => Leads.bind (Leads.knows hm ref component P)
      (Leads.bind (hfound ref) (Leads.pure none P))

/-- The answer to an update that cannot be applied to a record. -/
def updateFailed : Fault → Outcome (Option ChangeCounts)
  | .update _ | .wrongKind _ => .ok none
  | fault => .error fault

/-- Nothing is updated if a field is unknown. -/
theorem update_unknown_leads (hm : d.registry.hasModel model = true) (given : Option CorrelationRef)
    {spec where_ : Value} {fields : List String} (hfields : updatedFields spec = .ok fields)
    {field : String} (hfield : field ∈ fields)
    (hunknown : Entries.has (d.registry.attributeTypes model) field = false) (P : Stores → Prop) :
    (update d given model spec where_).Leads P (.ok none) P := by
  have hempty : (fields.filter (!Entries.has (d.registry.attributeTypes model) ·)).isEmpty = false := by
    rw [List.isEmpty_eq_false_iff_exists_mem]
    exact ⟨field, List.mem_filter.mpr ⟨hfield, by rw [hunknown]; rfl⟩⟩
  refine Leads.inScope fun ref => Leads.bind (Leads.knows hm ref component _) ?_
  rw [hfields]
  refine Leads.bind (Leads.ofOutcome (.ok fields) _) ?_
  simp only [hempty, Bool.false_eq_true, if_false]
  exact Leads.bind (Leads.report _ _ _ _ _ _) (Leads.pure none P)

/-- Nothing is updated by a filter that does not search. -/
theorem update_mistaken_leads (hm : d.registry.hasModel model = true) (given : Option CorrelationRef)
    {spec where_ : Value} {fields : List String} (hfields : updatedFields spec = .ok fields)
    (hknown : ∀ field ∈ fields, Entries.has (d.registry.attributeTypes model) field = true)
    {P : Stores → Prop} (hfound : ∀ ref, (matching d ref model where_).Leads P (.ok none) P) :
    (update d given model spec where_).Leads P (.ok none) P :=
  update_leads_of_search hm given hfields hknown hfound fun _ => Leads.pure none P

/-- Nothing is updated if nothing is found. -/
theorem update_nothing_leads (hm : d.registry.hasModel model = true) (given : Option CorrelationRef)
    {spec where_ : Value} {fields : List String} (hfields : updatedFields spec = .ok fields)
    (hknown : ∀ field ∈ fields, Entries.has (d.registry.attributeTypes model) field = true)
    {P : Stores → Prop} (hfound : ∀ ref, (matching d ref model where_).Leads P (.ok (some [])) P) :
    (update d given model spec where_).Leads P (.ok (some { found := 0, updated := 0 })) P :=
  update_leads_of_search hm given hfields hknown hfound fun _ => Leads.pure _ P

/-- Nothing is updated if the fields of the update cannot be named. -/
theorem update_unnamed_leads (hm : d.registry.hasModel model = true) (given : Option CorrelationRef)
    {spec where_ : Value} {fault : Fault} (hfields : updatedFields spec = .error fault)
    (P : Stores → Prop) : (update d given model spec where_).Leads P (.error fault) P := by
  refine Leads.inScope fun ref => Leads.bind (Leads.knows hm ref component _) ?_
  rw [hfields]
  exact Leads.bind_error (Leads.ofOutcome (.error fault) P)

/-- Nothing is updated if a record that is found cannot be. -/
theorem update_failed_leads (hm : d.registry.hasModel model = true) (given : Option CorrelationRef)
    {spec where_ : Value} {fields : List String} (hfields : updatedFields spec = .ok fields)
    (hknown : ∀ field ∈ fields, Entries.has (d.registry.attributeTypes model) field = true)
    {found : List (String × Record)} {P : Stores → Prop}
    (hfound : ∀ ref, (matching d ref model where_).Leads P (.ok (some found)) P)
    {fault : Fault} (hfailed : updatedMembers d model spec (found.map (·.2)) = .error fault)
    (hnonempty : found ≠ []) :
    (update d given model spec where_).Leads P (updateFailed fault) P := by
  refine update_leads_of_search hm given hfields hknown hfound fun ref => ?_
  cases found with
  | nil => exact absurd rfl hnonempty
  | cons e found =>
    simp only [updateFound, hfailed]
    cases fault with
    | update e => exact Leads.bind (Leads.report _ _ _ _ _ _) (Leads.pure none P)
    | wrongKind detail => exact Leads.bind (Leads.report _ _ _ _ _ _) (Leads.pure none P)
    | _ => exact Leads.throw _ P

end

end TwinStore.Cache
