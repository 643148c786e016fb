import TwinStore.Proofs.CacheChanges
import TwinStore.Proofs.Coherence
import TwinStore.Proofs.RecordSets
import TwinStore.Proofs.WholeRows

/-!
# Calls of the cache

A call of the cache is meant to change a set of records: to create is a union, to delete is a
difference, to update is to replace records by their images, and to find is to list records.  Where
the cache answers, calls with plain records, operands and new values do what they mean.

Main definitions:

- `Call`, `Reply`: the calls of the cache and their answers.
- `Call.Means`: what a call means for a family of sets of records.
- `Call.IsPlain`: calls with plain records, operands and new values.
- `Represents`: sets of members that list a family of sets of records.

Main results:

- Theorem `matching_finds`: a search finds the records that satisfy a filter, each once.
- Theorem `create_refines`, `delete_refines`, `update_refines`, `find_refines`, `Call.refines`: a call
  does what it means.
-/

namespace TwinStore

open Filter Action

/-! ## Attribute fields -/

/-- The fields of a record that are attributes. -/
def attributeFields (types : Entries AttributeType) (record : Record) : Record :=
  record.filter fun e => Entries.has types e.1

namespace Registry

variable {r : Registry} {model key : String} {type : AttributeType}

/-- Where no attribute is named like a model, no field of a model is. -/
theorem NamesApart.hasModel_eq (hr : r.NamesApart)
    (h : Entries.get? (r.attributeTypes model) key = some type) : r.hasModel key = false := by
  rw [attributeTypes] at h
  cases hm : r.model? model with
  | none =>
    rw [hm] at h
    cases h
  | some m =>
    rw [hm] at h
    obtain ⟨_, hmem⟩ := Entries.ofPairs_spec (m.attributes.map fun a => (a.name, a.type))
    obtain ⟨a, ha, heq⟩ := List.mem_map.mp (hmem _ (Entries.mem_of_get? h))
    obtain ⟨rfl, _⟩ := Prod.mk.inj heq
    exact hr model m hm a ha

/-- Own fields of a record of attributes and related records are its attributes. -/
theorem NamesApart.ownFields_eq (hr : r.NamesApart) {record : Record}
    (h : ∀ e ∈ record, r.hasModel e.1 = true ∨
      ∃ type, Entries.get? (r.attributeTypes model) e.1 = some type) :
    r.ownFields record = attributeFields (r.attributeTypes model) record := by
  refine List.filter_congr fun e he => ?_
  rw [contains_modelNames]
  rcases h e he with hmodel | ⟨type, htype⟩
  · have hunknown : Entries.has (r.attributeTypes model) e.1 = false := by
      rw [Bool.eq_false_iff, ne_eq, Entries.has_iff]
      intro hkey
      obtain ⟨type, htype⟩ := Entries.exists_get? hkey
      rw [hr.hasModel_eq htype] at hmodel
      cases hmodel
    rw [hmodel, hunknown]
    rfl
  · have hknown : Entries.has (r.attributeTypes model) e.1 = true :=
      Entries.has_iff.mpr (Entries.mem_keys_of_mem (Entries.mem_of_get? htype))
    rw [hr.hasModel_eq htype, hknown]
    rfl

/-- Where no attribute is named like a model, plain records have own fields only. -/
theorem NamesApart.ownFields_of_isPlain (hr : r.NamesApart) {x : Record}
    (hx : Cache.IsPlain (r.attributeTypes model) x) : r.ownFields x = x := by
  refine List.filter_eq_self.mpr fun e he => ?_
  obtain ⟨type, htype, _⟩ := hx.retains e he
  rw [contains_modelNames, hr.hasModel_eq htype]
  rfl

end Registry

namespace Cache

/-- The members of records are those of their own fields. -/
theorem mapM_memberOf (r : Registry) (records : List Record) :
    records.mapM (fun x => memberOf r.modelNames (.map x)) =
      (records.map r.ownFields).mapM encode := by
  rw [List.mapM_map]
  rfl

/-- The attribute fields of a record of plain values are plain. -/
theorem isPlain_attributeFields {r : Registry} (hr : r.NamesApart) {model : String} {record : Record}
    (hkeys : (Entries.keys record).Nodup) (h : ∀ e ∈ record, r.hasModel e.1 = true ∨
      ∃ type, Entries.get? (r.attributeTypes model) e.1 = some type ∧ type.Retains e.2) :
    IsPlain (r.attributeTypes model) (attributeFields (r.attributeTypes model) record) where
  nodup := hkeys.sublist (List.filter_sublist.map Prod.fst)
  retains e he := by
    obtain ⟨he, hknown⟩ := List.mem_filter.mp he
    obtain ⟨type, htype⟩ := Entries.exists_get? (Entries.has_iff.mp hknown)
    rcases h e he with hmodel | hretains
    · rw [hr.hasModel_eq htype] at hmodel
      cases hmodel
    · exact hretains

/-! ## Calls -/

/-- A filter as a value. -/
def filterValue (where_ : Option (Entries Value)) : Value := (where_.map Value.map).getD .null

/-- A call of the cache. -/
inductive Call where
  | create (model : String) (records : List Record)
  | delete (model : String) (where_ : Option (Entries Value))
  | update (model : String) (spec : Entries Value) (where_ : Option (Entries Value))
  | find (model : String) (where_ : Option (Entries Value))

/-- The answer to a call: nothing if it cannot be carried out. -/
inductive Reply where
  | done (answer : Option Bool)
  | counts (answer : Option ChangeCounts)
  | found (answer : Option (List Record))

namespace Call

/-- The model that a call is about. -/
def model : Call → String
  | create model _ | delete model _ | update model _ _ | find model _ => model

/-- The filter of a call. -/
def filter? : Call → Option Value
  | create .. => none
  | delete _ where_ | update _ _ where_ | find _ where_ => some (filterValue where_)

/-- The answer to a call that is refused. -/
def refusal : Call → Reply
  | create .. | delete .. => .done none
  | update .. => .counts none
  | find .. => .found none

/-- A call as an operation of the cache. -/
def perform (d : Deployment) (given : Option CorrelationRef) : Call → Action Reply
  | create model records => do
    return .done (← Cache.create d given model (.list (records.map .map)))
  | delete model where_ => do return .done (← Cache.delete d given model (filterValue where_))
  | update model spec where_ => do
    return .counts (← Cache.update d given model (.map spec) (filterValue where_))
  | find model where_ => do return .found (← Cache.find d given model (filterValue where_) [])

end Call

/-! ## What calls mean -/

/-- A set of records for every model. -/
abbrev Family : Type := String → Set Entity

/-- The predicate of a filter of a model. -/
def readFilter (r : Registry) (model : String) (where_ : Value) : Outcome Predicate :=
  (Predicate.ofFilter where_ (some (r.attributeTypes model))).run.2

/-- Whether a call is refused: its model is not registered, its filter has a mistake, or it updates an
unknown field. -/
inductive Call.IsRefused (r : Registry) : Call → Prop
  | unknownModel {call : Call} (h : r.hasModel call.model = false) : IsRefused r call
  | mistakenFilter {call : Call} {where_ : Value} {e : FilterError}
      (hfilter : call.filter? = some where_)
      (h : readFilter r call.model where_ = .error (.filter e)) : IsRefused r call
  | unknownField {model field : String} {spec : Entries Value} {where_ : Option (Entries Value)}
      (hfield : field ∈ Entries.keys spec)
      (h : Entries.has (r.attributeTypes model) field = false) : IsRefused r (.update model spec where_)

/-- What a call means for a family of sets of records: its outcome, and the family after it. -/
inductive Call.Means (r : Registry) (F : Family) : Call → Outcome Reply → Family → Prop
  | refused {call : Call} (h : call.IsRefused r) : Means r F call (.ok call.refusal) F
  /-- To create no record does nothing. -/
  | createNothing {model : String} (hm : r.hasModel model = true) :
      Means r F (.create model []) (.ok (.done (some false))) F
  /-- To create records is a union. -/
  | create {model : String} {records : List Record} (hm : r.hasModel model = true)
      (hrecords : records ≠ []) :
      Means r F (.create model records) (.ok (.done (some true)))
        (Function.update F model (F model ∪
          entitiesOf (records.map (attributeFields (r.attributeTypes model)))))
  /-- To delete is to take away what satisfies the filter. -/
  | delete {model : String} {where_ : Option (Entries Value)} {predicate : Predicate} {b : Bool}
      (hm : r.hasModel model = true)
      (hread : readFilter r model (filterValue where_) = .ok predicate)
      (hb : b = true ↔ (satisfying predicate (F model)).Nonempty) :
      Means r F (.delete model where_) (.ok (.done (some b)))
        (Function.update F model (F model \ satisfying predicate (F model)))
  /-- To update is to replace what satisfies the filter by its images. -/
  | update {model : String} {spec : Entries Value} {where_ : Option (Entries Value)}
      {predicate : Predicate} {n : ℕ} (hm : r.hasModel model = true)
      (hknown : ∀ field ∈ Entries.keys spec, Entries.has (r.attributeTypes model) field = true)
      (hread : readFilter r model (filterValue where_) = .ok predicate)
      (hcount : (satisfying predicate (F model)).encard = n)
      (himages : ∀ x, entityOf x ∈ satisfying predicate (F model) →
        ∃ y, revise spec x (r.attributeTypes model) = .ok y) :
      Means r F (.update model spec where_) (.ok (.counts (some { found := n, updated := n })))
        (Function.update F model (F model \ satisfying predicate (F model) ∪
          images spec (r.attributeTypes model) (satisfying predicate (F model))))
  /-- An update that fails for one record changes none. -/
  | updateFails {model : String} {spec : Entries Value} {where_ : Option (Entries Value)}
      {predicate : Predicate} {x : Record} {fault : Fault} (hm : r.hasModel model = true)
      (hknown : ∀ field ∈ Entries.keys spec, Entries.has (r.attributeTypes model) field = true)
      (hread : readFilter r model (filterValue where_) = .ok predicate)
      (hx : entityOf x ∈ satisfying predicate (F model))
      (hfault : revise spec x (r.attributeTypes model) = .error fault) :
      Means r F (.update model spec where_) ((updateFailed fault).map .counts) F
  /-- To find is to list what satisfies the filter, each record once. -/
  | find {model : String} {where_ : Option (Entries Value)} {predicate : Predicate}
      {records : List Record} (hm : r.hasModel model = true)
      (hread : readFilter r model (filterValue where_) = .ok predicate)
      (hnodup : (records.map entityOf).Nodup)
      (hrecords : entitiesOf records = satisfying predicate (F model)) :
      Means r F (.find model where_) (.ok (.found (some records))) F

/-! ## Plain calls -/

/-- Whether a call is plain: its records hold null and plain values in attributes and anything in
related records, its filter has plain operands and its update plain new values. -/
def Call.IsPlain (r : Registry) : Call → Prop
  | create model records => r.hasModel model = true → ∀ record ∈ records,
      (Entries.keys record).Nodup ∧ ∀ e ∈ record, r.hasModel e.1 = true ∨
        ∃ type, Entries.get? (r.attributeTypes model) e.1 = some type ∧ type.Retains e.2
  | delete model where_ | find model where_ =>
    AsksPlainly (r.attributeTypes model) (filterValue where_)
  | update model spec where_ => AsksPlainly (r.attributeTypes model) (filterValue where_) ∧
      ∀ e ∈ spec, ∀ type, Entries.get? (r.attributeTypes model) e.1 = some type → type.Gains e.2

/-! ## Represented families -/

/-- Whether sets are sorted, without repetition, and list a family of sets of records. -/
structure Represents (d : Deployment) (sets : Entries (List String)) (F : Family) : Prop where
  sorted : AreSorted sets
  lists : ∀ model, d.registry.hasModel model = true →
    Lists (d.registry.attributeTypes model) (setOf d sets model) (F model)

section

variable {d : Deployment} {sets sets' : Entries (List String)} {F : Family} {model : String}
  {S : Set Entity} {where_ : Option (Entries Value)} {predicate : Predicate}

/-- Empty sets represent empty sets of records. -/
theorem represents_empty (d : Deployment) : Represents d [] fun _ => ∅ :=
  ⟨.empty, fun _ _ => .empty _⟩

/-- A change of one set changes the set of records that it lists. -/
theorem Represents.change (h : Represents d sets F) (hsorted : AreSorted sets')
    (hothers : ∀ key, key ≠ setKey d model → Entries.get? sets' key = Entries.get? sets key)
    (hlists : Lists (d.registry.attributeTypes model) (setOf d sets' model) S) :
    Represents d sets' (Function.update F model S) where
  sorted := hsorted
  lists name hname := by
    by_cases heq : name = model
    · subst heq
      rwa [Function.update_self]
    · rw [Function.update_of_ne heq, setOf, hothers _ fun hkey => heq (setKey_inj.mp hkey)]
      exact h.lists name hname

/-- Members that are added list a union. -/
theorem Represents.add (h : Represents d sets F) (hm : d.registry.hasModel model = true)
    {members : List String} (hlists : Lists (d.registry.attributeTypes model) members S) :
    Represents d (added sets (setKey d model) members) (Function.update F model (F model ∪ S)) := by
  refine h.change (h.sorted.added _ _) (fun key hkey => get?_added_of_ne _ _ hkey) ?_
  refine ((h.lists model hm).union hlists).of_mem_iff fun raw => ?_
  rw [setOf, mem_added, List.mem_append, eq_self, true_and]
  rfl

/-- Members that are removed leave a difference. -/
theorem Represents.remove (h : Represents d sets F) (hm : d.registry.hasModel model = true)
    {members : List String} (hlists : Lists (d.registry.attributeTypes model) members S) :
    Represents d (removed sets (setKey d model) members) (Function.update F model (F model \ S)) := by
  refine h.change (h.sorted.removed _ _) (fun key hkey => get?_removed_of_ne _ _ hkey) ?_
  refine ((h.lists model hm).diff hlists).of_mem_iff fun raw => ?_
  rw [setOf, mem_removed, List.mem_filter, eq_self, true_and, Bool.not_eq_true',
    ← Bool.not_eq_true, List.contains_iff_mem]
  rfl

/-- If what was found is removed, what was found is taken away. -/
theorem Represents.remove_found (h : Represents d sets F) (hm : d.registry.hasModel model = true)
    {found : List (String × Record)} (hfinds : Finds (d.registry.attributeTypes model) found S) :
    Represents d (if found.isEmpty then sets
      else removed sets (setKey d model) (found.map (·.1))) (Function.update F model (F model \ S)) := by
  split_ifs with hempty
  · rw [hfinds.eq_empty hempty, Set.sdiff_empty, Function.update_eq_self]
    exact h
  · exact h.remove hm hfinds.lists

/-- If what was found is replaced, it is taken away and its images are added. -/
theorem Represents.replace_found (h : Represents d sets F) (hm : d.registry.hasModel model = true)
    {found : List (String × Record)} (hfinds : Finds (d.registry.attributeTypes model) found S)
    {spec : Entries Value} {members : List String}
    (hlists : Lists (d.registry.attributeTypes model) members
      (images spec (d.registry.attributeTypes model) S)) :
    Represents d (if found.isEmpty then sets
      else added (removed sets (setKey d model) (found.map (·.1))) (setKey d model) members)
      (Function.update F model (F model \ S ∪ images spec (d.registry.attributeTypes model) S)) := by
  split_ifs with hempty
  · rw [hfinds.eq_empty hempty, images_empty, Set.sdiff_empty, Set.union_empty,
      Function.update_eq_self]
    exact h
  · have hreplaced := (h.remove hm hfinds.lists).add hm hlists
    rwa [Function.update_idem, Function.update_self] at hreplaced

/-! ## Searching -/

/-- A filter with plain operands has a mistake, or is a predicate that answers for plain records. -/
theorem read_cases {r : Registry}
    (h : AsksPlainly (r.attributeTypes model) (filterValue where_)) :
    (∃ e, readFilter r model (filterValue where_) = .error (.filter e)) ∨
      ∃ predicate, readFilter r model (filterValue where_) = .ok predicate ∧
        ∀ x, IsPlain (r.attributeTypes model) x → ∃ b, predicate x = .ok b := by
  have hread := h.read
  rw [readFilter, filterValue]
  cases hcase : (Predicate.ofFilter ((where_.map Value.map).getD .null)
      (some (r.attributeTypes model))).run.2 with
  | ok predicate =>
    rw [hcase] at hread
    exact .inr ⟨predicate, rfl, hread⟩
  | error fault =>
    rw [hcase] at hread
    obtain ⟨e, rfl⟩ := hread
    exact .inl ⟨e, rfl⟩

/-- A search by a plain filter finds the records that satisfy it, each once. -/
theorem matching_finds (h : Represents d sets F) (hm : d.registry.hasModel model = true)
    (hread : readFilter d.registry model (filterValue where_) = .ok predicate)
    (hanswers : ∀ x, IsPlain (d.registry.attributeTypes model) x → ∃ b, predicate x = .ok b)
    (primary : Primary.Database × List (Option Bool)) :
    ∃ found, Finds (d.registry.attributeTypes model) found (satisfying predicate (F model)) ∧
      ∀ ref, (matching d ref model (filterValue where_)).Leads (Stores.Stands d sets primary)
        (.ok (some found)) (Stores.Stands d sets primary) := by
  have hlists := h.lists model hm
  set types := d.registry.attributeTypes model
  have hmembers : ∀ raw ∈ setOf d sets model, decode raw types = .ok (decode raw types).get ∧
      Spells types raw (entityOf (decode raw types).get) ∧
      predicate (decode raw types).get = .ok (predicate (decode raw types).get).get := by
    intro raw hraw
    obtain ⟨e, _, hspells⟩ := hlists.sound raw hraw
    obtain ⟨x, hx, hplain, rfl⟩ := hspells.exists_decode
    obtain ⟨b, hb⟩ := hanswers x hplain
    rw [hx, Outcome.get, hb]
    exact ⟨rfl, hspells, rfl⟩
  have hmap : ∀ raws : List String,
      (raws.map fun raw => (raw, (decode raw types).get)).map (·.1) = raws := by
    intro raws
    rw [List.map_map]
    exact List.map_id raws
  refine ⟨_, ⟨?_, ?_, ?_⟩, fun ref => Leads.bind (predicateOf_leads_of_read hread)
    (@scan_leads d ref sets primary predicate model (setOf d sets model) rfl
      (fun raw => (decode raw types).get) (fun x => (predicate x).get)
      fun raw hraw => ⟨(hmembers raw hraw).1, (hmembers raw hraw).2.2⟩)⟩
  · rw [hmap]
    exact @Lists.satisfying types _ _ hlists _ _ hread _ (fun x => (predicate x).get)
      fun raw hraw => (hmembers raw hraw).2
  · rw [hmap]
    exact (h.sorted.nodup _).filter _
  · intro p hp
    obtain ⟨raw, hraw, rfl⟩ := List.mem_map.mp hp
    exact (hmembers raw (List.mem_filter.mp hraw).1).2.1

/-! ## One call -/

/-- Whether a call does what it means: it answers so, leaves sets that represent the family after it,
and changes no set but the one of its model. -/
def Call.Refines (d : Deployment) (sets : Entries (List String)) (F : Family) (call : Call) : Prop :=
  ∀ given primary, ∃ reply sets' F',
    (call.perform d given).Leads (Stores.Stands d sets primary) reply (Stores.Stands d sets' primary) ∧
      call.Means d.registry F reply F' ∧ Represents d sets' F' ∧
      ∀ key, key ≠ setKey d call.model → Entries.get? sets' key = Entries.get? sets key

/-- A call that changes nothing does what it means if it answers so. -/
theorem Call.Refines.of_unchanged {call : Call} {reply : Outcome Reply} (h : Represents d sets F)
    (hleads : ∀ given (P : Stores → Prop), (call.perform d given).Leads P reply P)
    (hmeans : call.Means d.registry F reply F) : call.Refines d sets F :=
  fun given _ => ⟨reply, sets, F, hleads given _, hmeans, h, fun _ _ => rfl⟩

/-- A call for a model that is not registered is refused. -/
theorem refines_of_unknown {call : Call} (h : Represents d sets F)
    (hm : d.registry.hasModel call.model = false) : call.Refines d sets F := by
  refine .of_unchanged h (fun given P => ?_) (.refused (.unknownModel hm))
  obtain ⟨hcreate, hdelete, hupdate, hfind⟩ := unknown_leads hm given P
  cases call with
  | create => exact Leads.bind (hcreate _) (Leads.pure _ P)
  | delete => exact Leads.bind (hdelete _) (Leads.pure _ P)
  | update => exact Leads.bind (hupdate _ _) (Leads.pure _ P)
  | find => exact Leads.bind (hfind _ _) (Leads.pure _ P)

/-- Created records are added to the set of their model. -/
theorem create_refines (hr : d.registry.NamesApart) (h : Represents d sets F)
    (hm : d.registry.hasModel model = true) {records : List Record}
    (hplain : (Call.create model records).IsPlain d.registry) :
    (Call.create model records).Refines d sets F := by
  intro given primary
  by_cases hrecords : records = []
  · subst hrecords
    exact ⟨_, sets, F, Leads.bind (create_nothing_leads hm given rfl _) (Leads.pure _ _),
      .createNothing hm, h, fun _ _ => rfl⟩
  · have hown : records.map d.registry.ownFields =
        records.map (attributeFields (d.registry.attributeTypes model)) :=
      List.map_congr_left fun record hrecord => hr.ownFields_eq fun e he =>
        ((hplain hm record hrecord).2 e he).imp id fun ⟨type, htype, _⟩ => ⟨type, htype⟩
    have hfields : ∀ x ∈ records.map (attributeFields (d.registry.attributeTypes model)),
        IsPlain (d.registry.attributeTypes model) x := by
      intro x hx
      obtain ⟨record, hrecord, rfl⟩ := List.mem_map.mp hx
      obtain ⟨hkeys, hretains⟩ := hplain hm record hrecord
      exact isPlain_attributeFields hr hkeys hretains
    obtain ⟨members, hmembers, hlists⟩ := Lists.exists_mapM hfields
    have hmembersOf : membersOf d.registry.modelNames (.list (records.map .map)) = .ok members := by
      rw [membersOf, Value.items, Outcome.ok_bind, List.mapM_map]
      exact (mapM_memberOf d.registry records).trans (hown ▸ hmembers)
    have htruthy : (Value.list (records.map .map)).isTruthy = true := by
      cases records with
      | nil => exact absurd rfl hrecords
      | cons => rfl
    exact ⟨_, _, _, Leads.bind (create_leads hm given htruthy hmembersOf) (Leads.pure _ _),
      .create hm hrecords, h.add hm hlists, fun key hkey => get?_added_of_ne _ _ hkey⟩

/-- Deleted records are removed from the set of their model. -/
theorem delete_refines (h : Represents d sets F) (hm : d.registry.hasModel model = true)
    (hplain : (Call.delete model where_).IsPlain d.registry) :
    (Call.delete model where_).Refines d sets F := by
  rcases read_cases hplain with ⟨e, he⟩ | ⟨predicate, hread, hanswers⟩
  · exact .of_unchanged h (fun given P => Leads.bind
      (mistaken_leads (fun ref => matching_mistaken_leads he) hm given).1 (Leads.pure _ P))
      (.refused (.mistakenFilter rfl he))
  · intro given primary
    obtain ⟨found, hfinds, hfound⟩ := matching_finds h hm hread hanswers primary
    have hb : (!found.isEmpty) = true ↔ (satisfying predicate (F model)).Nonempty := by
      rw [hfinds.nonempty_iff, Bool.not_eq_true', List.isEmpty_eq_false_iff]
    refine ⟨_, _, _, Leads.bind (delete_leads hm given hfound) (Leads.pure _ _),
      .delete hm hread hb, h.remove_found hm hfinds, fun key hkey => ?_⟩
    split_ifs
    · rfl
    · exact get?_removed_of_ne _ _ hkey

/-- The members of updated plain records. -/
theorem updatedMembers_eq (hr : d.registry.NamesApart) {spec : Entries Value}
    {records updated : List Record} {members : List String}
    (hrevise : records.mapM (fun x => revise spec x (d.registry.attributeTypes model)) = .ok updated)
    (hplain : ∀ y ∈ updated, IsPlain (d.registry.attributeTypes model) y)
    (hmembers : updated.mapM encode = .ok members) :
    updatedMembers d model (.map spec) records = .ok members := by
  have hown : updated.map d.registry.ownFields = updated :=
    (List.map_congr_left fun y hy => hr.ownFields_of_isPlain (hplain y hy)).trans (List.map_id _)
  rw [updatedMembers, Value.entries, Outcome.ok_bind, hrevise, Outcome.ok_bind, mapM_memberOf, hown,
    hmembers]

/-- Records that were found are replaced by their images, unless the update of one fails. -/
theorem update_found_refines (hr : d.registry.NamesApart) (h : Represents d sets F)
    (hm : d.registry.hasModel model = true) {spec : Entries Value}
    (hknown : ∀ field ∈ Entries.keys spec,
      Entries.has (d.registry.attributeTypes model) field = true)
    (hspec : SetsPlainly (d.registry.attributeTypes model) spec)
    (hread : readFilter d.registry model (filterValue where_) = .ok predicate)
    (hanswers : ∀ x, IsPlain (d.registry.attributeTypes model) x → ∃ b, predicate x = .ok b) :
    (Call.update model spec where_).Refines d sets F := by
  intro given primary
  have hfields : updatedFields (.map spec) = .ok (Entries.keys spec) := updatedFields_map spec
  obtain ⟨found, hfinds, hfound⟩ := matching_finds h hm hread hanswers primary
  cases hrevise : (found.map (·.2)).mapM
      (fun x => revise spec x (d.registry.attributeTypes model)) with
  | ok updated =>
    obtain ⟨hupdated, himages⟩ := entitiesOf_updated hspec hfinds.isPlain hrevise
    obtain ⟨members, hmembers, hlists⟩ := Lists.exists_mapM hupdated
    have hall := exists_image hspec hfinds.isPlain hrevise
    rw [hfinds.entitiesOf_eq] at himages hall
    rw [himages] at hlists
    refine ⟨_, _, _, Leads.bind (update_leads hm given hfields hknown hfound
      (updatedMembers_eq hr hrevise hupdated hmembers)) (Leads.pure _ _),
      .update hm hknown hread hfinds.encard_eq hall, h.replace_found hm hfinds hlists,
      fun key hkey => ?_⟩
    split_ifs
    · rfl
    · exact (get?_added_of_ne _ _ hkey).trans (get?_removed_of_ne _ _ hkey)
  | error fault =>
    obtain ⟨x, hx, hfault⟩ := Outcome.exists_error_of_mapM hrevise
    have hmem : entityOf x ∈ satisfying predicate (F model) := by
      rw [← hfinds.entitiesOf_eq]
      exact ⟨x, hx, rfl⟩
    have hfailed : updatedMembers d model (.map spec) (found.map (·.2)) = .error fault := by
      rw [updatedMembers, Value.entries, Outcome.ok_bind, hrevise, Outcome.error_bind]
    exact ⟨_, sets, F, Leads.bind_pure (update_failed_leads hm given hfields hknown hfound hfailed
      (hfinds.nonempty_iff.mp ⟨_, hmem⟩)), .updateFails hm hknown hread hmem hfault, h,
      fun _ _ => rfl⟩

/-- Updated records are replaced by their images. -/
theorem update_refines (hr : d.registry.NamesApart) (h : Represents d sets F)
    (hm : d.registry.hasModel model = true) {spec : Entries Value}
    (hplain : (Call.update model spec where_).IsPlain d.registry) :
    (Call.update model spec where_).Refines d sets F := by
  obtain ⟨hasks, hgains⟩ := hplain
  have hfields : updatedFields (.map spec) = .ok (Entries.keys spec) := updatedFields_map spec
  by_cases hknown : ∀ field ∈ Entries.keys spec,
      Entries.has (d.registry.attributeTypes model) field = true
  · have hspec : SetsPlainly (d.registry.attributeTypes model) spec := by
      intro e he
      obtain ⟨type, htype⟩ :=
        Entries.exists_get? (Entries.has_iff.mp (hknown e.1 (Entries.mem_keys_of_mem he)))
      exact ⟨type, htype, hgains e he type htype⟩
    rcases read_cases hasks with ⟨e, he⟩ | ⟨predicate, hread, hanswers⟩
    · exact .of_unchanged h (fun given P => Leads.bind
        (update_mistaken_leads hm given hfields hknown fun ref => matching_mistaken_leads he)
        (Leads.pure _ P)) (.refused (.mistakenFilter rfl he))
    · exact update_found_refines hr h hm hknown hspec hread hanswers
  · push Not at hknown
    obtain ⟨field, hfield, hunknown⟩ := hknown
    exact .of_unchanged h (fun given P => Leads.bind
      (update_unknown_leads hm given hfields hfield (Bool.eq_false_iff.mpr hunknown) P) (Leads.pure _ P))
      (.refused (.unknownField hfield (Bool.eq_false_iff.mpr hunknown)))

/-- Found records are those of the set that satisfy the filter. -/
theorem find_refines (h : Represents d sets F) (hm : d.registry.hasModel model = true)
    (hplain : (Call.find model where_).IsPlain d.registry) :
    (Call.find model where_).Refines d sets F := by
  rcases read_cases hplain with ⟨e, he⟩ | ⟨predicate, hread, hanswers⟩
  · exact .of_unchanged h (fun given P => Leads.bind
      ((mistaken_leads (fun ref => matching_mistaken_leads he) hm given).2 []) (Leads.pure _ P))
      (.refused (.mistakenFilter rfl he))
  · intro given primary
    obtain ⟨found, hfinds, hfound⟩ := matching_finds h hm hread hanswers primary
    have hleads : (Cache.find d given model (filterValue where_) []).Leads
        (Stores.Stands d sets primary) (.ok (some (found.map (·.2)))) (Stores.Stands d sets primary) :=
      Leads.inScope fun ref => Leads.bind (Leads.knows hm ref component _)
        (Leads.bind (hfound ref) (Leads.pure _ _))
    exact ⟨_, _, _, Leads.bind hleads (Leads.pure _ _),
      .find hm hread hfinds.nodup_entities hfinds.entitiesOf_eq, h, fun _ _ => rfl⟩

/-- A plain call does what it means. -/
theorem Call.refines (hr : d.registry.NamesApart) (h : Represents d sets F) {call : Call}
    (hplain : call.IsPlain d.registry) : call.Refines d sets F := by
  by_cases hm : d.registry.hasModel call.model = true
  · cases call with
    | create => exact create_refines hr h hm hplain
    | delete => exact delete_refines h hm hplain
    | update => exact update_refines hr h hm hplain
    | find => exact find_refines h hm hplain
  · exact refines_of_unknown h (Bool.eq_false_iff.mpr hm)

end

end Cache

end TwinStore
