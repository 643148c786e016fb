import TwinStore.Proofs.Entries
import TwinStore.Proofs.WholeRows
import TwinStore.Twin.Reading

/-!
# Rows with rows in them

What an answer of the primary store holds under the names of models are lists of records, level by
level, where no attribute is named like a model.  So its records can be walked down along any plans,
and those that count can be written into the cache.  They come in groups, several of which may belong to
one model; the groups of a model are put together before they are written.

Main definitions:

- `IsNested`: records with lists of such records under the names of models.
- `IsHereditary`: properties that records keep when such records are attached to them.
- `writeGroups`: writes groups of records into the sets of their models.

Main results:

- Theorem `mem_byModel`: what is put together under a model is what its groups hold.
- Theorem `IsHereditary.selectWith`: the records of an answer of the primary store have every hereditary
  property.
- Theorem `isHereditary_isNested`: such records are nested.
- Theorem `refill_eq`: what is written of a nested answer are its records and the related ones.
-/

namespace TwinStore.Twin

/-! ## Groups of one model -/

variable {α : Type} {rows : List (String × List α)} {groups : Entries (List α)} {name : String}
  {record : α}

/-- The groups with one more, put together with what is there. -/
def addGroup (groups : Entries (List α)) (group : String × List α) : Entries (List α) :=
  Entries.set groups group.1 ((Entries.get? groups group.1).getD [] ++ group.2)

/-- A group is put together with what is there. -/
theorem mem_get?_addGroup {group : String × List α} :
    record ∈ (Entries.get? (addGroup groups group) name).getD [] ↔
      record ∈ (Entries.get? groups name).getD [] ∨ group.1 = name ∧ record ∈ group.2 := by
  rw [addGroup]
  by_cases hname : name = group.1
  · subst hname
    rw [Entries.get?_set_self, Option.getD_some, List.mem_append]
    simp
  · rw [Entries.get?_set_of_ne _ _ hname]
    simp [Ne.symm hname]

/-- What is put together under a model is what its groups hold. -/
theorem mem_get?_byModel : record ∈ (Entries.get? (byModel rows) name).getD [] ↔
    ∃ group ∈ rows, group.1 = name ∧ record ∈ group.2 := by
  suffices h : ∀ groups : Entries (List α),
      record ∈ (Entries.get? (rows.foldl addGroup groups) name).getD [] ↔ record ∈ (Entries.get? groups name).getD [] ∨
            ∃ group ∈ rows, group.1 = name ∧ record ∈ group.2 by
    refine (h []).trans (or_iff_right ?_)
    exact List.not_mem_nil
  intro groups
  induction rows generalizing groups with
  | nil => simp
  | cons group rows ih =>
    rw [List.foldl_cons, ih, mem_get?_addGroup, or_assoc]
    simp only [List.exists_mem_cons_iff]

/-- No model has two groups in the end. -/
theorem nodup_keys_byModel (rows : List (String × List α)) :
    (Entries.keys (byModel rows)).Nodup := by
  suffices h : ∀ groups : Entries (List α), (Entries.keys groups).Nodup →
      (Entries.keys (rows.foldl addGroup groups)).Nodup from h [] List.nodup_nil
  induction rows with
  | nil => exact fun _ => id
  | cons group rows ih => exact fun groups h => ih _ (Entries.nodup_keys_set h _ _)

/-- What is put together under a model is what its groups hold. -/
theorem mem_byModel {group : String × List α} (hgroup : group ∈ byModel rows)
    (hrecord : record ∈ group.2) : ∃ g ∈ rows, g.1 = group.1 ∧ record ∈ g.2 := by
  have hget := Entries.get?_of_mem (nodup_keys_byModel rows) hgroup
  refine mem_get?_byModel.mp ?_
  rwa [hget]

end TwinStore.Twin

namespace TwinStore

open Include Primary Twin

variable {φ : Type} {r : Registry} {record : Record} {name : String}

/-! ## Nested records -/

/-- Whether what stands in a record under the names of models are lists of such records. -/
inductive IsNested (r : Registry) : Record → Prop
  | intro {record : Record} (lists : ∀ name, r.hasModel name = true →
      itemsUnder name (.map record) = .ok ((attached record name).map .map))
    (below : ∀ name, r.hasModel name = true → ∀ child ∈ attached record name, IsNested r child) :
    IsNested r record

namespace IsNested

theorem lists (h : IsNested r record) (hname : r.hasModel name = true) :
    itemsUnder name (.map record) = .ok ((attached record name).map .map) := by
  cases h with
  | intro lists _ => exact lists name hname

theorem inner (h : IsNested r record) (hname : r.hasModel name = true) :
    ∀ child ∈ attached record name, IsNested r child := by
  cases h with
  | intro _ below => exact below name hname

/-- What stands under a name decides what is attached there. -/
theorem of_get? (h : ∀ name, r.hasModel name = true → ∃ record', IsNested r record' ∧
    Entries.get? record name = Entries.get? record' name) : IsNested r record := by
  refine .intro (fun name hname => ?_) fun name hname child hchild => ?_
  · obtain ⟨record', hnested, heq⟩ := h name hname
    have hlists := hnested.lists hname
    simp only [itemsUnder, Value.entries, Outcome.ok_bind, attached, Record.field, ← heq] at hlists ⊢
    exact hlists
  · obtain ⟨record', hnested, heq⟩ := h name hname
    refine hnested.inner hname child ?_
    rwa [attached, Record.field, heq] at hchild

/-- Nothing stands in a record under the name of a model that is no key of it. -/
theorem of_keys (h : ∀ key ∈ Entries.keys record, r.hasModel key = false) : IsNested r record := by
  refine of_get? fun name hname => ⟨[], .intro (fun _ _ => rfl) fun _ _ _ => nofun, ?_⟩
  refine Entries.get?_eq_none_iff.mpr fun hmem => ?_
  rw [h name hmem] at hname
  cases hname

/-- A projection keeps what stands under the names of models. -/
theorem project (h : IsNested r record) (wanted : Option (List String)) :
    IsNested r (record.project wanted r.modelNames) := by
  cases wanted with
  | none => exact h
  | some names =>
    refine of_get? fun name hname => ⟨record, h, ?_⟩
    have hfield := Entries.get?_filter (fun k => names.contains k || r.modelNames.contains k) record name
    rw [Registry.contains_modelNames, hname, Bool.or_true, if_pos rfl] at hfield
    exact hfield

/-- Nested records may be attached to a nested record. -/
theorem set (h : IsNested r record) {related : List Record}
    (hrelated : ∀ child ∈ related, IsNested r child) :
    IsNested r (Entries.set record name (.list (related.map .map))) := by
  refine .intro (fun name' hname' => ?_) fun name' hname' child hchild => ?_
  · by_cases heq : name' = name
    · subst heq
      rw [attached_set_self]
      simp only [itemsUnder, Value.entries, Outcome.ok_bind, Entries.get?_set_self]
      rfl
    · have hlists := h.lists hname'
      rw [attached_set_of_ne record _ heq]
      simp only [itemsUnder, Value.entries, Outcome.ok_bind, Entries.get?_set_of_ne _ _ heq] at hlists ⊢
      exact hlists
  · by_cases heq : name' = name
    · subst heq
      rw [attached_set_self] at hchild
      exact hrelated child hchild
    · rw [attached_set_of_ne record _ heq] at hchild
      exact h.inner hname' child hchild

end IsNested

/-! ## Answers of the primary store -/

/-- Whether a property of records holds of what a database selects, of records with fewer fields, and of
records under which such records are attached. -/
structure IsHereditary (r : Registry) (db : Database) (P : Record → Prop) : Prop where
  selected : ∀ {name m clause records}, r.table name = .ok m → db.select m clause = .ok records →
    ∀ record ∈ records, P record
  project : ∀ {record}, P record → ∀ wanted, P (record.project wanted r.modelNames)
  set : ∀ {record name}, r.hasModel name = true → P record → ∀ {related : List Record},
    (∀ child ∈ related, P child) → P (Entries.set record name (.list (related.map .map)))

namespace IsHereditary

variable {db : Database} {m : Model} {P : Record → Prop}

theorem keptAll (hP : IsHereditary r db P) (hm : r.table name = .ok m)
    {clause : Filter.Clause Filter.Comparison} {records : List Record}
    (h : db.select m clause = .ok records) : ∀ e ∈ keptAll records, P e.1 := by
  intro e he
  obtain ⟨record, hrecord, rfl⟩ := List.mem_map.mp he
  exact hP.selected hm h record hrecord

mutual

/-- A plan attaches records with the property. -/
theorem attachPlan (hP : IsHereditary r db P) : ∀ (plan : ClausePlan), IsBound r plan →
    ∀ {entries out : List (Record × Bool)}, (∀ e ∈ entries, P e.1) →
    attachPlan r db plan entries = .ok out → ∀ e ∈ out, P e.1
  | .node _ _ _ _ none _, _, _, _, hentries, h => by
    rw [Primary.attachPlan] at h
    exact Except.ok.inj h ▸ hentries
  | .node model required attributes where_ (some relation) children, ⟨_, hmodel, hbound⟩, entries,
      out, hentries, h => by
    obtain ⟨found, shown, rfl, hshown, hfound⟩ := exists_found h
    have hbelow : ∀ c ∈ found, P c := by
      intro c hc
      rcases hfound with rfl | ⟨m, clause, records, entries', hm, hselect, hattach, rfl⟩
      · cases hc
      · obtain ⟨e, he, rfl⟩ := List.mem_map.mp hc
        exact attachPlans hP children hbound (hP.keptAll hm hselect) hattach e (List.mem_filter.mp he).1
    have hprojected : ∀ p ∈ shown, P p.2 := by
      intro p hp
      obtain ⟨c, hc, heq⟩ := Outcome.exists_of_mem_mapM hshown hp
      obtain ⟨_, _, heq⟩ := Outcome.bind_eq_ok.mp heq
      obtain rfl := Except.ok.inj heq
      exact hP.project (hbelow c hc) attributes
    intro e he
    obtain ⟨entry, hentry, rfl⟩ := List.mem_map.mp he
    have hrelated : ∀ child ∈ (shown.filter fun p => !(entry.1.field relation.thisKey).isNull &&
        Value.equal? p.1 (entry.1.field relation.thisKey) == some true).map (·.2), P child := by
      intro child hchild
      obtain ⟨p, hp, rfl⟩ := List.mem_map.mp hchild
      exact hprojected p (List.mem_filter.mp hp).1
    have hset := hP.set hmodel (hentries entry hentry) hrelated
    rw [List.map_map] at hset
    exact hset

/-- Plans attach records with the property. -/
theorem attachPlans (hP : IsHereditary r db P) : ∀ (plans : List ClausePlan), AreBound r plans →
    ∀ {entries out : List (Record × Bool)}, (∀ e ∈ entries, P e.1) →
    attachPlans r db plans entries = .ok out → ∀ e ∈ out, P e.1
  | [], _, _, _, hentries, h => by
    rw [Primary.attachPlans] at h
    exact Except.ok.inj h ▸ hentries
  | plan :: rest, ⟨hplan, hrest⟩, _, _, hentries, h => by
    rw [Primary.attachPlans] at h
    obtain ⟨mid, hmid, h⟩ := Outcome.bind_eq_ok.mp h
    exact attachPlans hP rest hrest (attachPlan hP plan hplan hentries hmid) h

end

/-- The records of a selection have the property. -/
theorem selectWith (hP : IsHereditary r db P) (hm : r.table name = .ok m)
    {clause : Filter.Clause Filter.Comparison} {plans : List ClausePlan} (hplans : AreBound r plans)
    {records : List Record} (h : selectWith r db m clause plans = .ok records) :
    ∀ record ∈ records, P record := by
  rw [Primary.selectWith] at h
  obtain ⟨selected, hselect, h⟩ := Outcome.bind_eq_ok.mp h
  obtain ⟨entries, hattach, h⟩ := Outcome.bind_eq_ok.mp h
  obtain rfl := Except.ok.inj h
  intro record hrecord
  obtain ⟨e, he, rfl⟩ := List.mem_map.mp hrecord
  exact hP.attachPlans plans hplans (hP.keptAll hm hselect) hattach e (List.mem_filter.mp he).1

end IsHereditary

/-- Answers of the primary store are nested. -/
theorem isHereditary_isNested (hr : r.NamesApart) (db : Database) :
    IsHereditary r db (IsNested r) where
  selected := by
    intro name m clause records hm h record hrecord
    obtain ⟨_, _, h⟩ := Outcome.bind_eq_ok.mp h
    obtain ⟨row, _, hrow⟩ := Outcome.exists_of_mem_mapM h hrecord
    refine IsNested.of_keys fun key hkey => ?_
    rw [Registry.keys_of_recordOf hrow] at hkey
    obtain ⟨a, ha, rfl⟩ := List.mem_map.mp hkey
    exact hr name m (Registry.model?_of_table hm) a ha
  project h := h.project
  set _ h _ hrelated := h.set hrelated

/-! ## Rows and records -/

namespace Twin

/-- A group of records as a group of rows. -/
def rowsOf (group : String × List Record) : String × List Value := (group.1, group.2.map .map)

mutual

/-- What stands in nested records under the name of a plan are the related records. -/
theorem includedRows_eq : ∀ (plan : Plan φ) {rows : List Record}, IsBound r plan →
    (∀ row ∈ rows, IsNested r row) →
    includedRows (rows.map .map) plan = .ok ((relatedRows rows plan).map rowsOf)
  | .node model required attributes where_ relation children, rows, hbound, hrows => by
    have hitems : (rows.map Value.map).mapM (itemsUnder model) =
        .ok (rows.map fun row => (attached row model).map Value.map) := by
      have hall := Outcome.mapM_eq_ok (f := itemsUnder model ∘ Value.map)
        (g := fun row => (attached row model).map Value.map) fun row hrow =>
          (hrows row hrow).lists hbound.2.1
      rwa [List.mapM_map]
    have hfound : (rows.map fun row => (attached row model).map Value.map).flatten =
        (rows.flatMap (attached · model)).map Value.map := by
      rw [List.map_flatMap, List.flatMap_def]
    have hbelow := @includedRowsOf_eq children (rows.flatMap (attached · model)) hbound.2.2
      fun child hchild => by
        obtain ⟨row, hrow, hmem⟩ := List.mem_flatMap.mp hchild
        exact (hrows row hrow).inner hbound.2.1 child hmem
    rw [includedRows, hitems, Outcome.ok_bind]
    simp only [hfound]
    rw [hbelow, Outcome.ok_bind, relatedRows, List.map_append]
    cases attributes <;> rfl

/-- What stands in nested records under the names of plans are the related records. -/
theorem includedRowsOf_eq : ∀ (plans : List (Plan φ)) {rows : List Record}, AreBound r plans →
    (∀ row ∈ rows, IsNested r row) →
    includedRowsOf (rows.map .map) plans = .ok ((relatedRowsOf rows plans).map rowsOf)
  | [], _, _, _ => by
    rw [includedRowsOf, relatedRowsOf]
    rfl
  | plan :: rest, rows, hbound, hrows => by
    rw [includedRowsOf, includedRows_eq plan hbound.1 hrows, includedRowsOf_eq rest hbound.2 hrows,
      relatedRowsOf, List.map_append]
    rfl

end

/-- A group of rows is put together with what is there as a group of records is. -/
theorem addGroup_rowsOf (groups : Entries (List Record)) (group : String × List Record) :
    addGroup (groups.map rowsOf) (rowsOf group) = (addGroup groups group).map rowsOf := by
  have hget : Entries.get? (groups.map rowsOf) group.1 = _ :=
    Entries.get?_map (List.map Value.map) groups group.1
  have hgroup : (Entries.get? (groups.map rowsOf) group.1).getD [] ++ group.2.map Value.map =
      ((Entries.get? groups group.1).getD [] ++ group.2).map Value.map := by
    rw [hget, List.map_append]
    cases Entries.get? groups group.1 <;> rfl
  show Entries.set (groups.map rowsOf) group.1
    ((Entries.get? (groups.map rowsOf) group.1).getD [] ++ group.2.map Value.map) = _
  rw [hgroup]
  exact Entries.set_map (List.map Value.map) groups group.1 _

/-- Groups of rows are put together as groups of records are. -/
theorem byModel_rowsOf (groups : List (String × List Record)) :
    byModel (groups.map rowsOf) = (byModel groups).map rowsOf := by
  suffices h : ∀ done : Entries (List Record),
      (groups.map rowsOf).foldl addGroup (done.map rowsOf) = (groups.foldl addGroup done).map rowsOf from
    h []
  induction groups with
  | nil => exact fun _ => rfl
  | cons group groups ih =>
    intro done
    rw [List.map_cons, List.foldl_cons, List.foldl_cons, addGroup_rowsOf, ih]

/-- Writes groups of records into the sets of their models. -/
def writeGroups (d : Deployment) (ref : CorrelationRef) (groups : List (String × List Record)) :
    Action Unit := do
  let _ ← Action.each (fun (name, records) => Cache.create d (some ref) name (asValue records))
    ((byModel groups).filter (!·.2.isEmpty))

/-- Operations for changed things are operations for those things. -/
theorem each_map {α β γ : Type} (f : β → Action γ) (g : α → β) (as : List α) :
    Action.each f (as.map g) = Action.each (fun a => f (g a)) as := by
  induction as with
  | nil => rfl
  | cons a as ih => rw [List.map_cons, Action.each, Action.each, ih]

/-- The groups of rows that an answer and its related records make are groups of records. -/
theorem groups_rowsOf (groups : List (String × List Record)) :
    (byModel (groups.map rowsOf)).filter (fun e => !e.2.isEmpty) =
      ((byModel groups).filter (fun e => !e.2.isEmpty)).map rowsOf := by
  rw [byModel_rowsOf, List.filter_map]
  refine congrArg (List.map rowsOf) (List.filter_congr fun e _ => ?_)
  exact congrArg (!·) List.isEmpty_map

/-- What is written of a nested answer are its records and the related ones. -/
theorem refill_eq {d : Deployment} (ref : CorrelationRef) {model : String} {rows : List Record}
    (hrows : ∀ row ∈ rows, IsNested d.registry row) {plans : List (Plan φ)}
    (hplans : AreBound d.registry plans) :
    refill d ref model rows plans = writeGroups d ref ((model, rows) :: relatedRowsOf rows plans) := by
  have hgroups := groups_rowsOf ((model, rows) :: relatedRowsOf rows plans)
  rw [List.map_cons, rowsOf] at hgroups
  rw [refill, includedRowsOf_eq plans hplans hrows, writeGroups]
  simp only [Action.ofOutcome, pure_bind, hgroups, each_map]
  rfl

end Twin

end TwinStore
