import TwinStore.Proofs.AcceptedFilters
import TwinStore.Proofs.CacheUpdate
import TwinStore.Proofs.ClaimedRecords
import TwinStore.Proofs.CoherentChanges
import TwinStore.Proofs.DeletionTargets
import TwinStore.Proofs.OrderlyCaches
import TwinStore.Proofs.SkippedMembers

/-!
# Records that follow others in memory

A deletion removes the members that belong to deleted records by the keys of these, compared in memory
as the fields that refer to them say.  Whatever the types of the two keys are, a member is removed only
if its record follows one of the deleted records.

Main definitions:

- `Twin.Follows`: whether a record refers to another one in memory.

Main results:

- Theorem `Twin.exists_followed_of_names`: what satisfies a filter for what belongs to some records
  follows one of them.
- Theorem `Cache.exists_delete_leads`: exactly the members that satisfy a filter are removed.
- Theorem `Cache.delete_yields`: a removal by a filter that can be asked removes no other members.
-/

namespace TwinStore

open Filter

/-- What a value is found among contains a value that it equals. -/
theorem Value.exists_equal_of_isMember {v : Value} {ws : List Value} (h : v.isMember? ws = some true) :
    ∃ w ∈ ws, v.equal? w = some true := by
  induction ws with
  | nil => cases h
  | cons w ws ih =>
    rw [isMember?] at h
    split at h
    · obtain ⟨w', hw', hequal⟩ := ih h
      exact ⟨w', List.mem_cons_of_mem w hw', hequal⟩
    · exact ⟨w, List.mem_cons_self, h⟩

namespace Twin

/-- Whether an item follows another one: by a relation that owns it, its field equals the other one's
key when both are compared in memory. -/
def Follows (r : Registry) (owner o : Item) : Prop :=
  ∃ relation type key value, (o.model, relation) ∈ r.relationsOf owner.model ∧
    relation.cascades = true ∧ owner.record.field relation.thisKey ≠ .null ∧
    Entries.get? (r.attributeTypes o.model) relation.otherKey = some type ∧
    comparable (some type) (owner.record.field relation.thisKey) = .ok key ∧
    comparable (some type) (o.record.field relation.otherKey) = .ok value ∧
    value.equal? key = some true

end Twin

namespace Filter

variable {m : Model} {record : Record}

/-- A field that is among some values equals one of them. -/
theorem Check.exists_equal_of_isIn {field : String} {type : AttributeType} {forms : List Value}
    (h : Check.holdsFor ⟨field, some type, .isIn, .list forms⟩ record = .ok true) :
    ∃ value, comparable (some type) (record.field field) = .ok value ∧
      ∃ form ∈ forms, value.equal? form = some true := by
  rw [holdsFor] at h
  split at h
  · next value hvalue =>
    rw [Operator.holds] at h
    split_ifs at h
    · cases h
    · refine ⟨value, hvalue, Value.exists_equal_of_isMember ?_⟩
      unfold Operator.decided at h
      split at h
      · next b hmember => exact hmember.trans (congrArg some (Except.ok.inj h))
      · cases h
  · cases h
  · cases h

/-- A filter for some values of an attribute that can be read asks whether the field is among them. -/
theorem exists_forms_of_among (hm : m.IsProper) {a : Attribute} (ha : a ∈ m.attributes)
    (hname : Text.isIdentifier a.name = true) {keys : List Value} {predicate : Predicate}
    (hpredicate : (Predicate.ofFilter (amongFilter a.name keys) (some m.attributeTypes)).run.2 =
      .ok predicate) :
    ∃ forms, keys.mapM (comparable (some a.type)) = .ok forms ∧ predicate = fun record =>
      (Formula.conj [.leaf ⟨a.name, some a.type, .isIn, .list forms⟩]).holdsFor record := by
  have htype := hm.get?_attributeTypes ha
  have hplain : runFrom ((plainReading m).filter (amongFilter a.name keys)) [] =
      (.ok (.conj [.leaf ⟨a.name, .isIn, .list keys⟩]), []) :=
    runFrom_filter_plain (m := m) [a] (·.name) (fun _ => .map [("$in", .list keys)])
      (fun _ => [(.isIn, .list keys)]) (by simpa using ⟨hname, a.type, htype⟩) fun _ _ => rfl
  obtain ⟨f, hwritten, hcompared⟩ := exists_predicate_iff.mp ⟨predicate, hpredicate⟩
  obtain rfl := hwritten.unique ⟨[], hplain⟩
  obtain ⟨forms, hforms, _⟩ : ∃ forms, keys.mapM (comparable (some a.type)) = .ok forms ∧
      ∀ w ∈ forms, True := by
    refine Outcome.exists_mapM_all fun k hk => ?_
    obtain ⟨w, hw⟩ := hcompared ⟨a.name, .isIn, .list keys⟩ (List.mem_singleton_self _) k hk
    exact ⟨w, htype ▸ hw, trivial⟩
  have hleaf : (recordReading (some m.attributeTypes)).leafOf m ⟨a.name, .isIn, .list keys⟩ =
      .ok ⟨a.name, some a.type, .isIn, .list forms⟩ := by
    simp [Reading.leafOf, recordReading, Operator.takesList, Operator.candidates, htype, hforms]
  have hfilter := Reading.filter_of_plain (knows_recordReading m) hplain fun c hc => by
    obtain rfl := List.mem_singleton.mp hc
    rw [hleaf]
    rfl
  have hrun : (Predicate.ofFilter (amongFilter a.name keys) (some m.attributeTypes)).run.2 = _ :=
    congrArg Prod.fst (runFrom_bind_of_ok hfilter)
  rw [hrun] at hpredicate
  simp only [Formula.map, Formula.mapAll, hleaf, Outcome.get] at hpredicate
  exact ⟨forms, hforms, (Except.ok.inj hpredicate).symm⟩

/-- A record of which a field is among some values has there what equals one of them in memory. -/
theorem exists_equal_of_among (hm : m.IsProper) {a : Attribute} (ha : a ∈ m.attributes)
    (hname : Text.isIdentifier a.name = true) {keys : List Value} {predicate : Predicate}
    (hpredicate : (Predicate.ofFilter (amongFilter a.name keys) (some m.attributeTypes)).run.2 =
      .ok predicate) (htrue : predicate record = .ok true) :
    ∃ k ∈ keys, ∃ key value, comparable (some a.type) k = .ok key ∧
      comparable (some a.type) (record.field a.name) = .ok value ∧ value.equal? key = some true := by
  obtain ⟨forms, hforms, rfl⟩ := exists_forms_of_among hm ha hname hpredicate
  obtain ⟨b, hb, hrest⟩ := Outcome.bind_eq_ok.mp htrue
  cases b with
  | false => cases hrest
  | true =>
    obtain ⟨value, hvalue, form, hform, hequal⟩ := Check.exists_equal_of_isIn hb
    obtain ⟨k, hk, hcompare⟩ := Outcome.exists_of_mem_mapM hforms hform
    exact ⟨k, hk, form, value, hcompare, hvalue, hequal⟩

end Filter

/-! ## Values that can be compared -/

section

variable {type : AttributeType} {v : Value}

/-- The form in which a value of an exact type compares is quiet. -/
theorem AttributeType.Admits.isQuiet_measure (h : type.Admits v) : v.measure.IsQuiet := by
  rcases h with rfl | h
  · trivial
  · cases h <;> trivial

/-- An accepted value can be compared. -/
theorem AttributeType.Accepts.isTestable (h : type.Accepts v) : IsTestable type v := by
  obtain ⟨w, hw, hadmits⟩ := h
  rw [IsTestable, comparable_of_coerce hw hadmits]
  exact hadmits.isQuiet_measure

/-- A value of an exact type is ordinary. -/
theorem AttributeType.Admits.isOrdinary (h : type.Admits v) : v.IsOrdinary := by
  rcases h with rfl | h
  · trivial
  · cases h with
    | @datetime t _ hnaive => exact ⟨t, by simp [Calendar.DateTime.toUniversal?, hnaive]⟩
    | _ => trivial

/-- A value of an exact type can be compared with fields of the type. -/
theorem AttributeType.Admits.isAskable (h : type.Admits v) : IsAskable type v := by
  refine ⟨h.accepts.isTestable, fun w hw => ?_⟩
  obtain rfl := Except.ok.inj ((coerce_of_admits h).symm.trans hw)
  rintro n rfl
  rcases h with h | h
  · cases h
  · cases h
    assumption

/-- The operands of an accepted condition are accepted. -/
theorem Filter.Requirement.Suits.accepts {c : Requirement} (h : c.Suits type) :
    ∀ v ∈ c.operands, type.Accepts v := by
  intro v hv
  obtain ⟨field, operator, operand⟩ := c
  cases operator with
  | present => cases hv
  | isIn | notIn => exact h v hv
  | eq =>
    obtain rfl := List.mem_singleton.mp hv
    exact h
  | gt | gte | lt | lte =>
    obtain rfl := List.mem_singleton.mp hv
    exact h.1

/-- An accepted filter answers for every record whose fields can be compared. -/
theorem Filter.Requires.isSure {m : Model} {where_ : Value} {f : Formula Requirement}
    (hf : Requires m where_ f) :
    Predicate.IsSure m.attributeTypes fun record => (checksOf m f).holdsFor record := by
  have hreads : (recordReading (some m.attributeTypes)).Reads (Check.IsSure m.attributeTypes)
      (fun _ => True) f.leaves := by
    refine recordReading_reads (fun _ => trivial) fun c hc type htype v hv => ?_
    obtain ⟨type', htype', _, hsuits⟩ := hf.2 c hc
    obtain rfl := Option.some.inj (htype.symm.trans htype')
    apply (hsuits.accepts v hv).isTestable.imp (fun _ => id)
    exact fun _ _ => trivial
  intro record hrecord
  refine Formula.exists_holdsFor fun check hcheck => ?_
  rw [checksOf, Formula.leaves_map] at hcheck
  obtain ⟨c, hc, rfl⟩ := List.mem_map.mp hcheck
  obtain ⟨type, htype, _⟩ := hf.2 c hc
  have hleaf : (recordReading (some m.attributeTypes)).leaf c =
      (recordReading (some m.attributeTypes)).leafOf m c := by
    rw [Reading.leaf, knows_recordReading m c.field type htype, Reading.leafOf, htype]
    rfl
  have hsure := hreads c hc
  rw [hleaf, hf.canRead_record c hc] at hsure
  have hsure : Check.IsSure m.attributeTypes _ := hsure
  exact hsure.exists_holdsFor (hrecord _)

end

/-! ## Filters for what belongs to some records -/

section

variable {r : Registry} {model target : String} {rows : List Record} {where_ : Value}

/-- What satisfies a filter for what belongs to some records follows one of them. -/
theorem Twin.exists_followed_of_names (hr : r.IsSound) (hnames : Names r model rows target where_)
    {predicate : Predicate}
    (hpredicate : (Predicate.ofFilter where_ (some (r.attributeTypes target))).run.2 = .ok predicate)
    {record : Record} (htrue : predicate record = .ok true) :
    ∃ row ∈ rows, Follows r ⟨model, row⟩ ⟨target, record⟩ := by
  obtain ⟨relation, keys, hrelation, hcascades, rfl, _, hkeys⟩ := hnames
  obtain ⟨_, _, other, _, hother, _, hattribute⟩ := hr.isRelated hrelation
  obtain ⟨b, hb, hname⟩ := List.any_eq_true.mp hattribute
  rw [beq_iff_eq] at hname
  have hproper := hr.isProper hother
  rw [Registry.attributeTypes_of_table (hr.table_eq hother), ← hname] at hpredicate
  obtain ⟨k, hk, key, value, hkey, hvalue, hequal⟩ := exists_equal_of_among hproper hb
    ((hr.isDeclared hother).attributes b hb) hpredicate htrue
  obtain ⟨hnull, row, hrow, rfl⟩ := (hkeys k).mp hk
  refine ⟨row, hrow, relation, b.type, key, value, hrelation, hcascades, hnull, ?_, hkey,
    hname ▸ hvalue, hequal⟩
  rw [Registry.attributeTypes_of_table (hr.table_eq hother), ← hname]
  exact hproper.get?_attributeTypes hb

/-- The filters below records whose keys can be compared can be asked. -/
theorem Twin.asks_of_names (hr : r.IsSound) (hnames : Names r model rows target where_)
    (hrefers : ∀ relation, (target, relation) ∈ r.relationsOf model → relation.cascades = true →
      ∀ type, Entries.get? (r.attributeTypes target) relation.otherKey = some type →
        ∀ row ∈ rows, IsAskable type (row.field relation.thisKey)) :
    Asks (r.attributeTypes target) where_ := by
  obtain ⟨relation, keys, hrelation, hcascades, rfl, _, hkeys⟩ := hnames
  obtain ⟨_, _, other, _, hother, _, hattribute⟩ := hr.isRelated hrelation
  obtain ⟨b, hb, hname⟩ := List.any_eq_true.mp hattribute
  have hidentifier := (hr.isDeclared hother).attributes b hb
  rw [beq_iff_eq.mp hname] at hidentifier
  refine ⟨nofun, fun c hc type htype v hv => ?_⟩
  rw [mentions_amongFilter hidentifier, List.mem_singleton] at hc
  subst hc
  obtain ⟨_, row, hrow, rfl⟩ := (hkeys v).mp hv
  exact hrefers relation hrelation hcascades type htype row hrow

end

/-! ## Removals -/

namespace Cache

open Action

variable {d : Deployment} {model : String} {where_ : Value} {predicate : Predicate}
  {sets : Entries (List String)} {primary : Primary.Database × List (Option Bool)}

/-- An ordinary member is skipped, or tested by a predicate that answers. -/
theorem IsOrdinaryMember.isSettled {types : Entries AttributeType} {raw : String}
    (h : IsOrdinaryMember types raw) (hsure : Predicate.IsSure types predicate) :
    IsSettled types predicate raw := by
  cases hread : decode raw types with
  | ok record =>
    obtain ⟨b, hb⟩ := hsure record (h.fields hread).1
    exact .inr ⟨record, b, hread, hb⟩
  | error fault =>
    rw [IsOrdinaryMember, hread] at h
    exact .inl (isSkipped_iff.mpr ⟨fault, hread, h⟩)

/-- A search that all members get past gives those that satisfy the filter. -/
theorem exists_matching_leads
    (hpredicate : (Predicate.ofFilter where_ (some (d.registry.attributeTypes model))).run.2 =
      .ok predicate)
    (hread : ∀ raw ∈ setOf d sets model, IsSettled (d.registry.attributeTypes model) predicate raw)
    (primary : Primary.Database × List (Option Bool)) :
    ∃ found, (∀ ref, (matching d ref model where_).Leads (Stores.Stands d sets primary)
        (.ok (some found)) (Stores.Stands d sets primary)) ∧
      ∀ raw record, (raw, record) ∈ found ↔ raw ∈ setOf d sets model ∧
        decode raw (d.registry.attributeTypes model) = .ok record ∧ predicate record = .ok true := by
  have hread' : ∀ raw ∈ Server.members { sets } (setKey d model),
      IsSettled (d.registry.attributeTypes model) predicate raw := hread
  refine ⟨_, fun ref => (matching_warns hpredicate hread' ref).leads, fun raw record => ?_⟩
  simp only [List.mem_filterMap, matchedBy_eq_some]
  constructor
  · rintro ⟨_, hraw, rfl, hdecode, htrue⟩
    exact ⟨hraw, hdecode, htrue⟩
  · rintro ⟨hraw, hdecode, htrue⟩
    exact ⟨raw, hraw, rfl, hdecode, htrue⟩

/-- A search without related records that all members get past gives the records that satisfy the
filter. -/
theorem exists_find_leads (hm : d.registry.hasModel model = true)
    (hpredicate : (Predicate.ofFilter where_ (some (d.registry.attributeTypes model))).run.2 =
      .ok predicate)
    (hread : ∀ raw ∈ setOf d sets model, IsSettled (d.registry.attributeTypes model) predicate raw)
    (primary : Primary.Database × List (Option Bool)) :
    ∃ found, (∀ given, (find d given model where_ []).Leads (Stores.Stands d sets primary)
        (.ok (some found)) (Stores.Stands d sets primary)) ∧
      ∀ record, record ∈ found ↔ ∃ raw ∈ setOf d sets model,
        decode raw (d.registry.attributeTypes model) = .ok record ∧ predicate record = .ok true := by
  obtain ⟨found, hleads, hfound⟩ := exists_matching_leads hpredicate hread primary
  refine ⟨found.map (·.2), fun given => Leads.inScope fun ref =>
    Leads.bind (Leads.knows hm ref component _) (Leads.bind (hleads ref) (Leads.pure _ _)),
    fun record => ?_⟩
  simp only [List.mem_map, Prod.exists, exists_eq_right, hfound]

/-- A removal that all members get past tells whether one satisfies the filter, and removes those that
do. -/
theorem exists_delete_leads (hm : d.registry.hasModel model = true) (given : Option CorrelationRef)
    (hpredicate : (Predicate.ofFilter where_ (some (d.registry.attributeTypes model))).run.2 =
      .ok predicate)
    (hread : ∀ raw ∈ setOf d sets model, IsSettled (d.registry.attributeTypes model) predicate raw)
    (primary : Primary.Database × List (Option Bool)) :
    ∃ (answer : Bool) (sets' : Entries (List String)),
      (delete d given model where_).Leads (Stores.Stands d sets primary) (.ok (some answer))
        (Stores.Stands d sets' primary) ∧
      (answer = true ↔ ∃ raw ∈ setOf d sets model, Matches d model where_ raw) ∧
      ∀ name raw, raw ∈ setOf d sets' name ↔
        raw ∈ setOf d sets name ∧ ¬(name = model ∧ Matches d model where_ raw) := by
  obtain ⟨found, hleads, hfound⟩ := exists_matching_leads hpredicate hread primary
  have hmem (raw : String) :
      raw ∈ found.map (·.1) ↔ raw ∈ setOf d sets model ∧ Matches d model where_ raw := by
    rw [List.mem_map]
    constructor
    · rintro ⟨⟨_, record⟩, hmem, rfl⟩
      obtain ⟨hraw, hdecode, htrue⟩ := (hfound _ record).mp hmem
      exact ⟨hraw, predicate, record, hpredicate, hdecode, htrue⟩
    · rintro ⟨hraw, predicate', record, hpredicate', hdecode, htrue⟩
      obtain rfl := Except.ok.inj (hpredicate.symm.trans hpredicate')
      exact ⟨(raw, record), (hfound raw record).mpr ⟨hraw, hdecode, htrue⟩, rfl⟩
  refine ⟨!found.isEmpty, _, delete_leads hm given hleads, ?_, fun name raw => ?_⟩
  · rw [Bool.not_eq_true', List.isEmpty_eq_false_iff_exists_mem]
    constructor
    · rintro ⟨e, he⟩
      exact ⟨e.1, (hmem e.1).mp (List.mem_map_of_mem he)⟩
    · rintro ⟨raw, hraw⟩
      obtain ⟨e, he, _⟩ := List.mem_map.mp ((hmem raw).mpr hraw)
      exact ⟨e, he⟩
  · by_cases hname : name = model
    · subst hname
      split_ifs with hempty
      · obtain rfl := List.isEmpty_iff.mp hempty
        have hnone := hmem raw
        simp only [List.map_nil, List.not_mem_nil, false_iff, not_and] at hnone
        simpa using hnone
      · rw [mem_setOf_removed, hmem]
        tauto
    · split_ifs with hempty
      · simp [hname]
      · simp [mem_setOf_removed, hname]

/-- A removal by a filter that can be asked, from ordinary members, removes only members that satisfy it,
and does nothing else. -/
theorem delete_yields (hm : d.registry.hasModel model = true)
    (hasks : Asks (d.registry.attributeTypes model) where_) (given : Option CorrelationRef) {c : Stores}
    (hup : c.IsUp d) (hread : ∀ raw ∈ setOf d c.server.sets model,
      IsOrdinaryMember (d.registry.attributeTypes model) raw) :
    Yields (· = c) (delete d given model where_) fun _ c' => c'.IsUp d ∧ c'.primary = c.primary ∧
      ∀ name raw, (raw ∈ setOf d c'.server.sets name → raw ∈ setOf d c.server.sets name) ∧
        (raw ∈ setOf d c.server.sets name →
          raw ∈ setOf d c'.server.sets name ∨ name = model ∧ Matches d model where_ raw) := by
  have hstands : Stores.Stands d c.server.sets c.primary c := ⟨hup, rfl, rfl⟩
  have hreading := either_ofFilter hasks
  cases hpredicate : (Predicate.ofFilter where_ (some (d.registry.attributeTypes model))).run.2 with
  | error fault =>
    rw [hpredicate] at hreading
    obtain ⟨e, rfl⟩ := hreading
    have hnothing : (delete d given model where_).Leads (· = c) (.ok none) (· = c) :=
      (mistaken_leads (fun _ => matching_mistaken_leads hpredicate) hm given).1
    refine Yields.of_leads hnothing fun c' hc' => ?_
    subst hc'
    exact ⟨hup, rfl, fun name raw => ⟨id, Or.inl⟩⟩
  | ok predicate =>
    rw [hpredicate] at hreading
    obtain ⟨answer, sets', hdelete, _, hleft⟩ := exists_delete_leads hm given hpredicate
      (fun raw hraw => (hread raw hraw).isSettled hreading) c.primary
    refine Yields.of_leads (hdelete.weaken (fun c' hc' => hc' ▸ hstands) fun _ => id) fun c' hc' => ?_
    refine ⟨hc'.isUp, hc'.primary_eq, fun name raw => ?_⟩
    rw [hc'.sets_eq, hleft]
    tauto

end Cache

end TwinStore
