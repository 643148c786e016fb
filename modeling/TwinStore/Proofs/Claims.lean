import TwinStore.Proofs.Content

/-!
# Claims of a deletion

A deletion claims the records that it finds and that no other deletion has claimed.  It goes on with
the records that refer to them, which it names by the keys of what it claimed.

Main definitions:

- `identityOf`: what tells an item from all others.
- `Pends`: whether some items are the claimed ones.
- `Names`: whether a filter names the records that belong to some records by one relation.

Main results:

- Theorem `same_identityOf_iff`: stored items have the same identity exactly if they are the same.
- Theorem `exists_claimRows`: exactly what is not claimed yet is claimed.
- Theorem `exists_targets`: the filters are those of the owning relations.
-/

namespace TwinStore.Twin

open Primary Filter

variable {r : Registry} {db : Database} {model : String} {m : Model}

/-! ## Identities -/

/-- What tells an item from all others: its model and the values of its keys. -/
def identityOf (r : Registry) (o : Item) : Identity :=
  ⟨o.model, .tuple ((r.primaryKeys o.model).map o.record.field)⟩

theorem identityOf_eq {o : Item} (hmodel : r.model? o.model = some m) :
    identityOf r o = ⟨o.model, .tuple (m.keyAttributes.map fun a => o.record.field a.name)⟩ := by
  rw [identityOf, Registry.primaryKeys, hmodel]
  show Identity.mk _ (.tuple ((m.keyAttributes.map (·.name)).map _)) = _
  rw [List.map_map]
  rfl

/-- Lists of values of the attributes are equal exactly if they are the same. -/
theorem equalItems?_map {f g : Attribute → Value} {as : List Attribute}
    (has : ∀ a ∈ as, a.type.Holds (f a) ∧ a.type.Holds (g a)) :
    ∃ b, Value.equalItems? (as.map f) (as.map g) = some b ∧ (b = true ↔ ∀ a ∈ as, f a = g a) := by
  induction as with
  | nil => exact ⟨true, rfl, by simp⟩
  | cons a as ih =>
    obtain ⟨hf, hg⟩ := has a List.mem_cons_self
    obtain ⟨b, hfirst, hb⟩ := equal?_of_holds hf hg
    obtain ⟨b', hrest, hb'⟩ := ih fun a' ha' => has a' (List.mem_cons_of_mem a ha')
    rw [List.map_cons, List.map_cons, Value.equalItems?, hfirst]
    cases b with
    | true => exact ⟨b', hrest, by rw [hb', List.forall_mem_cons, and_iff_right (hb.mp rfl)]⟩
    | false =>
      refine ⟨false, rfl, ⟨(by cases ·), fun h => ?_⟩⟩
      exact hb.mpr (h a List.mem_cons_self)

/-- The keys of a stored item. -/
theorem holds_keys (hr : r.IsSound) (hdb : db.IsOrderly r) {o : Item} (ho : db.Holds r o) :
    ∃ m, r.model? o.model = some m ∧
      ∀ a ∈ m.keyAttributes, a.type.Holds (o.record.field a.name) := by
  obtain ⟨m, t, row, hm, ht, hrow, hrecord⟩ := ho
  obtain ⟨t', ht', horderly⟩ := hdb o.model m hm
  obtain rfl : t = t' := Except.ok.inj (ht.symm.trans ht')
  have hmodel := Registry.model?_of_table hm
  refine ⟨m, hmodel, fun a ha => ?_⟩
  obtain ⟨_, _, hholds, _⟩ :=
    horderly.holds_of_recordOf (hr.isProper hmodel) hmodel hrow hrecord ha
  exact hholds

/-- The identity of a stored item. -/
theorem ofRow_eq (hr : r.IsSound) (hkeys : r.IsKeyed) (hdb : db.IsOrderly r) {record : Record}
    (ho : db.Holds r ⟨model, record⟩) :
    Identity.ofRow r model record = .ok (identityOf r ⟨model, record⟩) := by
  obtain ⟨m, hmodel, hholds⟩ := holds_keys hr hdb ho
  have hareKeys : ∀ as : List Attribute, (∀ a ∈ as, a ∈ m.keyAttributes) →
      Value.areKeys (as.map fun a => record.field a.name) = true := by
    intro as has
    induction as with
    | nil => rfl
    | cons a as ih =>
      have hvalue := hholds a (has a List.mem_cons_self)
      rw [List.map_cons, Value.areKeys, isKey_of_admits (Or.inr hvalue),
        ih fun b hb => has b (List.mem_cons_of_mem a hb)]
      rfl
  have htuple : (Value.tuple (m.keyAttributes.map fun a => record.field a.name)).asKey =
      .ok (.tuple (m.keyAttributes.map fun a => record.field a.name)) := by
    rw [Value.asKey, Value.isKey]
    exact if_pos (hareKeys m.keyAttributes fun _ => id)
  have hnames : (r.primaryKeys model).map record.field =
      m.keyAttributes.map fun a => record.field a.name := by
    rw [Registry.primaryKeys, hmodel]
    exact List.map_map
  rw [identityOf_eq hmodel, Identity.ofRow]
  split
  · next hnone =>
    rw [Registry.primaryKeys, hmodel] at hnone
    exact absurd hnone (hkeys.hasPrimary hmodel)
  · rw [hnames, htuple]
    rfl

/-- Stored items have the same identity exactly if they are the same. -/
theorem same_identityOf_iff (hr : r.IsSound) (hkeys : r.IsKeyed) (hdb : db.IsOrderly r)
    {o o' : Item} (ho : db.Holds r o) (ho' : db.Holds r o') :
    (identityOf r o).same (identityOf r o') = true ↔ o = o' := by
  obtain ⟨m, hmodel, hholds⟩ := holds_keys hr hdb ho
  obtain ⟨m', hmodel', hholds'⟩ := holds_keys hr hdb ho'
  rw [identityOf_eq hmodel, identityOf_eq hmodel', Identity.same, Bool.and_eq_true, beq_iff_eq,
    beq_iff_eq, Value.equal?]
  constructor
  · rintro ⟨hname, hequal⟩
    obtain ⟨model, record⟩ := o
    obtain ⟨model', record'⟩ := o'
    obtain rfl : model = model' := hname
    obtain rfl : m = m' := Option.some.inj (hmodel.symm.trans hmodel')
    obtain ⟨b, hitems, hb⟩ := equalItems?_map fun a ha => ⟨hholds a ha, hholds' a ha⟩
    have hsame := hb.mp (Option.some.inj (hitems.symm.trans hequal))
    obtain ⟨m', t, row, hm, ht, hrow, hrecord⟩ := ho
    obtain rfl : m = m' := Option.some.inj (hmodel.symm.trans (Registry.model?_of_table hm))
    obtain ⟨row', hrow', hrecord'⟩ := ho'.elim hm ht
    obtain ⟨t', ht', horderly⟩ := hdb model m hm
    obtain rfl : t = t' := Except.ok.inj (ht.symm.trans ht')
    have heq := horderly.eq_of_keys (hr.isProper hmodel) hmodel (hkeys.hasPrimary hmodel) hrow hrow'
      hrecord hrecord' hsame
    rw [heq, hrecord'] at hrecord
    exact congrArg (Item.mk model) (Except.ok.inj hrecord).symm
  · rintro rfl
    obtain rfl : m = m' := Option.some.inj (hmodel.symm.trans hmodel')
    obtain ⟨b, hitems, hb⟩ := equalItems?_map fun a ha => ⟨hholds a ha, hholds a ha⟩
    rw [hb.mpr fun _ _ => rfl] at hitems
    exact ⟨rfl, hitems⟩

/-! ## Claims -/

/-- Whether the identities that are pending are those of the claimed items. -/
def Pends (r : Registry) (pending : List Identity) (claimed : List Item) : Prop :=
  ∀ identity, identity ∈ pending ↔ ∃ o ∈ claimed, identityOf r o = identity

/-- The items of records of one model. -/
def itemsOf (model : String) (records : List Record) : List Item :=
  records.map fun record => ⟨model, record⟩

/-- Exactly what is not claimed yet is claimed. -/
theorem exists_claimRows (hr : r.IsSound) (hkeys : r.IsKeyed) (hdb : db.IsOrderly r)
    {rows : List Record} (hrows : ∀ o ∈ itemsOf model rows, db.Holds r o) {claimed : List Item}
    (hclaimed : ∀ o ∈ claimed, db.Holds r o) {pending : List Identity}
    (hpending : Pends r pending claimed) :
    ∃ fresh pending', claimRows r model rows pending = .ok (fresh, pending') ∧
      fresh.Sublist rows ∧ (∀ record ∈ rows, record ∈ fresh ↔ ⟨model, record⟩ ∉ claimed) ∧
      Pends r pending' (claimed ++ itemsOf model fresh) := by
  have hany {record : Record} (hrecord : record ∈ rows) :
      pending.any (identityOf r ⟨model, record⟩).same = true ↔ ⟨model, record⟩ ∈ claimed := by
    have hstored := hrows _ (List.mem_map_of_mem hrecord)
    rw [List.any_eq_true]
    constructor
    · rintro ⟨identity, hmem, hsame⟩
      obtain ⟨o, ho, rfl⟩ := (hpending identity).mp hmem
      rwa [(same_identityOf_iff hr hkeys hdb hstored (hclaimed o ho)).mp hsame]
    · intro hmem
      exact ⟨_, (hpending _).mpr ⟨_, hmem, rfl⟩,
        (same_identityOf_iff hr hkeys hdb hstored hstored).mpr rfl⟩
  have hnamed : (rows.mapM fun row => do return (row, ← Identity.ofRow r model row) :
      Outcome (List (Record × Identity))) =
      .ok (rows.map fun record => (record, identityOf r ⟨model, record⟩)) := by
    refine Outcome.mapM_eq_ok fun record hrecord => ?_
    rw [ofRow_eq hr hkeys hdb (hrows _ (List.mem_map_of_mem hrecord))]
    rfl
  obtain ⟨fresh, hfresh⟩ : ∃ fresh, fresh =
    rows.filter fun record => !pending.any (identityOf r ⟨model, record⟩).same := ⟨_, rfl⟩
  have hfiltered : (rows.map fun record => (record, identityOf r ⟨model, record⟩)).filter
      (fun e => !pending.any e.2.same) =
      fresh.map fun record => (record, identityOf r ⟨model, record⟩) := by
    rw [List.filter_map, hfresh]
    rfl
  refine ⟨fresh, pending ++ fresh.map fun record => identityOf r ⟨model, record⟩, ?_, ?_, ?_, ?_⟩
  · rw [claimRows, hnamed, Outcome.ok_bind]
    simp only [hfiltered, List.map_map]
    rw [Outcome.pure_eq_ok]
    exact congrArg Except.ok (Prod.ext (List.map_id fresh) rfl)
  · rw [hfresh]
    exact List.filter_sublist
  · intro record hrecord
    rw [hfresh, List.mem_filter, and_iff_right hrecord, Bool.not_eq_true', ← hany hrecord,
      Bool.not_eq_true]
  · intro identity
    simp only [List.mem_append, hpending identity, itemsOf, or_and_right, exists_or, List.mem_map,
      exists_exists_and_eq_and]

/-! ## Keys that others refer with -/

/-- Keys are listed once each, without null. -/
theorem exists_distinctKeys {type : AttributeType} {vs : List Value}
    (hvs : ∀ v ∈ vs, type.Admits v) :
    distinctKeys vs = .ok (distinctKeys vs).get ∧
      ∀ k, k ∈ (distinctKeys vs).get ↔ k ∈ vs ∧ k ≠ .null := by
  induction vs with
  | nil => exact ⟨rfl, by simp [distinctKeys, Outcome.get]⟩
  | cons v vs ih =>
    obtain ⟨hrest, hmem⟩ := ih fun w hw => hvs w (List.mem_cons_of_mem v hw)
    have hv := hvs v List.mem_cons_self
    have hasKey : v.asKey = .ok v := if_pos (isKey_of_admits hv)
    generalize (distinctKeys vs).get = others at hrest hmem
    rw [distinctKeys, hasKey, Outcome.ok_bind, hrest, Outcome.ok_bind]
    rcases hv with rfl | hv
    · refine ⟨rfl, fun k => ?_⟩
      show k ∈ others ↔ _
      rw [hmem, List.mem_cons]
      tauto
    · rw [AttributeType.isNull_of_holds hv, if_neg Bool.false_ne_true]
      refine ⟨rfl, fun k => ?_⟩
      show k ∈ v :: others.filter _ ↔ _
      have hne : v ≠ .null := by
        rintro rfl
        cases hv
      rw [List.mem_cons, List.mem_cons, List.mem_filter, hmem]
      by_cases hk : k = v
      · simp [hk, hne]
      · simp only [hk, false_or, and_iff_left_iff_imp]
        rintro ⟨hkmem, hknull⟩
        have hholds := (hvs k (List.mem_cons_of_mem v hkmem)).resolve_left hknull
        obtain ⟨b, hb, hiff⟩ := equal?_of_holds hv hholds
        have hfalse : b = false := by
          rw [← Bool.not_eq_true, hiff]
          exact fun h => hk h.symm
        rw [hb, hfalse]
        rfl

/-- Whether a filter on a model names the records that belong to some records by one relation. -/
def Names (r : Registry) (model : String) (rows : List Record) (target : String)
    (where_ : Value) : Prop :=
  ∃ relation keys, (target, relation) ∈ r.relationsOf model ∧ relation.cascades = true ∧
    where_ = amongFilter relation.otherKey keys ∧ keys ≠ [] ∧
    ∀ k, k ∈ keys ↔ k ≠ .null ∧ ∃ row ∈ rows, row.field relation.thisKey = k

/-- A key that a stored record refers with is of the type of its attribute. -/
theorem admits_thisKey (hr : r.IsSound) (hdb : db.IsOrderly r) {o : Item} (ho : db.Holds r o)
    {target : String} {relation : Relation} (hrelation : (target, relation) ∈ r.relationsOf o.model)
    {a : Attribute} (hmodel : r.model? o.model = some m) (ha : a ∈ m.attributes)
    (hname : a.name = relation.thisKey) :
    a.type.Admits (o.record.field relation.thisKey) := by
  have hkey : r.IsKey o.model a.name := Or.inr (Or.inl ⟨_, hrelation, hname.symm⟩)
  obtain ⟨m', t, row, hm, ht, hrow, hrecord⟩ := ho
  obtain rfl : m = m' := Option.some.inj (hmodel.symm.trans (Registry.model?_of_table hm))
  obtain ⟨t', ht', horderly⟩ := hdb o.model m hm
  obtain rfl : t = t' := Except.ok.inj (ht.symm.trans ht')
  rw [← hname]
  exact (horderly.key_of_recordOf (hr.isProper hmodel) hrow hrecord ha hkey).1

/-- The keys by which some records refer with a relation. -/
def keysOf (rows : List Record) (relation : Relation) : List Value :=
  (distinctKeys (rows.map (·.field relation.thisKey))).get

/-- The filter that names what belongs to some records by a relation, if anything does. -/
def target? (rows : List Record) (relation : Relation) : Option (String × Value) :=
  if (keysOf rows relation).isEmpty then none
  else some (relation.name, amongFilter relation.otherKey (keysOf rows relation))

/-- The keys by which stored records refer are their fields that are not null. -/
theorem mem_keysOf (hr : r.IsSound) (hdb : db.IsOrderly r) {rows : List Record}
    (hrows : ∀ o ∈ itemsOf model rows, db.Holds r o) {target : String} {relation : Relation}
    (hrelation : (target, relation) ∈ r.relationsOf model) :
    distinctKeys (rows.map (·.field relation.thisKey)) = .ok (keysOf rows relation) ∧
      ∀ k, k ∈ keysOf rows relation ↔ k ≠ .null ∧ ∃ row ∈ rows, row.field relation.thisKey = k := by
  obtain ⟨_, m, other, hmodel, _, hthis, _⟩ := hr.isRelated hrelation
  obtain ⟨a, ha, hname⟩ := List.any_eq_true.mp hthis
  have hname := beq_iff_eq.mp hname
  have hadmits : ∀ v ∈ rows.map (·.field relation.thisKey), a.type.Admits v := by
    intro v hv
    obtain ⟨row, hrow, rfl⟩ := List.mem_map.mp hv
    exact admits_thisKey hr hdb (hrows _ (List.mem_map_of_mem hrow)) hrelation hmodel ha hname
  obtain ⟨hok, hmem⟩ := exists_distinctKeys hadmits
  refine ⟨hok, fun k => ?_⟩
  rw [keysOf, hmem, List.mem_map, and_comm]

/-- The targets of stored records are found relation by relation. -/
theorem targets_eq (hr : r.IsSound) (hdb : db.IsOrderly r) {rows : List Record}
    (hrows : ∀ o ∈ itemsOf model rows, db.Holds r o) :
    targets r model rows =
      .ok (((r.relationsOf model).filter (·.2.cascades)).filterMap fun e => target? rows e.2) := by
  rw [targets, Outcome.mapM_eq_ok (g := fun e => target? rows e.2)]
  · rw [Outcome.ok_bind, List.filterMap_map]
    rfl
  · intro ⟨target, relation⟩ he
    have hdistinct := (mem_keysOf hr hdb hrows (List.mem_filter.mp he).1).1
    simp only [hdistinct, Outcome.ok_bind, target?]
    split_ifs <;> rfl

/-- The filters below some records name what belongs to them by the owning relations. -/
theorem exists_targets (hr : r.IsSound) (hdb : db.IsOrderly r) {rows : List Record}
    (hrows : ∀ o ∈ itemsOf model rows, db.Holds r o) :
    ∃ below, targets r model rows = .ok below ∧ below.length ≤ (r.relationsOf model).length ∧
      (∀ e ∈ below, Names r model rows e.1 e.2) ∧
      ∀ target relation, (target, relation) ∈ r.relationsOf model → relation.cascades = true →
        ∀ row ∈ rows, row.field relation.thisKey ≠ .null →
          ∃ keys, (target, amongFilter relation.otherKey keys) ∈ below ∧
            ∀ k, k ∈ keys ↔ k ≠ .null ∧ ∃ row ∈ rows, row.field relation.thisKey = k := by
  refine ⟨_, targets_eq hr hdb hrows, ?_, fun e he => ?_,
    fun target relation hrelation hcascades row hrow hnull => ?_⟩
  · exact (List.length_filterMap_le _ _).trans (List.length_filter_le _ _)
  · obtain ⟨⟨target, relation⟩, hmem, hfilter⟩ := List.mem_filterMap.mp he
    obtain ⟨hrelation, hcascades⟩ := List.mem_filter.mp hmem
    simp only [target?] at hfilter
    split_ifs at hfilter with hempty
    obtain rfl := Option.some.inj hfilter
    rw [(hr.isRelated hrelation).1]
    refine ⟨relation, keysOf rows relation, hrelation, hcascades, rfl, ?_,
      (mem_keysOf hr hdb hrows hrelation).2⟩
    rwa [List.isEmpty_iff] at hempty
  · have hkeysOf := (mem_keysOf hr hdb hrows hrelation).2
    have hmem := (hkeysOf _).mpr ⟨hnull, row, hrow, rfl⟩
    refine ⟨keysOf rows relation, List.mem_filterMap.mpr ⟨(target, relation), ?_, ?_⟩, hkeysOf⟩
    · exact List.mem_filter.mpr ⟨hrelation, hcascades⟩
    · simp only [target?]
      rw [if_neg (by rw [List.isEmpty_iff]; exact List.ne_nil_of_mem hmem),
        (hr.isRelated hrelation).1]

end TwinStore.Twin
