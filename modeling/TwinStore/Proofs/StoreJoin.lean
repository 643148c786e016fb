import TwinStore.Proofs.Coherence
import TwinStore.Proofs.Join
import TwinStore.Proofs.PlanAgreement

/-!
# The join of the primary store

The primary store fetches the related records of all its records at once, by the list of their keys,
and goes on with what it fetched.  That gives every record what the join would give it.

Main results:

- Theorem `relatedTo_recordsOf`: among the records of some keys, each key finds what it finds among
  all.
- Theorem `attachPlans_eq`: the batches serve every record as the join does.
- Theorem `selectWith_matches`: a selection with plans is the join of the selection.
-/

namespace TwinStore

open Primary Filter Include

variable {r : Registry} {db : Database} {name : String} {m : Model} {t : Table}

/-! ## Selections -/

/-- What a clause selects in the table of a model. -/
theorem selected_eq (hm : r.table name = .ok m) (ht : db.table m = .ok t)
    (clause : Option (Clause Comparison)) :
    selected r db name clause = recordsOf t ((clause.getD .always).map Comparison.condition) := by
  unfold selected
  rw [hm, Outcome.ok_bind, ht]

/-- The records of a typed table that a test selects. -/
theorem recordsOf_eq (ht : t.IsTyped m) (test : Test) :
    recordsOf t test = (t.select test).map (recordIn m) := by
  rw [recordsOf, ht.model_eq]
  rfl

/-- The records of a typed table, in the order of insertion. -/
theorem recordsOf_perm (ht : t.IsTyped m) (test : Test) :
    (recordsOf t test).Perm ((t.rows.filter test.selects).map (recordIn m)) := by
  rw [recordsOf_eq ht]
  exact (List.mergeSort_perm _ _).map _

/-- A selected record of a typed table carries the attributes of its model. -/
theorem carries_of_mem_recordsOf (hr : r.IsMirrored) (hm : r.table name = .ok m)
    (ht : t.IsTyped m) {test : Test} {record : Record} (h : record ∈ recordsOf t test) :
    m.Carries record := by
  have hmodel := Registry.model?_of_table hm
  have hproper := hr.sound.isProper hmodel
  obtain ⟨row, hrow, rfl⟩ := List.mem_map.mp ((recordsOf_perm ht test).mem_iff.mp h)
  exact ((ht.rows row (List.mem_filter.mp hrow).1).isRecord hproper (hr.exact hmodel)).carries hproper

/-- A selection by an accepted formula gives the records of its test. -/
theorem select_eq_recordsOf (hr : r.IsMirrored) (hm : r.table name = .ok m)
    (htable : db.table m = .ok t) (ht : t.IsTyped m) {f : Formula Requirement}
    (hf : f.IsAccepted m) : db.select m (clauseOf m f) = .ok (recordsOf t (testOf m f)) := by
  rw [Database.select_eq hf htable, recordsOf_eq ht]
  refine Outcome.mapM_eq_ok fun row hrow => ?_
  have hmem := (Table.IsOrderly.mem_select.mp hrow).1
  exact (ht.rows row hmem).recordOf_eq (hr.exact (Registry.model?_of_table hm))

/-! ## Records of some keys -/

/-- The condition that a field is one of some keys. -/
def amongFormula (field : String) (keys : List Value) : Formula Requirement :=
  .leaf ⟨field, .isIn, .list keys⟩

variable {b : Attribute} {keys : List Value}

/-- The condition that an attribute is one of some values of its type is accepted. -/
theorem isAccepted_among (hm : m.IsProper) (hb : b ∈ m.attributes)
    (hexact : b.type.isExact = true) (hkeys : ∀ k ∈ keys, b.type.Admits k)
    {f : Formula Requirement} (hf : f.IsAccepted m) :
    (Formula.conj [amongFormula b.name keys, f]).IsAccepted m := by
  intro c hc
  simp only [amongFormula, Formula.leaves, Formula.leavesOf, List.mem_append, List.mem_singleton,
    List.append_nil] at hc
  rcases hc with rfl | hc
  · exact ⟨b.type, hm.get?_attributeTypes hb, hexact, fun k hk => (hkeys k hk).accepts⟩
  · exact hf c hc

/-- The clause for the related records of some keys is that of a formula. -/
theorem relatedClause_eq (hm : m.IsProper) (hb : b ∈ m.attributes)
    (hkeys : ∀ k ∈ keys, b.type.Admits k) {relation : Relation}
    (hname : b.name = relation.otherKey) {clause : Option (Clause Comparison)}
    {f : Formula Requirement} (hclause : clause.getD .always = clauseOf m f) :
    relatedClause m relation keys clause =
      clauseOf m (.conj [amongFormula b.name keys, f]) := by
  have hcoerce : keys.mapM (coerce (some b.type)) = .ok keys := by
    have h : keys.mapM (coerce (some b.type)) = .ok (keys.map id) :=
      Outcome.mapM_eq_ok fun k hk => coerce_of_admits (hkeys k hk)
    rwa [List.map_id] at h
  have hleaf : (storeReading m).leafOf m ⟨b.name, .isIn, .list keys⟩ =
      .ok ⟨b.name, b.type, .isIn, .list keys⟩ := by
    simp [Reading.leafOf, hm.get?_attributeTypes hb, storeReading, Operator.takesList,
      Operator.isOrdering, Operator.candidates, hcoerce]
  have hmember : clauseOf m (.conj [amongFormula b.name keys, f]) =
      Clause.conjunction [.compare ⟨b.name, b.type, .isIn, .list keys⟩, clauseOf m f] := by
    simp only [clauseOf, amongFormula, Formula.map, Formula.mapAll, Clause.ofFormula,
      Clause.ofFormulas, hleaf, Outcome.get]
  unfold relatedClause
  rw [hmember, ← hclause, ← hname, hm.get?_attributeTypes hb]
  cases clause <;> rfl

/-- Among the records of some keys, each of the keys finds what it finds among all. -/
theorem relatedTo_recordsOf (hr : r.IsMirrored) (hm : r.table name = .ok m) (ht : t.IsTyped m)
    (hb : b ∈ m.attributes) (hkeys : ∀ k ∈ keys, b.type.Holds k) {relation : Relation}
    (hname : b.name = relation.otherKey) (f : Formula Requirement) {key : Value}
    (hkey : key ∈ keys) :
    (relatedTo relation (recordsOf t (testOf m (.conj [amongFormula b.name keys, f]))) key).Perm
      (relatedTo relation (recordsOf t (testOf m f)) key) := by
  have hmodel := Registry.model?_of_table hm
  have hproper := hr.sound.isProper hmodel
  have hnull : key.isNull = false := AttributeType.isNull_of_holds (hkeys key hkey)
  refine (relatedTo_perm (recordsOf_perm ht _) key).trans
    (List.Perm.trans (List.Perm.of_eq ?_) (relatedTo_perm (recordsOf_perm ht _) key).symm)
  unfold relatedTo
  rw [hnull, if_neg Bool.false_ne_true, if_neg Bool.false_ne_true, List.filter_map,
    List.filter_map, List.filter_filter, List.filter_filter]
  refine congrArg (List.map (recordIn m)) (List.filter_congr fun row hrow => ?_)
  have hrepresents := (ht.rows row hrow).represents hproper (hr.exact hmodel)
  have htype := hproper.get?_attributeTypes hb
  obtain ⟨hadmits, hcell⟩ := hrepresents b.name b.type htype (hr.exact hmodel b hb)
  have hamong := selects_amongFilter hproper hb (hr.exact hmodel b hb) hkeys hadmits hcell
  rw [selects_testOf, Formula.eval, Formula.evalAll, Formula.evalAll, Bool.and_true] at hamong
  rw [selects_testOf, selects_testOf, Formula.eval, Formula.evalAll, Formula.evalAll,
    Formula.evalAll, Bool.and_true, Function.comp_apply, ← hname]
  obtain ⟨answer, hequal, hanswer⟩ := equal?_of_admits hadmits (hkeys key hkey)
  rw [hequal]
  cases answer with
  | false => rfl
  | true =>
    -- a row with the key is among those of the keys
    rw [hanswer.mp rfl] at hamong
    rw [amongFormula, hamong.mpr hkey, Bool.true_and]

/-! ## Batches -/

/-- The keys by which records refer are their values that are not null. -/
theorem keysOf_eq {type : AttributeType} {relation : Relation} {records : List Record}
    (h : ∀ record ∈ records, type.Admits (record.field relation.thisKey)) :
    Primary.keysOf relation records =
      .ok ((records.map fun record => record.field relation.thisKey).filter (!·.isNull)) := by
  have hall : records.mapM (fun record => (record.field relation.thisKey).asKey) =
      .ok (records.map fun record => record.field relation.thisKey) := by
    exact Outcome.mapM_eq_ok fun record hrecord => if_pos (isKey_of_admits (h record hrecord))
  rw [Primary.keysOf, hall]
  rfl

/-- What is attached from the records of a batch. -/
theorem attachFound_eq {plan : ClausePlan} {relation : Relation}
    (hrelation : plan.relation = some relation) (modelNames : List String) (found : List Record) :
    attachFound plan relation (found.map fun child =>
      (child.field relation.otherKey, child.project plan.attributes modelNames)) =
      attachRelated modelNames plan found := by
  funext entry
  obtain ⟨record, isKept⟩ := entry
  unfold attachFound attachRelated relatedTo
  rw [hrelation]
  simp only [List.filter_map, List.map_map, List.isEmpty_map]
  cases (record.field relation.thisKey).isNull <;> simp [Function.comp_def]

/-! ## Plans of a relation -/

/-- A relation between attributes of two models, with the table of the second. -/
structure Link (r : Registry) (db : Database) (parent model : String) (relation : Relation)
    (m other : Model) (t : Table) (a b : Attribute) : Prop where
  parent_eq : r.model? parent = some m
  table_eq : r.table model = .ok other
  rows : db.table other = .ok t
  typed : t.IsTyped other
  this_mem : a ∈ m.attributes
  this_name : a.name = relation.thisKey
  other_mem : b ∈ other.attributes
  other_name : b.name = relation.otherKey
  type_eq : a.type = b.type

/-- A relation links the attributes that it names. -/
theorem exists_link (hr : r.IsMirrored) (hdb : db.IsTyped r) {parent model : String}
    (hmodel : r.model? parent = some m) {relation : Relation}
    (hrelation : r.relation? parent model = some relation) :
    ∃ other t a b, Link r db parent model relation m other t a b := by
  have hmem := Entries.mem_of_get? hrelation
  obtain ⟨_, m', other, hmodel', hother, hthis, hthat⟩ := hr.sound.isRelated hmem
  obtain rfl : m = m' := Option.some.inj (hmodel.symm.trans hmodel')
  obtain ⟨a, ha, hname⟩ := List.any_eq_true.mp hthis
  obtain ⟨b, hb, hname'⟩ := List.any_eq_true.mp hthat
  have hname := beq_iff_eq.mp hname
  have hname' := beq_iff_eq.mp hname'
  obtain ⟨t, ht, htyped⟩ := hdb model other (hr.sound.table_eq hother)
  exact ⟨other, t, a, b, hmodel, hr.sound.table_eq hother, ht, htyped, ha, hname, hb, hname',
    hr.keys.type_eq hmem hmodel hother a ha hname b hb hname'⟩

/-- No attribute is named like a registered model. -/
theorem ne_of_hasModel (hr : r.IsMirrored) (hmodel : r.model? name = some m) {target : String}
    (htarget : r.hasModel target = true) : ∀ a ∈ m.attributes, a.name ≠ target := by
  rintro a ha rfl
  rw [hr.apart hmodel a ha] at htarget
  cases htarget

namespace Link

variable {parent model : String} {relation : Relation} {other : Model} {a b : Attribute}

/-- The first model has the key that refers. -/
theorem hasAttribute_this (h : Link r db parent model relation m other t a b) :
    m.hasAttribute relation.thisKey = true :=
  List.any_eq_true.mpr ⟨a, h.this_mem, beq_iff_eq.mpr h.this_name⟩

/-- The second model has the key that is referred to. -/
theorem hasAttribute_other (h : Link r db parent model relation m other t a b) :
    other.hasAttribute relation.otherKey = true :=
  List.any_eq_true.mpr ⟨b, h.other_mem, beq_iff_eq.mpr h.other_name⟩

/-- The keys of records are of the type of the key that they refer to. -/
theorem exists_keys (h : Link r db parent model relation m other t a b) {records : List Record}
    (hrecords : ∀ record ∈ records, m.Carries record) :
    ∃ keys, Primary.keysOf relation records = .ok keys ∧ (∀ k ∈ keys, b.type.Holds k) ∧
      ∀ record ∈ records, record.field relation.thisKey = .null ∨
        record.field relation.thisKey ∈ keys := by
  have hadmits : ∀ record ∈ records, b.type.Admits (record.field relation.thisKey) := by
    intro record hrecord
    rw [← h.this_name, ← h.type_eq]
    exact (hrecords record hrecord).admits a h.this_mem
  refine ⟨_, keysOf_eq hadmits, fun k hk => ?_, fun record hrecord => ?_⟩
  · obtain ⟨hk, hnull⟩ := List.mem_filter.mp hk
    obtain ⟨record, hrecord, rfl⟩ := List.mem_map.mp hk
    refine (hadmits record hrecord).resolve_left fun heq => ?_
    rw [heq] at hnull
    cases hnull
  · rcases hadmits record hrecord with hnull | hholds
    · exact Or.inl hnull
    · refine Or.inr (List.mem_filter.mpr ⟨List.mem_map_of_mem hrecord, ?_⟩)
      rw [AttributeType.isNull_of_holds hholds]
      rfl

/-- Plans of a relation that ask for the same serve a record if its key finds the same in what they
found. -/
theorem serves {φ ψ : Type} (h : Link r db parent model relation m other t a b)
    (hr : r.IsMirrored) {p : Plan φ} {q : Plan ψ} (hmodel : p.model = model)
    (hrelation : p.relation = some relation)
    (hsame : p.model = q.model ∧ p.attributes = q.attributes ∧ p.isRequired = q.isRequired ∧
      p.relation = q.relation)
    {found found' : List Record} {record : Record}
    (hrelated : Matched other.Matches
      (relatedTo relation found (record.field relation.thisKey))
      (relatedTo relation found' (record.field relation.thisKey))) :
    Serves m record (p, found) (q, found') := by
  obtain ⟨hmodels, hattributes, hrequired, hrelations⟩ := hsame
  refine ⟨hmodels, hattributes, hrequired, hrelations, ?_, fun relation' hrelation' => ?_⟩
  · rw [hmodel]
    exact ne_of_hasModel hr h.parent_eq (Registry.hasModel_of_table h.table_eq)
  · obtain rfl : relation = relation' := Option.some.inj (hrelation.symm.trans hrelation')
    exact ⟨h.hasAttribute_this, other, hrelated⟩

/-- Each key finds in its batch what it finds in the join of all records. -/
theorem matched_batch (h : Link r db parent model relation m other t a b) (hr : r.IsMirrored)
    {ps qs : List (ClausePlan × List Record)} (hps : ∀ p ∈ ps, r.hasModel p.1.model = true)
    (hqs : ∀ q ∈ qs, r.hasModel q.1.model = true) {keys : List Value}
    (hkeys : ∀ k ∈ keys, b.type.Holds k) {f : Formula Requirement}
    (hserves : ∀ record ∈ recordsOf t (testOf other (.conj [amongFormula b.name keys, f])),
      List.Forall₂ (Serves other record) ps qs) {key : Value} (hkey : key ∈ keys) :
    Matched other.Matches
      (relatedTo relation (joinFound r.modelNames ps
        (recordsOf t (testOf other (.conj [amongFormula b.name keys, f])))) key)
      (relatedTo relation (joinFound r.modelNames qs (recordsOf t (testOf other f))) key) := by
  have hmodel := Registry.model?_of_table h.table_eq
  rw [relatedTo_joinFound fun p hp => ?_, relatedTo_joinFound fun q hq => ?_]
  · have hperm := relatedTo_recordsOf hr h.table_eq h.typed h.other_mem hkeys h.other_name f hkey
    refine joinFound_matches (Matched.perm_right ?_ hperm)
    refine ⟨_, List.Perm.refl _, List.forall₂_same.mpr fun record hrecord => ?_⟩
    have hmem := (exists_of_mem_relatedTo hrecord).1
    exact ⟨(carries_of_mem_recordsOf hr h.table_eq h.typed hmem).matches, hserves record hmem⟩
  · rw [← h.other_name]
    exact ne_of_hasModel hr hmodel (hqs q hq) b h.other_mem
  · rw [← h.other_name]
    exact ne_of_hasModel hr hmodel (hps p hp) b h.other_mem

end Link

section

variable {model : String} {required : Option Bool} {attributes : Option (List String)}
  {clause : Option (Clause Comparison)} {relation : Relation} {children : List ClausePlan}
  {entries : List (Record × Bool)}

/-- Without keys nothing is fetched. -/
theorem attachPlan_of_no_keys (hkeys : Primary.keysOf relation (entries.map (·.1)) = .ok []) :
    attachPlan r db (.node model required attributes clause (some relation) children) entries =
      .ok (entries.map (attachRelated r.modelNames
        (.node model required attributes clause (some relation) children) [])) := by
  rw [attachPlan, hkeys, Outcome.ok_bind]
  have hattach := @attachFound_eq (.node model required attributes clause (some relation) children)
    relation rfl r.modelNames []
  rw [← hattach]
  rfl

/-- With keys the records of the keys are fetched, joined and attached. -/
theorem attachPlan_of_fetched {keys : List Value}
    (hkeys : Primary.keysOf relation (entries.map (·.1)) = .ok keys) (hne : keys ≠ [])
    (hm : r.table model = .ok m) {records : List Record}
    (hselect : db.select m (relatedClause m relation keys clause) = .ok records)
    {plans : List (ClausePlan × List Record)}
    (hbelow : attachPlans r db children (keptAll records) =
      .ok ((keptAll records).map (attachEach r.modelNames plans)))
    (hfound : ∀ child ∈ joinFound r.modelNames plans records,
      (child.field relation.otherKey).isKey = true) :
    attachPlan r db (.node model required attributes clause (some relation) children) entries =
      .ok (entries.map (attachRelated r.modelNames
        (.node model required attributes clause (some relation) children)
        (joinFound r.modelNames plans records))) := by
  have hattach := @attachFound_eq (.node model required attributes clause (some relation) children)
    relation rfl r.modelNames (joinFound r.modelNames plans records)
  have hshown : (joinFound r.modelNames plans records).mapM (fun child => do
      return (← (child.field relation.otherKey).asKey, child.project attributes r.modelNames) :
        Record → Outcome (Value × Record)) =
      .ok ((joinFound r.modelNames plans records).map fun child =>
        (child.field relation.otherKey, child.project attributes r.modelNames)) := by
    refine Outcome.mapM_eq_ok fun child hchild => ?_
    rw [Value.asKey, if_pos (hfound child hchild)]
    rfl
  rw [attachPlan, hkeys, Outcome.ok_bind, if_neg (by rwa [List.isEmpty_iff]), hm, Outcome.ok_bind,
    hselect, Outcome.ok_bind, hbelow]
  show (((joinFound r.modelNames plans records).mapM fun child => do
      return (← (child.field relation.otherKey).asKey, child.project attributes r.modelNames) :
        Outcome (List (Value × Record))) >>= fun shown => _) = _
  rw [hshown, Outcome.ok_bind, ← hattach]
  rfl

end

/-- The batch of a plan serves every record as the join does, if the batches below do. -/
theorem exists_batch (hr : r.IsMirrored) (hdb : db.IsTyped r) {parent model : String}
    (hmodel : r.model? parent = some m) {required : Option Bool}
    {attributes : Option (List String)} {where_ : Option (Entries Value)}
    {clause : Option (Clause Comparison)} {relation : Relation} {children : List ClausePlan}
    (hrelation : r.relation? parent model = some relation) (hwhere : SameFilter r model where_ clause)
    (hchildren : ∀ child ∈ children, r.hasModel child.model = true)
    (hbelow : ∀ {other : Model} {entries : List (Record × Bool)}, r.model? model = some other →
      (∀ e ∈ entries, other.Carries e.1) → ∃ founds,
        attachPlans r db children entries =
          .ok (entries.map (attachEach r.modelNames (children.zip founds))) ∧
        ∀ e ∈ entries, List.Forall₂ (Serves other e.1) (children.zip founds)
          (children.zip (joinedEach r db children)))
    {entries : List (Record × Bool)} (hentries : ∀ e ∈ entries, m.Carries e.1)
    {plan : ClausePlan}
    (hplan : plan = .node model required attributes clause (some relation) children) :
    ∃ found, attachPlan r db plan entries =
        .ok (entries.map (attachRelated r.modelNames plan found)) ∧
      ∀ e ∈ entries, Serves m e.1 (plan, found) (plan, joined r db plan) := by
  obtain ⟨other, t, a, b, h⟩ := exists_link hr hdb hmodel hrelation
  obtain ⟨other', f, htable, hf, hclause⟩ := hwhere
  obtain rfl : other = other' := Except.ok.inj (h.table_eq.symm.trans htable)
  have hother := Registry.model?_of_table h.table_eq
  have hproper := hr.sound.isProper hother
  have hrecords : ∀ record ∈ entries.map (·.1), m.Carries record := by
    intro record hrecord
    obtain ⟨e, he, rfl⟩ := List.mem_map.mp hrecord
    exact hentries e he
  obtain ⟨keys, hkeysOf, hkeys, hmem⟩ := h.exists_keys hrecords
  have hjoined : joined r db plan = joinFound r.modelNames (children.zip (joinedEach r db children))
      (recordsOf t (testOf other f)) := by
    rw [hplan, joined, selected_eq h.table_eq h.rows, hclause]
    rfl
  have hnull {found found' : List Record} {e : Record × Bool}
      (hkey : e.1.field relation.thisKey = .null) :
      Matched other.Matches (relatedTo relation found (e.1.field relation.thisKey))
        (relatedTo relation found' (e.1.field relation.thisKey)) := by
    rw [hkey]
    exact ⟨[], List.Perm.refl _, .nil⟩
  subst hplan
  by_cases hempty : keys = []
  · refine ⟨[], attachPlan_of_no_keys (hempty ▸ hkeysOf), fun e he => h.serves hr rfl rfl ⟨rfl, rfl, rfl, rfl⟩ ?_⟩
    rcases hmem e.1 (List.mem_map_of_mem he) with hkey | hkey
    · exact hnull hkey
    · rw [hempty] at hkey
      cases hkey
  · have hadmits : ∀ k ∈ keys, b.type.Admits k := fun k hk => Or.inr (hkeys k hk)
    have haccepted := isAccepted_among hproper h.other_mem (hr.exact hother b h.other_mem) hadmits
      hf.2
    obtain ⟨batch, hbatch⟩ : ∃ batch,
      batch = recordsOf t (testOf other (.conj [amongFormula b.name keys, f])) := ⟨_, rfl⟩
    have hselect := select_eq_recordsOf hr h.table_eq h.rows h.typed haccepted
    rw [← relatedClause_eq hproper h.other_mem hadmits h.other_name hclause, ← hbatch] at hselect
    have hcarries : ∀ record ∈ batch, other.Carries record := by
      intro record hrecord
      rw [hbatch] at hrecord
      exact carries_of_mem_recordsOf hr h.table_eq h.typed hrecord
    have hentries' : ∀ e ∈ keptAll batch, other.Carries e.1 := by
      intro e he
      obtain ⟨record, hrecord, rfl⟩ := List.mem_map.mp he
      exact hcarries record hrecord
    obtain ⟨founds, hattach, hserves⟩ := hbelow hother hentries'
    have hserves' : ∀ record ∈ batch, List.Forall₂ (Serves other record) (children.zip founds)
        (children.zip (joinedEach r db children)) :=
      fun record hrecord => hserves (record, true) (List.mem_map_of_mem hrecord)
    have hps : ∀ p ∈ children.zip founds, r.hasModel p.1.model = true :=
      fun p hp => hchildren p.1 (List.of_mem_zip hp).1
    have hqs : ∀ q ∈ children.zip (joinedEach r db children), r.hasModel q.1.model = true :=
      fun q hq => hchildren q.1 (List.of_mem_zip hq).1
    refine ⟨joinFound r.modelNames (children.zip founds) batch,
      attachPlan_of_fetched hkeysOf hempty h.table_eq hselect hattach ?_,
      fun e he => h.serves hr rfl rfl ⟨rfl, rfl, rfl, rfl⟩ ?_⟩
    · intro child hchild
      obtain ⟨record, hrecord, hsame⟩ := exists_of_mem_joinFound hchild
      have hfield := hsame fun p hp => ne_of_hasModel hr hother (hps p hp) b h.other_mem
      rw [← h.other_name, hfield]
      exact isKey_of_admits ((hcarries record hrecord).admits b h.other_mem)
    · rcases hmem e.1 (List.mem_map_of_mem he) with hkey | hkey
      · exact hnull hkey
      · rw [hjoined, hbatch]
        exact h.matched_batch hr hps hqs hkeys (hbatch ▸ hserves') hkey

mutual

/-- The batch of a plan serves every record as the join does. -/
theorem attachPlan_eq (hr : r.IsMirrored) (hdb : db.IsTyped r) : ∀ {parent : String} {m : Model}
    {p : Builder} {q : ClausePlan} {entries : List (Record × Bool)}, Agrees r parent p q →
    r.model? parent = some m → (∀ e ∈ entries, m.Carries e.1) →
    ∃ found, attachPlan r db q entries = .ok (entries.map (attachRelated r.modelNames q found)) ∧
      ∀ e ∈ entries, Serves m e.1 (q, found) (q, joined r db q)
  | parent, m, .node model required attributes where_ relation children, q, entries, h, hmodel,
      hentries => by
    cases h with
    | node hrelation hwhere hchildren =>
      exact exists_batch hr hdb hmodel hrelation hwhere (hchildren.hasModel hr.sound)
        (fun hother hentries' => attachPlans_eq hr hdb hchildren hother hentries') hentries rfl

/-- The batches of some plans serve every record as the join does. -/
theorem attachPlans_eq (hr : r.IsMirrored) (hdb : db.IsTyped r) : ∀ {parent : String} {m : Model}
    {ps : List Builder} {qs : List ClausePlan} {entries : List (Record × Bool)},
    AllAgree r parent ps qs → r.model? parent = some m → (∀ e ∈ entries, m.Carries e.1) →
    ∃ founds, attachPlans r db qs entries =
        .ok (entries.map (attachEach r.modelNames (qs.zip founds))) ∧
      ∀ e ∈ entries, List.Forall₂ (Serves m e.1) (qs.zip founds) (qs.zip (joinedEach r db qs))
  | parent, m, [], qs, entries, h, hmodel, hentries => by
    cases h
    refine ⟨[], ?_, fun e he => .nil⟩
    rw [attachPlans]
    exact congrArg Except.ok (List.map_id entries).symm
  | parent, m, p :: ps, qs, entries, h, hmodel, hentries => by
    cases h with
    | @cons _ _ q _ qs hp hps =>
      obtain ⟨found, hattach, hserves⟩ := attachPlan_eq hr hdb hp hmodel hentries
      have happart : ∀ e ∈ entries, ∀ a ∈ m.attributes, a.name ≠ q.model :=
        fun e he => (hserves e he).apart
      have hcarries : ∀ e ∈ entries.map (attachRelated r.modelNames q found), m.Carries e.1 := by
        intro e' he'
        obtain ⟨e, he, rfl⟩ := List.mem_map.mp he'
        exact carries_attachRelated (hentries e he) found (happart e he)
      obtain ⟨founds, hattach', hserves'⟩ := attachPlans_eq hr hdb hps hmodel hcarries
      refine ⟨found :: founds, ?_, fun e he => ?_⟩
      · rw [attachPlans, hattach, Outcome.ok_bind, hattach', List.map_map]
        rfl
      · refine .cons (hserves e he) ((hserves' _ (List.mem_map_of_mem he)).imp fun p q h => ?_)
        exact h.congr fun a ha => (field_attachRelated _ found e (happart e he a ha)).symm

end

/-- A selection with plans is the join of the selection. -/
theorem selectWith_matches (hr : r.IsMirrored) (hdb : db.IsTyped r) (hm : r.table name = .ok m)
    {f : Formula Requirement} (hf : f.IsAccepted m) {ps : List Builder} {qs : List ClausePlan}
    (h : AllAgree r name ps qs) :
    ∃ rows, selectWith r db m (clauseOf m f) qs = .ok rows ∧
      Matched m.Matches rows (join r db qs (selected r db name (some (clauseOf m f)))) := by
  have hmodel := Registry.model?_of_table hm
  obtain ⟨t, ht, htyped⟩ := hdb name m hm
  have hselected : selected r db name (some (clauseOf m f)) = recordsOf t (testOf m f) :=
    selected_eq hm ht _
  have hcarries : ∀ record ∈ recordsOf t (testOf m f), m.Carries record :=
    fun record hrecord => carries_of_mem_recordsOf hr hm htyped hrecord
  have hentries : ∀ e ∈ keptAll (recordsOf t (testOf m f)), m.Carries e.1 := by
    intro e he
    obtain ⟨record, hrecord, rfl⟩ := List.mem_map.mp he
    exact hcarries record hrecord
  obtain ⟨founds, hattach, hserves⟩ := attachPlans_eq hr hdb h hmodel hentries
  refine ⟨joinFound r.modelNames (qs.zip founds) (recordsOf t (testOf m f)), ?_, ?_⟩
  · rw [selectWith, select_eq_recordsOf hr hm ht htyped hf, Outcome.ok_bind, hattach]
    rfl
  · rw [hselected]
    refine joinFound_matches ⟨_, List.Perm.refl _, List.forall₂_same.mpr fun record hrecord => ?_⟩
    exact ⟨(hcarries record hrecord).matches, hserves (record, true) (List.mem_map_of_mem hrecord)⟩

end TwinStore
