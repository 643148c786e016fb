import TwinStore.Proofs.StoredCell
import TwinStore.Proofs.TypedTable
import TwinStore.Twin.Deletion
import TwinStore.Value.Items

/-!
# Filters on keys

A cascade names records in two ways: the record of a row by the values of its key, and the records
that belong to some records by the key that they refer with.  Names of attributes are identifiers, so
neither filter can be mistaken for a connective.  Keys are compared as values where records are joined
and told apart, and as cells where rows are; both say the same of two values of one type.

Main definitions:

- `amongFilter`: the filter for records of which a field has one of some values.
- `sameFilter`: the filter for records that agree with a record in some fields.

Main results:

- Theorem `sameKey_storedCell_iff`: cells are the same exactly for the same value.
- Theorem `equal?_of_holds`: values of one type are equal exactly if they are the same.
- Theorem `selects_amongFilter`: the first selects the rows whose cell is that of one of the values.
- Theorem `selects_sameFilter`: the second selects the rows that have the cells of the record.
-/

namespace TwinStore

open Primary

/-! ## Cells -/

namespace Primary.Cell

/-- Integers in cells are the same by value. -/
theorem sameKey_int (m n : Int) : (int m).sameKey (int n) = true ↔ int m = int n := by
  rw [sameKey, beq_iff_eq, show (int m).compare? (int n) = some ((int m).order (int n)) from rfl,
    order_int, Option.some_inj, Std.compare_eq_iff_eq, int.injEq]

/-- Texts in cells are the same if they have the same characters. -/
theorem sameKey_text (s t : String) : (text s).sameKey (text t) = true ↔ text s = text t := by
  rw [sameKey, beq_iff_eq, show (text s).compare? (text t) = some (compare s t) from rfl,
    Option.some_inj, Std.compare_eq_iff_eq, text.injEq]

end Primary.Cell

variable {type : AttributeType} {v w : Value}

/-- Different values of a type have different cells. -/
theorem storedCell_inj (hv : type.Admits v) (hw : type.Admits w)
    (h : storedCell v = storedCell w) : v = w := by
  have hread := valueOf_storedCell hv
  rw [h, valueOf_storedCell hw] at hread
  exact (Except.ok.inj hread).symm

/-- The cells of two values of a type are the same exactly if the values are. -/
theorem sameKey_storedCell_iff (hv : type.Holds v) (hw : type.Holds w) :
    (storedCell v).sameKey (storedCell w) = true ↔ v = w := by
  have hcells : (storedCell v).sameKey (storedCell w) = true ↔ storedCell v = storedCell w := by
    cases hv with
    | int | bool => cases hw; exact Cell.sameKey_int _ _
    | str | text | date | datetime | uuid => cases hw; exact Cell.sameKey_text _ _
  rw [hcells]
  exact ⟨storedCell_inj (Or.inr hv) (Or.inr hw), congrArg storedCell⟩

/-! ## Values -/

/-- Values of a type are equal exactly if they are the same. -/
theorem equal?_of_holds (hv : type.Holds v) (hw : type.Holds w) :
    ∃ b, v.equal? w = some b ∧ (b = true ↔ v = w) := by
  have hnumbers (m n : Int) : Value.equalNumbers? (.ofInt m) (.ofInt n) = some (m == n) := by
    rw [Value.equalNumbers?, if_neg (by simp), Number.Decimal.compare?_ofInt]
    rw [Bool.eq_iff_iff.mpr (show (some (compare m n) == some .eq) = true ↔ (m == n) = true by
      rw [beq_iff_eq, beq_iff_eq, Option.some_inj, Std.compare_eq_iff_eq])]
  cases hv with
  | @int m =>
    cases hw with
    | @int n => exact ⟨m == n, hnumbers m n, by rw [beq_iff_eq, Value.int.injEq]⟩
  | @bool b =>
    cases hw with
    | @bool c =>
      refine ⟨_, hnumbers _ _, ?_⟩
      rw [Value.bool.injEq]
      cases b <;> cases c <;> decide
  | str s =>
    cases hw with
    | str t => exact ⟨s == t, rfl, by rw [beq_iff_eq, Value.text.injEq]⟩
  | text s =>
    cases hw with
    | text t => exact ⟨s == t, rfl, by rw [beq_iff_eq, Value.text.injEq]⟩
  | @date d =>
    cases hw with
    | @date e => exact ⟨d == e, rfl, by rw [beq_iff_eq, Value.date.injEq]⟩
  | @uuid u =>
    cases hw with
    | @uuid w => exact ⟨u == w, rfl, by rw [beq_iff_eq, Value.uuid.injEq]⟩
  | @datetime t ht htn =>
    cases hw with
    | @datetime u hu hun =>
      refine ⟨t.compare? u == some .eq, rfl, ?_⟩
      rw [Calendar.DateTime.compare?, htn, hun, if_pos rfl, beq_iff_eq, Option.some_inj,
        Std.compare_eq_iff_eq, Value.instant.injEq, ← Calendar.DateTime.epochMicros_inj ht hu htn hun,
        Calendar.DateTime.epochMicros, Calendar.DateTime.epochMicros]
      omega

/-- Values of a type can be looked up. -/
theorem isKey_of_admits (hv : type.Admits v) : v.isKey = true := by
  rcases hv with rfl | hv
  · rfl
  · cases hv <;> rfl

/-- A value that may be null equals a key exactly if it is the key. -/
theorem equal?_of_admits (hv : type.Admits v) (hw : type.Holds w) :
    ∃ b, Value.equal? v w = some b ∧ (b = true ↔ v = w) := by
  rcases hv with rfl | hv
  · refine ⟨false, by cases hw <;> rfl, ⟨nofun, ?_⟩⟩
    rintro rfl
    cases hw
  · exact equal?_of_holds hv hw

end TwinStore

namespace TwinStore

open Primary Filter

/-! ## Names -/

/-- An identifier begins with no dollar sign. -/
theorem Text.not_startsWith_of_isIdentifier {s : String} (h : Text.isIdentifier s = true) :
    s.startsWith "$" = false ∧ s ≠ transformKey := by
  have hstart : Text.isIdentifierStart '$' = false := by decide
  have hhead : ∀ rest, s.toList ≠ '$' :: rest := by
    intro rest hs
    rw [Text.isIdentifier, hs] at h
    simp [hstart] at h
  constructor
  · rw [String.startsWith_string_eq_false_iff]
    rintro ⟨rest, hs⟩
    exact hhead rest hs.symm
  · rintro rfl
    exact hhead "transform".toList (by decide)

namespace Filter

variable {m : Model} {record : Record}

/-- The filter for records of which a field has one of some values. -/
def amongFilter (field : String) (keys : List Value) : Value :=
  .map [(field, .map [("$in", .list keys)])]

/-- The filter for records that agree with a record in some fields. -/
def sameFilter (names : List String) (record : Record) : Value :=
  .map (names.map fun name => (name, record.field name))

/-! ## Reading -/

/-- A field of a model is read as its conditions. -/
theorem runFrom_field_plain {key : String} {type : AttributeType} {value : Value}
    {conditions : List (Operator × Value)} {lines : List LogLine}
    (hkey : Entries.get? m.attributeTypes key = some type)
    (hvalue : runFrom (conditionsOn key value) lines = (.ok conditions, lines)) :
    runFrom ((plainReading m).field key value) lines =
      (.ok (conditions.map fun c => .leaf ⟨key, c.1, c.2⟩), lines) := by
  have htype : runFrom (Reported.ofOutcome ((plainReading m).fieldType key)) lines =
      (.ok (some type), lines) := by
    rw [Reported.runFrom_ofOutcome]
    simp only [plainReading, hkey]
  rw [Reading.field, runFrom_bind_of_ok htype, runFrom_bind_of_ok hvalue]
  exact runFrom_mapM fun c _ => rfl

/-- A filter on attributes is read field by field. -/
theorem runFrom_entries_plain {α : Type} {items : List α} {name : α → String} {value : α → Value}
    {conditions : α → List (Operator × Value)} {lines : List LogLine}
    (hnames : ∀ a ∈ items, Text.isIdentifier (name a) = true ∧
      ∃ type, Entries.get? m.attributeTypes (name a) = some type)
    (hvalues : ∀ a ∈ items,
      runFrom (conditionsOn (name a) (value a)) lines = (.ok (conditions a), lines)) :
    runFrom ((plainReading m).entries (items.map fun a => (name a, value a))) lines =
      (.ok (items.flatMap fun a => (conditions a).map fun c => .leaf ⟨name a, c.1, c.2⟩), lines) := by
  induction items with
  | nil => rfl
  | cons a items ih =>
    obtain ⟨hname, type, htype⟩ := hnames a List.mem_cons_self
    obtain ⟨hdollar, htransform⟩ := Text.not_startsWith_of_isIdentifier hname
    have hfield := runFrom_field_plain htype (hvalues a List.mem_cons_self)
    have hrest := ih (fun b hb => hnames b (List.mem_cons_of_mem a hb))
      (fun b hb => hvalues b (List.mem_cons_of_mem a hb))
    rw [List.map_cons, Reading.entries, if_neg htransform, hdollar,
      if_neg Bool.false_ne_true, runFrom_bind_of_ok hfield, runFrom_bind_of_ok hrest]
    rfl

/-- A filter on attributes has no key for other readers. -/
theorem withoutTransform_map {entries : Entries Value}
    (hnames : ∀ e ∈ entries, Text.isIdentifier e.1 = true) :
    withoutTransform (.map entries) = .ok entries := by
  rw [withoutTransform, Entries.erase, List.filter_eq_self.mpr]
  intro e he
  exact bne_iff_ne.mpr (Text.not_startsWith_of_isIdentifier (hnames e he)).2

/-- A filter on attributes is the conjunction of the conditions of its fields. -/
theorem runFrom_filter_plain {α : Type} (items : List α) (name : α → String) (value : α → Value)
    (conditions : α → List (Operator × Value))
    (hnames : ∀ a ∈ items, Text.isIdentifier (name a) = true ∧
      ∃ type, Entries.get? m.attributeTypes (name a) = some type)
    (hvalues : ∀ a ∈ items,
      runFrom (conditionsOn (name a) (value a)) [] = (.ok (conditions a), [])) :
    runFrom ((plainReading m).filter (.map (items.map fun a => (name a, value a)))) [] =
      (.ok (.conj (items.flatMap fun a => (conditions a).map fun c => .leaf ⟨name a, c.1, c.2⟩)),
        []) := by
  have hidentifiers : ∀ e ∈ items.map fun a => (name a, value a),
      Text.isIdentifier e.1 = true := by
    intro e he
    obtain ⟨a, ha, rfl⟩ := List.mem_map.mp he
    exact (hnames a ha).1
  rw [Reading.filter, withoutTransform_map hidentifiers,
    runFrom_bind_of_ok (Reported.runFrom_ofOutcome (.ok _) []),
    runFrom_bind_of_ok (runFrom_entries_plain hnames hvalues)]
  rfl

/-- A filter on attributes requires the conditions of its fields. -/
theorem requires_map {α : Type} (items : List α) (name : α → String) (value : α → Value)
    (conditions : α → List (Operator × Value))
    (hnames : ∀ a ∈ items, Text.isIdentifier (name a) = true ∧
      ∃ type, Entries.get? m.attributeTypes (name a) = some type)
    (hvalues : ∀ a ∈ items,
      runFrom (conditionsOn (name a) (value a)) [] = (.ok (conditions a), []))
    (haccepted : ∀ a ∈ items, ∀ c ∈ conditions a, (⟨name a, c.1, c.2⟩ : Requirement).IsAccepted m) :
    Requires m (.map (items.map fun a => (name a, value a)))
      (.conj (items.flatMap fun a => (conditions a).map fun c => .leaf ⟨name a, c.1, c.2⟩)) := by
  have hleaves : Formula.leavesOf
      (items.flatMap fun a => (conditions a).map fun c => Formula.leaf ⟨name a, c.1, c.2⟩) =
      items.flatMap fun a => (conditions a).map fun c => (⟨name a, c.1, c.2⟩ : Requirement) := by
    have hmap := Formula.leavesOf_leaves
      (items.flatMap fun a => (conditions a).map fun c => (⟨name a, c.1, c.2⟩ : Requirement))
    rwa [List.map_flatMap, List.flatMap_congr fun a _ => List.map_map] at hmap
  refine ⟨⟨[], runFrom_filter_plain items name value conditions hnames hvalues⟩, fun c hc => ?_⟩
  rw [Formula.leaves, hleaves, List.mem_flatMap] at hc
  obtain ⟨a, ha, hc⟩ := hc
  obtain ⟨condition, hcondition, rfl⟩ := List.mem_map.mp hc
  exact haccepted a ha condition hcondition

/-- A filter for some values of an attribute requires membership. -/
theorem requires_amongFilter (hm : m.IsProper) {a : Attribute} (ha : a ∈ m.attributes)
    (hname : Text.isIdentifier a.name = true) (hexact : a.type.isExact = true) {keys : List Value}
    (hkeys : ∀ k ∈ keys, a.type.Admits k) :
    Requires m (amongFilter a.name keys) (.conj [.leaf ⟨a.name, .isIn, .list keys⟩]) := by
  have htype := hm.get?_attributeTypes ha
  refine requires_map [a] (·.name) (fun _ => .map [("$in", .list keys)])
    (fun _ => [(.isIn, .list keys)]) ?_ ?_ ?_
  · simpa using ⟨hname, a.type, htype⟩
  · intro b _
    rfl
  · intro b hb c hc
    obtain rfl := List.mem_singleton.mp hb
    obtain rfl := List.mem_singleton.mp hc
    exact ⟨b.type, htype, hexact, fun k hk => (hkeys k hk).accepts⟩

/-- A value of a type stands for equality with itself. -/
theorem conditionsOn_of_admits {type : AttributeType} {v : Value} (hv : type.Admits v)
    (field : String) (lines : List LogLine) :
    runFrom (conditionsOn field v) lines = (.ok [(.eq, v)], lines) := by
  rcases hv with rfl | hv
  · rfl
  · cases hv <;> rfl

/-- A filter for the fields of a record requires them one by one. -/
theorem requires_sameFilter (hm : m.IsDeclared) (hproper : m.IsProper) {as : List Attribute}
    (has : ∀ a ∈ as, a ∈ m.attributes ∧ a.type.isExact = true ∧ a.type.Admits (record.field a.name)) :
    Requires m (sameFilter (as.map (·.name)) record)
      (.conj (as.map fun a => .leaf ⟨a.name, .eq, record.field a.name⟩)) := by
  have h := @requires_map m _ as (·.name) (fun a => record.field a.name)
    (fun a => [(.eq, record.field a.name)]) ?_ ?_ ?_
  · rw [sameFilter, List.map_map]
    simp only [List.map_cons, List.map_nil, ← List.map_eq_flatMap] at h
    exact h
  · intro a ha
    exact ⟨hm.attributes a (has a ha).1, a.type, hproper.get?_attributeTypes (has a ha).1⟩
  · intro a ha
    exact conditionsOn_of_admits (has a ha).2.2 a.name []
  · intro a ha c hc
    obtain rfl := List.mem_singleton.mp hc
    obtain ⟨hmem, hexact, hadmits⟩ := has a ha
    exact ⟨a.type, hproper.get?_attributeTypes hmem, hexact, hadmits.accepts⟩

/-! ## Selection -/

/-- The test of a formula is the formula of its conditions on cells. -/
theorem selects_testOf (m : Model) (f : Formula Requirement) (row : Row) :
    (testOf m f).selects row =
      f.eval fun c => ((storeReading m).leafOf m c).get.condition.holds? row == some true := by
  rw [Test.selects_eq_eval, testOf, Clause.eval_map, clauseOf, Clause.eval_ofFormula,
    Formula.eval_map]
  rfl

/-- A cell is a member of a list of cells exactly if it is the same as one of them. -/
theorem memberOf?_eq_true_iff {cell : Cell} {operands : List Cell} :
    ((Condition.memberOf? cell operands).map (· != false) == some true) = true ↔
      ∃ operand ∈ operands, cell.sameKey operand = true := by
  have hnull (h : cell.isNull = true) : ∀ operand ∈ operands, ¬cell.sameKey operand = true := by
    intro operand _
    rw [Cell.sameKey, Cell.compare?, h]
    exact Bool.false_ne_true
  rw [beq_iff_eq, ← List.any_eq_true]
  unfold Condition.memberOf?
  split_ifs with hempty hmissing hany hnone
  · rw [List.isEmpty_iff.mp hempty]
    simp
  · simp only [List.any_eq_true, Option.map_none, reduceCtorEq, false_iff, not_exists, not_and]
    exact hnull hmissing
  · simp [hany]
  · simp [hany]
  · simp [hany]

/-- A filter for some values selects the rows that have the cell of one of them. -/
theorem selects_amongFilter (hm : m.IsProper) {a : Attribute} (ha : a ∈ m.attributes)
    (hexact : a.type.isExact = true) {keys : List Value} (hkeys : ∀ k ∈ keys, a.type.Holds k)
    {row : Row} {v : Value} (hv : a.type.Admits v) (hcell : row.cell a.name = storedCell v) :
    (testOf m (.conj [.leaf ⟨a.name, .isIn, .list keys⟩])).selects row = true ↔ v ∈ keys := by
  have hadmits : ∀ k ∈ keys, a.type.Admits k := fun k hk => Or.inr (hkeys k hk)
  have hcoerce : keys.mapM (coerce (some a.type)) = .ok keys := by
    have h : keys.mapM (coerce (some a.type)) = .ok (keys.map id) :=
      Outcome.mapM_eq_ok fun k hk => coerce_of_admits (hadmits k hk)
    rwa [List.map_id] at h
  have hleaf : (storeReading m).leafOf m ⟨a.name, .isIn, .list keys⟩ =
      .ok ⟨a.name, a.type, .isIn, .list keys⟩ := by
    simp [Reading.leafOf, hm.get?_attributeTypes ha, storeReading, Operator.takesList,
      Operator.isOrdering, Operator.candidates, hcoerce]
  have hcondition := (isReady_member a.name false hexact hadmits).2
  rw [selects_testOf, Formula.eval, Formula.evalAll, Formula.evalAll, Formula.eval, hleaf,
    Bool.and_true]
  simp only [Outcome.get, Bool.false_eq_true, if_false] at hcondition ⊢
  rw [hcondition, Condition.holds?, hcell, (mapM_bound hexact hadmits).2.2, memberOf?_eq_true_iff]
  constructor
  · rintro ⟨cell, hmem, hsame⟩
    obtain ⟨k, hk, rfl⟩ := List.mem_map.mp hmem
    rcases hv with rfl | hv
    · cases hsame
    · rwa [(sameKey_storedCell_iff hv (hkeys k hk)).mp hsame]
  · intro hmem
    refine ⟨storedCell v, List.mem_map_of_mem hmem, ?_⟩
    exact (sameKey_storedCell_iff (hkeys v hmem) (hkeys v hmem)).mpr rfl

/-- A filter for the fields of a record selects the rows that have the cells of the record. -/
theorem selects_sameFilter (hm : m.IsProper) {as : List Attribute}
    (has : ∀ a ∈ as, a ∈ m.attributes ∧ a.type.isExact = true ∧ a.type.Holds (record.field a.name))
    (row : Row) :
    (testOf m (.conj (as.map fun a => .leaf ⟨a.name, .eq, record.field a.name⟩))).selects row =
      as.all fun a => (row.cell a.name).sameKey (storedCell (record.field a.name)) := by
  rw [selects_testOf, Formula.eval]
  induction as with
  | nil => rfl
  | cons a as ih =>
    obtain ⟨ha, hexact, hholds⟩ := has a List.mem_cons_self
    have hleaf : (storeReading m).leafOf m ⟨a.name, .eq, record.field a.name⟩ =
        .ok ⟨a.name, a.type, .eq, record.field a.name⟩ := by
      simp [Reading.leafOf, hm.get?_attributeTypes ha, storeReading, Operator.takesList,
        Operator.isOrdering, coerce_of_admits (Or.inr hholds)]
    have hcondition := (isReady_compare a.name hholds (Or.inl rfl)).2
    rw [List.map_cons, Formula.evalAll, Formula.eval, hleaf, List.all_cons,
      ih fun b hb => has b (List.mem_cons_of_mem a hb)]
    refine congrArg (· && _) ?_
    simp only [Outcome.get]
    rw [hcondition, Condition.holds?, Condition.compared?, store_storedCell (Or.inr hholds),
      Cell.sameKey]
    cases (row.cell a.name).compare? (storedCell (record.field a.name)) with
    | none => rfl
    | some o => cases o <;> rfl

end Filter

end TwinStore
