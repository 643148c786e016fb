import TwinStore.Filter.Predicate
import TwinStore.Primary.Database
import TwinStore.Proofs.ClauseTruth
import TwinStore.Proofs.Entries
import TwinStore.Proofs.StoredCell

/-!
# One filter, two stores

A filter is read as a clause over the columns of a table and as a predicate on records.  On a row
and the record that it stores both say the same: the clause is true exactly where the predicate
holds.

Main definitions:

- `Requirement.IsAccepted`, `Filter.Requires`: the filters that both stores can read, and the
  formula of what they require.
- `Primary.Represents`: whether a row stores a record.

Main results:

- Theorem `Requirement.agrees`: one condition selects the row where it holds of the record.
- Theorem `Requires.selects_eq`: the same for whole filters.
-/

namespace TwinStore

open Primary

namespace Primary

/-- Whether a row stores a record, as far as the columns of exact types are concerned. -/
def Represents (m : Model) (row : Row) (record : Record) : Prop :=
  ∀ field type, Entries.get? m.attributeTypes field = some type → type.isExact = true →
    type.Admits (record.field field) ∧ row.cell field = storedCell (record.field field)

end Primary

namespace Filter

instance : Inhabited Comparison := ⟨⟨"", .str, .eq, .null⟩⟩

instance : Inhabited Check := ⟨⟨"", none, .eq, .null⟩⟩

instance {α : Type} : Inhabited (Condition α) := ⟨.missing "" false⟩

/-! ## Filters that both stores can read -/

/-- Whether the operand of a condition on an attribute is null, of the type of the attribute, or
written in a form from which coercion makes such a value.  Only what has an order may be asked for
by order, and any operand may be given to the question whether a value is there. -/
def Requirement.Suits (c : Requirement) (type : AttributeType) : Prop :=
  match c.operator with
  | .present => True
  | .isIn | .notIn => ∀ v ∈ Operator.candidates c.operand, type.Accepts v
  | .eq => type.Accepts c.operand
  | _ => type.Accepts c.operand ∧ isUnordered c.operand = false

/-- Whether a condition is one on an attribute of an exact type, with an operand that suits it. -/
def Requirement.IsAccepted (m : Model) (c : Requirement) : Prop :=
  ∃ type, Entries.get? m.attributeTypes c.field = some type ∧ type.isExact = true ∧ c.Suits type

/-- Whether all conditions of a formula are accepted. -/
def Formula.IsAccepted (m : Model) (f : Formula Requirement) : Prop := ∀ c ∈ f.leaves, c.IsAccepted m

/-- Whether a filter over a model requires a formula, all of whose conditions are accepted. -/
def Requires (m : Model) (where_ : Value) (f : Formula Requirement) : Prop :=
  (∃ lines, runFrom ((plainReading m).filter where_) [] = (.ok f, lines)) ∧ f.IsAccepted m

/-! ## Candidates -/

/-- Accepted candidates become values of the type, and compare as those. -/
theorem exists_candidates {type : AttributeType} {vs : List Value}
    (h : ∀ v ∈ vs, type.Accepts v) :
    ∃ ws, vs.mapM (coerce (some type)) = .ok ws ∧ (∀ w ∈ ws, type.Admits w) ∧
      vs.mapM (comparable (some type)) = .ok (ws.map Value.measure) := by
  induction vs with
  | nil => exact ⟨[], rfl, by simp, rfl⟩
  | cons v vs ih =>
    obtain ⟨ws, hws, hadmits, hmeasure⟩ := ih fun u hu => h u (List.mem_cons_of_mem v hu)
    obtain ⟨w, hw, hwadmits⟩ := h v List.mem_cons_self
    refine ⟨w :: ws, ?_, ?_, ?_⟩
    · rw [Outcome.mapM_cons, hw, hws]
      rfl
    · intro u hu
      rcases List.mem_cons.mp hu with rfl | hu
      · exact hwadmits
      · exact hadmits u hu
    · rw [Outcome.mapM_cons, comparable_of_coerce hw hwadmits, hmeasure]
      rfl

/-- The kind of the first candidate is the kind that the column expects. -/
theorem ofOperands_of_admits {type : AttributeType} {ws : List Value}
    (h : ∀ w ∈ ws, type.Admits w) :
    (Binding.ofType type).ofOperands ws = Binding.ofType type := by
  cases ws with
  | nil => rfl
  | cons w ws => exact ofOperand_of_admits (h w List.mem_cons_self)

/-! ## Single conditions -/

/-- Null equals no value of a type. -/
theorem equal?_null {type : AttributeType} {w : Value} (hw : type.Holds w) :
    Value.equal? .null w.measure = some false ∧ Value.equal? w.measure .null = some false := by
  cases hw <;> exact ⟨rfl, rfl⟩

/-- Equality of values of a type is sameness of their cells. -/
theorem equal?_measure {type : AttributeType} {v w : Value} (hv : type.Holds v)
    (hw : type.Admits w) :
    v.measure.equal? w.measure = some ((storedCell v).sameKey (storedCell w)) := by
  rcases hw with rfl | hw
  · rw [show Value.measure .null = .null from rfl, (equal?_null hv).2]
    cases hv <;> rfl
  · obtain ⟨o, hcell, _, hequal⟩ := compare_storedCell hv hw
    rw [hequal, Cell.sameKey, hcell]
    cases o <;> rfl

/-- A value is a member where its cell is the same as one of the cells. -/
theorem isMember?_measure {type : AttributeType} {v : Value} {ws : List Value}
    (hv : type.Holds v) (hws : ∀ w ∈ ws, type.Admits w) :
    v.measure.isMember? (ws.map Value.measure) =
      some ((ws.map storedCell).any ((storedCell v).sameKey ·)) := by
  induction ws with
  | nil => rfl
  | cons w ws ih =>
    rw [List.map_cons, Value.isMember?, equal?_measure hv (hws w List.mem_cons_self),
      ih fun u hu => hws u (List.mem_cons_of_mem w hu), List.map_cons, List.any_cons]
    cases (storedCell v).sameKey (storedCell w) <;> rfl

/-- A null among values is an empty cell among cells. -/
theorem any_isNull {type : AttributeType} {ws : List Value} (hws : ∀ w ∈ ws, type.Admits w) :
    (ws.map Value.measure).any Value.isNull = (ws.map storedCell).any Cell.isNull := by
  induction ws with
  | nil => rfl
  | cons w ws ih =>
    rw [List.map_cons, List.any_cons, ih fun u hu => hws u (List.mem_cons_of_mem w hu),
      List.map_cons, List.any_cons, Value.isNull_measure,
      isNull_storedCell (hws w List.mem_cons_self)]

/-- Membership and its opposite say the same of values and of cells. -/
theorem membership_agrees {type : AttributeType} {v : Value} {ws : List Value}
    (hv : type.Admits v) (hws : ∀ w ∈ ws, type.Admits w) (negated : Bool) :
    Operator.holds (if negated then .notIn else .isIn) v.measure (.list (ws.map Value.measure)) =
      .ok ((Condition.memberOf? (storedCell v) (ws.map storedCell)).map (· != negated)
        == some true) := by
  have hempty : (ws.map Value.measure).isEmpty = (ws.map storedCell).isEmpty := by
    cases ws <;> rfl
  have hnulls := any_isNull hws
  have hnull := isNull_storedCell hv
  rcases hv with rfl | hv
  · cases negated
    · simp only [Condition.memberOf?, hnull]
      cases (ws.map storedCell).isEmpty <;> rfl
    · simp only [Operator.holds, Operator.candidates, hempty, Condition.memberOf?, hnull]
      cases (ws.map storedCell).isEmpty <;> rfl
  · rw [AttributeType.isNull_of_holds hv] at hnull
    have hmember := isMember?_measure hv hws
    cases negated
    · simp only [Operator.holds, Operator.candidates, Value.isNull_measure, hmember,
        AttributeType.isNull_of_holds hv, Condition.memberOf?, hnull]
      cases ws with
      | nil => rfl
      | cons w ws =>
        cases ((w :: ws).map storedCell).any ((storedCell v).sameKey ·) <;>
          cases ((w :: ws).map storedCell).any Cell.isNull <;> rfl
    · simp only [Operator.holds, Operator.candidates, Value.isNull_measure, hmember, hempty, hnulls,
        AttributeType.isNull_of_holds hv, Condition.memberOf?, hnull]
      cases ws with
      | nil => rfl
      | cons w ws =>
        cases ((w :: ws).map storedCell).any ((storedCell v).sameKey ·) <;>
          cases ((w :: ws).map storedCell).any Cell.isNull <;> rfl

/-- Comparisons say the same of values and of cells. -/
theorem comparison_agrees {type : AttributeType} {v w : Value} {op : Operator}
    (hv : type.Admits v) (hw : type.Holds w) (hop : op = .eq ∨ op.isOrdering = true) :
    op.holds v.measure w.measure =
      .ok (Condition.compared? op (storedCell v) (storedCell w) == some true) := by
  have hoperand : w.measure.isNull = false := by
    rw [Value.isNull_measure, AttributeType.isNull_of_holds hw]
  rcases hv with rfl | hv
  · have hequal := (equal?_null hw).1
    rw [show Value.measure .null = .null from rfl]
    cases op with
    | eq => simp only [Operator.holds, hoperand, hequal]; rfl
    | gt | gte | lt | lte => simp only [Operator.holds]; rfl
    | present | isIn | notIn => rcases hop with hop | hop <;> cases hop
  · have hvalue : v.measure.isNull = false := by
      rw [Value.isNull_measure, AttributeType.isNull_of_holds hv]
    obtain ⟨o, hcell, horder, hequal⟩ := compare_storedCell hv hw
    cases op with
    | eq =>
      simp only [Operator.holds, hoperand, hequal, Condition.compared?, hcell]
      cases o <;> rfl
    | gt | gte | lt | lte =>
      simp only [Operator.holds, hoperand, hvalue, horder, Condition.compared?, hcell]
      cases o <;> rfl
    | present | isIn | notIn => rcases hop with hop | hop <;> cases hop

/-! ## Conditions read by both stores -/

/-- The condition of a comparison, its operands as cells. -/
def Comparison.condition (c : Comparison) : Condition Cell :=
  ((Condition.ofComparison c).get.mapOutcome cellOf).get

/-- Whether a comparison can be turned into a condition on cells. -/
def Comparison.IsReady (c : Comparison) : Prop :=
  Condition.ofComparison c = .ok (Condition.ofComparison c).get ∧
    (Condition.ofComparison c).get.mapOutcome cellOf = .ok c.condition

/-- A condition on cells that is known makes a comparison ready. -/
theorem Comparison.isReady_of_eq {c : Comparison} {prepared : Condition Value}
    {condition : Condition Cell} (hprepared : Condition.ofComparison c = .ok prepared)
    (hcondition : prepared.mapOutcome cellOf = .ok condition) :
    c.IsReady ∧ c.condition = condition := by
  have h : c.condition = condition := by
    rw [Comparison.condition, hprepared]
    exact congrArg Outcome.get hcondition
  refine ⟨⟨by rw [hprepared]; rfl, ?_⟩, h⟩
  rw [h, hprepared]
  exact hcondition

/-- Values of the type of a column are prepared, and become their cells. -/
theorem mapM_bound {type : AttributeType} {ws : List Value} (hexact : type.isExact = true)
    (hws : ∀ w ∈ ws, type.Admits w) :
    ws.mapM (Binding.ofType type).prepare = .ok (ws.map Value.bound) ∧
      (ws.map Value.bound).mapM cellOf = .ok (ws.map storedCell) ∧
      (ws.map storedCell).map (Affinity.ofType type).store = ws.map storedCell := by
  refine ⟨Outcome.mapM_eq_ok fun w hw => prepare_of_admits hexact (hws w hw), ?_, ?_⟩
  · rw [Outcome.mapM_eq_ok_iff, List.forall₂_map_left_iff, List.forall₂_map_right_iff,
      List.forall₂_same]
    exact fun w hw => cellOf_bound (hws w hw)
  · rw [List.map_map, List.map_inj_left]
    exact fun w hw => store_storedCell (hws w hw)

/-- A comparison with a value of the type of the column is one of cells. -/
theorem isReady_compare {type : AttributeType} {w : Value} (field : String) {op : Operator}
    (hw : type.Holds w) (hop : op = .eq ∨ op.isOrdering = true) :
    (⟨field, type, op, w⟩ : Comparison).IsReady ∧
      (⟨field, type, op, w⟩ : Comparison).condition =
        .compare field (Affinity.ofType type) op (storedCell w) := by
  have hprepared : Condition.ofComparison ⟨field, type, op, w⟩ =
      .ok (.compare field (Affinity.ofType type) op w.bound) := by
    cases op with
    | eq | gt | gte | lt | lte => cases hw <;> rfl
    | present | isIn | notIn => rcases hop with hop | hop <;> cases hop
  refine Comparison.isReady_of_eq hprepared ?_
  rw [Condition.mapOutcome, cellOf_bound (Or.inr hw)]
  rfl

/-- Membership among values of the type of the column is one of cells. -/
theorem isReady_member {type : AttributeType} {ws : List Value} (field : String) (negated : Bool)
    (hexact : type.isExact = true) (hws : ∀ w ∈ ws, type.Admits w) :
    (⟨field, type, if negated then .notIn else .isIn, .list ws⟩ : Comparison).IsReady ∧
      (⟨field, type, if negated then .notIn else .isIn, .list ws⟩ : Comparison).condition =
        .member field (Affinity.ofType type) negated (ws.map storedCell) := by
  obtain ⟨hbound, hcells, _⟩ := mapM_bound hexact hws
  have hprepared : Condition.ofComparison
      ⟨field, type, if negated then .notIn else .isIn, .list ws⟩ =
      .ok (.member field (Affinity.ofType type) negated (ws.map Value.bound)) := by
    cases negated <;>
      simp [Condition.ofComparison, Operator.candidates, ofOperands_of_admits hws, hbound]
  refine Comparison.isReady_of_eq hprepared ?_
  rw [Condition.mapOutcome, hcells]
  rfl

/-- The reading of a table knows its columns. -/
theorem knows_storeReading (m : Model) : (storeReading m).Knows m := by
  intro field type h
  simp only [storeReading, h]

/-- The reading of records knows the fields of the model. -/
theorem knows_recordReading (m : Model) :
    (recordReading (some m.attributeTypes)).Knows m := by
  intro field type h
  simp only [recordReading, h]

/-- Whether a condition is read for a table and for records, and selects a row exactly where it
holds of the record that the row stores. -/
def Requirement.Agrees (m : Model) (c : Requirement) : Prop :=
  ∃ comparison check,
    (storeReading m).leafOf m c = .ok comparison ∧
    (recordReading (some m.attributeTypes)).leafOf m c = .ok check ∧
    comparison.IsReady ∧
    ∀ row record, Represents m row record →
      check.holdsFor record = .ok (comparison.condition.holds? row == some true)

section

variable {m : Model} {field : String} {type : AttributeType} {operand : Value}

/-- A check compares the field of a record with the operand. -/
theorem holdsFor_of_represents {row : Row} {record : Record} (op : Operator) (form : Value)
    (hfield : Entries.get? m.attributeTypes field = some type) (hexact : type.isExact = true)
    (hrow : Represents m row record) :
    (⟨field, some type, op, form⟩ : Check).holdsFor record =
      op.holds (record.field field).measure form := by
  rw [Check.holdsFor, comparable_of_admits (hrow field type hfield hexact).1]

/-- Questions for null agree. -/
theorem missing_agrees {row : Row} {record : Record} (negated : Bool)
    (hfield : Entries.get? m.attributeTypes field = some type) (hexact : type.isExact = true)
    (hrow : Represents m row record) :
    ((record.field field).measure.isNull != negated) =
      ((Condition.missing field negated).holds? row == some true) := by
  obtain ⟨hvalue, hcell⟩ := hrow field type hfield hexact
  rw [Condition.holds?, Value.isNull_measure, hcell, isNull_storedCell hvalue]
  cases (record.field field).isNull <;> cases negated <;> rfl

/-- A question whether a value is there agrees. -/
theorem agrees_present (operand : Value)
    (hfield : Entries.get? m.attributeTypes field = some type) (hexact : type.isExact = true) :
    (⟨field, .present, operand⟩ : Requirement).Agrees m := by
  refine ⟨⟨field, type, .present, operand⟩, ⟨field, some type, .present, operand⟩, ?_, ?_,
    ⟨rfl, rfl⟩, fun row record hrow => ?_⟩
  · simp [Reading.leafOf, hfield, storeReading, Operator.takesList, Operator.isOrdering]
  · simp [Reading.leafOf, hfield, recordReading, Operator.takesList]
  · have hmissing := missing_agrees operand.isTruthy hfield hexact hrow
    rw [holdsFor_of_represents _ _ hfield hexact hrow, Operator.holds]
    change _ = Except.ok ((Condition.missing field operand.isTruthy).holds? row == some true)
    rw [← hmissing]
    cases (record.field field).measure.isNull <;> cases operand.isTruthy <;> rfl

/-- A comparison with a value of the type agrees. -/
theorem agrees_compare {op : Operator} {w : Value}
    (hfield : Entries.get? m.attributeTypes field = some type) (hop : op = .eq ∨ op.isOrdering = true)
    (hcoerce : coerce (some type) operand = .ok w) (hw : type.Holds w)
    (hordered : (op.isOrdering && isUnordered w) = false) :
    (⟨field, op, operand⟩ : Requirement).Agrees m := by
  have hexact := AttributeType.isExact_of_holds hw
  obtain ⟨hready, hcondition⟩ := isReady_compare field hw hop
  have hkind : op.takesList = false ∧ op ≠ .present := by
    cases op <;> first | exact ⟨rfl, by decide⟩ | (rcases hop with hop | hop <;> cases hop)
  refine ⟨⟨field, type, op, w⟩, ⟨field, some type, op, w.measure⟩, ?_, ?_, hready,
    fun row record hrow => ?_⟩
  · simp [Reading.leafOf, hfield, storeReading, hkind, hcoerce]
    intro hop hunordered
    rw [hop, hunordered] at hordered
    cases hordered
  · simp [Reading.leafOf, hfield, recordReading, hkind, comparable_of_coerce hcoerce (Or.inr hw)]
  · obtain ⟨hvalue, hcell⟩ := hrow field type hfield hexact
    rw [holdsFor_of_represents _ _ hfield hexact hrow, hcondition, comparison_agrees hvalue hw hop,
      Condition.holds?, hcell, store_storedCell (Or.inr hw)]

/-- Equality with null agrees: it asks whether a value is missing. -/
theorem agrees_null (hfield : Entries.get? m.attributeTypes field = some type)
    (hexact : type.isExact = true) (hcoerce : coerce (some type) operand = .ok .null) :
    (⟨field, .eq, operand⟩ : Requirement).Agrees m := by
  refine ⟨⟨field, type, .eq, .null⟩, ⟨field, some type, .eq, .null⟩, ?_, ?_, ⟨rfl, rfl⟩,
    fun row record hrow => ?_⟩
  · simp [Reading.leafOf, hfield, storeReading, Operator.takesList, Operator.isOrdering, hcoerce]
  · simp [Reading.leafOf, hfield, recordReading, Operator.takesList,
      comparable_of_coerce hcoerce (Or.inl rfl), Value.measure]
  · have hmissing := missing_agrees false hfield hexact hrow
    rw [Bool.bne_false] at hmissing
    rw [holdsFor_of_represents _ _ hfield hexact hrow]
    exact congrArg Except.ok hmissing

/-- Membership and its opposite agree. -/
theorem agrees_member (negated : Bool) (hfield : Entries.get? m.attributeTypes field = some type)
    (hexact : type.isExact = true) (hop : ∀ v ∈ Operator.candidates operand, type.Accepts v) :
    (⟨field, if negated then .notIn else .isIn, operand⟩ : Requirement).Agrees m := by
  obtain ⟨ws, hws, hadmits, hmeasure⟩ := exists_candidates hop
  obtain ⟨hready, hcondition⟩ := isReady_member field negated hexact hadmits
  refine ⟨⟨field, type, if negated then .notIn else .isIn, .list ws⟩,
    ⟨field, some type, if negated then .notIn else .isIn, .list (ws.map Value.measure)⟩, ?_, ?_,
    hready, fun row record hrow => ?_⟩
  · cases negated <;> simp [Reading.leafOf, hfield, storeReading, Operator.takesList,
      Operator.isOrdering, hws]
  · cases negated <;> simp [Reading.leafOf, hfield, recordReading, Operator.takesList, hmeasure]
  · obtain ⟨hvalue, hcell⟩ := hrow field type hfield hexact
    rw [holdsFor_of_represents _ _ hfield hexact hrow, hcondition,
      membership_agrees hvalue hadmits, Condition.holds?, hcell, (mapM_bound hexact hadmits).2.2]

end

/-- An accepted condition selects a row exactly where it holds of the record that the row stores. -/
theorem Requirement.agrees {m : Model} {c : Requirement} (hc : c.IsAccepted m) : c.Agrees m := by
  obtain ⟨field, op, operand⟩ := c
  obtain ⟨type, hfield, hexact, hsuits⟩ := hc
  have hordering (hop : op.isOrdering = true)
      (hsuits : type.Accepts operand ∧ isUnordered operand = false) :
      (⟨field, op, operand⟩ : Requirement).Agrees m := by
    obtain ⟨⟨w, hcoerce, hadmits⟩, hunordered⟩ := hsuits
    have hordered := isUnordered_of_coerce hexact hcoerce
    rw [hunordered] at hordered
    rcases hadmits with rfl | hw
    · cases hordered
    · exact agrees_compare hfield (Or.inr hop) hcoerce hw (by rw [hordered, Bool.and_false])
  cases op with
  | present => exact agrees_present operand hfield hexact
  | eq =>
    obtain ⟨w, hcoerce, rfl | hw⟩ := hsuits
    · exact agrees_null hfield hexact hcoerce
    · exact agrees_compare hfield (Or.inl rfl) hcoerce hw rfl
  | gt | gte | lt | lte => exact hordering rfl hsuits
  | isIn => exact agrees_member false hfield hexact hsuits
  | notIn => exact agrees_member true hfield hexact hsuits

/-! ## Filters read by both stores -/

/-- The clause of a formula over the table of a model. -/
def clauseOf (m : Model) (f : Formula Requirement) : Clause Comparison :=
  Clause.ofFormula (f.map fun c => ((storeReading m).leafOf m c).get)

/-- The test of a formula on the rows of a model. -/
def testOf (m : Model) (f : Formula Requirement) : Test :=
  (clauseOf m f).map Comparison.condition

/-- The checks of a formula on the records of a model. -/
def checksOf (m : Model) (f : Formula Requirement) : Formula Check :=
  f.map fun c => ((recordReading (some m.attributeTypes)).leafOf m c).get

mutual

/-- A formula whose checks all have an answer has one. -/
theorem Formula.holdsFor_eq_ok {record : Record} {p : Check → Bool} : ∀ {f : Formula Check},
    (∀ c ∈ f.leaves, c.holdsFor record = .ok (p c)) → f.holdsFor record = .ok (f.eval p)
  | .leaf c, h => h c (by simp [leaves])
  | .conj parts, h => by rw [holdsFor, eval, allHoldFor_eq_ok h]
  | .disj parts, h => by rw [holdsFor, eval, someHoldsFor_eq_ok h]

theorem Formula.allHoldFor_eq_ok {record : Record} {p : Check → Bool} :
    ∀ {fs : List (Formula Check)}, (∀ c ∈ leavesOf fs, c.holdsFor record = .ok (p c)) →
      allHoldFor record fs = .ok (evalAll p fs)
  | [], _ => rfl
  | f :: fs, h => by
    simp only [leavesOf, List.mem_append] at h
    rw [allHoldFor, evalAll, holdsFor_eq_ok fun c hc => h c (Or.inl hc),
      allHoldFor_eq_ok fun c hc => h c (Or.inr hc)]
    cases f.eval p <;> rfl

theorem Formula.someHoldsFor_eq_ok {record : Record} {p : Check → Bool} :
    ∀ {fs : List (Formula Check)}, (∀ c ∈ leavesOf fs, c.holdsFor record = .ok (p c)) →
      someHoldsFor record fs = .ok (evalAny p fs)
  | [], _ => rfl
  | f :: fs, h => by
    simp only [leavesOf, List.mem_append] at h
    rw [someHoldsFor, evalAny, holdsFor_eq_ok fun c hc => h c (Or.inl hc),
      someHoldsFor_eq_ok fun c hc => h c (Or.inr hc)]
    cases f.eval p <;> rfl

end

/-- A clause whose conditions can be turned into conditions on cells is made ready for the rows of its
table. -/
theorem prepare_eq_of_isReady {m : Model} {f : Formula Requirement}
    (h : ∀ comparison ∈ (clauseOf m f).leaves, comparison.IsReady) :
    ∃ prepared, Database.prepare (clauseOf m f) = .ok prepared ∧
      Database.ready prepared = .ok (testOf m f) := by
  refine ⟨_, Clause.mapOutcome_eq_ok fun c hc => (h c hc).1, ?_⟩
  have hready := @Clause.mapOutcome_eq_ok (Condition Value) (Condition Cell) _
    (Condition.mapOutcome cellOf) ((clauseOf m f).map fun c => (Condition.ofComparison c).get) ?_
  · rw [Database.ready, hready, Clause.map_map]
    rfl
  · intro condition hc
    rw [Clause.leaves_map] at hc
    obtain ⟨c, hmem, rfl⟩ := List.mem_map.mp hc
    exact (h c hmem).2

namespace Formula.IsAccepted

variable {m : Model} {f : Formula Requirement}

/-- The conditions of the clause of an accepted formula can be turned into conditions on cells. -/
theorem isReady_of_mem (h : f.IsAccepted m) {comparison : Comparison}
    (hc : comparison ∈ (clauseOf m f).leaves) : comparison.IsReady := by
  have hleaf := Clause.leaves_ofFormula hc
  rw [Formula.leaves_map] at hleaf
  obtain ⟨c, hmem, rfl⟩ := List.mem_map.mp hleaf
  obtain ⟨comparison, _, hleaf, _, hready, _⟩ := Requirement.agrees (h c hmem)
  rw [hleaf]
  exact hready

/-- The clause of an accepted formula is made ready for the rows of its table. -/
theorem prepare_eq (h : f.IsAccepted m) :
    ∃ prepared, Database.prepare (clauseOf m f) = .ok prepared ∧
      Database.ready prepared = .ok (testOf m f) :=
  prepare_eq_of_isReady fun _ => h.isReady_of_mem

end Formula.IsAccepted

/-- No filter requires nothing. -/
theorem requires_null (m : Model) : Requires m .null (.conj []) :=
  ⟨⟨[], rfl⟩, by simp [Formula.IsAccepted, Formula.leaves, Formula.leavesOf]⟩

namespace Requires

variable {m : Model} {where_ : Value} {f : Formula Requirement}

/-- The key for other readers says nothing. -/
theorem erase {entries : Entries Value} (h : Requires m (.map entries) f) :
    Requires m (.map (Entries.erase entries transformKey)) f := by
  have hfilter : (plainReading m).filter (.map (Entries.erase entries transformKey)) =
      (plainReading m).filter (.map entries) := by
    unfold Reading.filter withoutTransform
    simp [Entries.erase, List.filter_filter]
  exact ⟨by rw [hfilter]; exact h.1, h.2⟩

/-- The reading of a table reads every condition of an accepted filter. -/
theorem canRead_store (h : Requires m where_ f) : (storeReading m).CanRead m f.leaves := by
  intro c hc
  obtain ⟨comparison, _, hleaf, _⟩ := Requirement.agrees (h.2 c hc)
  rw [hleaf]
  rfl

/-- The reading of records reads every condition of an accepted filter. -/
theorem canRead_record (h : Requires m where_ f) :
    (recordReading (some m.attributeTypes)).CanRead m f.leaves := by
  intro c hc
  obtain ⟨_, check, _, hleaf, _⟩ := Requirement.agrees (h.2 c hc)
  rw [hleaf]
  rfl

/-- Both stores read an accepted filter, with the same warnings. -/
theorem run_eq (h : Requires m where_ f) :
    ∃ lines, (toClause where_ m).run = (lines, .ok (clauseOf m f)) ∧
      (Predicate.ofFilter where_ (some m.attributeTypes)).run =
        (lines, .ok fun record => (checksOf m f).holdsFor record) := by
  obtain ⟨lines, hplain⟩ := h.1
  have hstore := Reading.filter_of_plain (knows_storeReading m) hplain h.canRead_store
  have hrecord := Reading.filter_of_plain (knows_recordReading m) hplain h.canRead_record
  have hswap {α : Type} {x : Reported α} {a : α} (hx : runFrom x [] = (.ok a, lines)) :
      x.run = (lines, .ok a) := by
    rw [Reported.run, ← runFrom, hx]
  exact ⟨lines, hswap ((runFrom_bind_of_ok hstore).trans rfl),
    hswap ((runFrom_bind_of_ok hrecord).trans rfl)⟩

/-- An accepted filter selects a row exactly where it holds of the record that the row stores. -/
theorem selects_eq (h : Requires m where_ f) {row : Row} {record : Record}
    (hrow : Represents m row record) :
    (checksOf m f).holdsFor record = .ok ((testOf m f).selects row) := by
  have hchecks : ∀ check ∈ (checksOf m f).leaves,
      check.holdsFor record = .ok (check.holdsFor record).get := by
    intro check hcheck
    rw [checksOf, Formula.leaves_map] at hcheck
    obtain ⟨c, hc, rfl⟩ := List.mem_map.mp hcheck
    obtain ⟨_, check, _, hleaf, _, hagrees⟩ := Requirement.agrees (h.2 c hc)
    simp only [hleaf, Outcome.get, hagrees row record hrow]
  rw [Formula.holdsFor_eq_ok hchecks, Test.selects_eq_eval, testOf, Clause.eval_map, clauseOf,
    Clause.eval_ofFormula, Formula.eval_map, checksOf, Formula.eval_map]
  refine congrArg Except.ok (Formula.eval_congr fun c hc => ?_)
  obtain ⟨comparison, check, hstore, hrecord, _, hagrees⟩ := Requirement.agrees (h.2 c hc)
  simp only [Function.comp_apply, hstore, hrecord, Outcome.get, hagrees row record hrow]

end Requires

end Filter

end TwinStore
