import TwinStore.Cache.Member
import TwinStore.Primary.Binding
import TwinStore.Proofs.AcceptedFilters
import TwinStore.Proofs.Content
import TwinStore.Proofs.Outcome
import TwinStore.Proofs.RoundedOrder

/-!
# Decimal numbers in tables and filters

A table keeps the nearest double of a decimal number, as an integer where it is one, and compares it
with the nearest double of an operand.  The number goes on to the cache as it is read back from the
table, and is compared there with the operand itself.  So the two comparisons agree where the number in
the cache has the double that is stored, and is the only one of that double among the operands; and then
every filter says the same of the row and of the record.

Main definitions:

- `Decimal.SharesDouble`: numbers with one nearest double.
- `Primary.decimalCell`, `recalled`: what a table keeps of a decimal number, and what the cache gives
  back of it.
- `Primary.Cell.ComparesLike`: cells that compare with an operand like a number.
- `Requirement.AgreesOn`: a condition that selects a row exactly where it holds of a record.
- `Requirement.NamesNumbers`: a condition all of whose operands name finite numbers of some kind.

Main results:

- Theorem `comparesLike_decimalCell`: what a table keeps compares like the number in the cache, if that
  is told from the operand by its double.
- Theorem `Requirement.agreesOn_of_comparesLike`: conditions on a decimal number agree, for each of the
  operators.
- Theorem `IsWritten.agrees`: filters of agreeing conditions agree.
-/

namespace TwinStore

open Number Primary

namespace Number.Decimal

variable {d e f : Decimal} {p q : ℚ}

/-- Whether two numbers have one nearest double. -/
def SharesDouble (d e : Decimal) : Prop :=
  (ofFloat d.toFloat).compare? (ofFloat e.toFloat) = some .eq

/-- The nearest double of a finite number stands for something. -/
theorem exists_level (h : d.value? = some q) : ∃ p, Binary64.HasLevel d.toFloat p := by
  obtain ⟨r, -, hlevel⟩ := exists_rounds_toFloat h
  exact ⟨_, hlevel⟩

/-- Numbers have one nearest double if their doubles stand for the same. -/
theorem sharesDouble_iff (hd : Binary64.HasLevel d.toFloat p) (he : Binary64.HasLevel e.toFloat q) :
    d.SharesDouble e ↔ p = q := by
  rw [SharesDouble, (hasLevel_ofFloat hd).compare?_eq (hasLevel_ofFloat he), Option.some_inj,
    compare_eq_iff_eq]

end Number.Decimal

namespace Primary

open Decimal

variable {a b : Cell} {d e : Decimal} {x : Float} {p q : ℚ}

/-! ## Cells -/

/-- What a table keeps of a decimal number. -/
def decimalCell (d : Decimal) : Cell := wholeReal d.toFloat

theorem isNull_decimalCell (d : Decimal) : (decimalCell d).isNull = false := by
  unfold decimalCell wholeReal
  split
  · split_ifs <;> rfl
  · rfl

/-- Whether a cell holds a number that stands for a rational number. -/
def Cell.HasLevel (cell : Cell) (q : ℚ) : Prop := ∃ d, cell.number? = some d ∧ d.HasLevel q

/-- A double that is kept as an integer stands for the same number. -/
theorem hasLevel_wholeReal (h : Binary64.HasLevel x q) : (wholeReal x).HasLevel q := by
  have hreal : (Cell.real x).HasLevel q := ⟨_, rfl, hasLevel_ofFloat h⟩
  unfold wholeReal
  split
  · next s hs =>
    split_ifs with hwhole
    · have hvalue : Binary64.value? x = some (s.truncate : ℚ) := by
        simp only [Bool.and_eq_true] at hwhole
        rw [Binary64.value?, hs, Binary64.Scaled.cast_truncate hwhole.1.1]
        rfl
      cases h with
      | finite h =>
        obtain rfl := Option.some.inj (hvalue.symm.trans h)
        exact ⟨_, rfl, .finite (value?_ofInt _) (Binary64.abs_lt_of_value? hvalue)⟩
      | infinite negative =>
        rw [Binary64.scaled?_infinity] at hs
        cases hs
    · exact hreal
  · exact hreal

/-- Cells compare like what they stand for. -/
theorem Cell.HasLevel.compare?_eq (ha : a.HasLevel p) (hb : b.HasLevel q) :
    a.compare? b = some (compare p q) := by
  obtain ⟨d, hd, hp⟩ := ha
  obtain ⟨e, he, hq⟩ := hb
  have hnull {cell : Cell} {d : Decimal} (h : cell.number? = some d) : cell.isNull = false := by
    cases cell <;> first | rfl | cases h
  rw [Cell.compare?, hnull hd, hnull he, Bool.or_false, if_neg Bool.false_ne_true]
  unfold Cell.order
  simp only [hd, he, hp.compare?_eq hq, Option.getD_some]

/-- Whether a cell compares with what a table keeps of an operand like a number compares with the
operand. -/
def Cell.ComparesLike (cell : Cell) (d o : Decimal) : Prop :=
  ∃ order, cell.compare? (decimalCell o) = some order ∧ d.compare? o = some order

/-- A finite number goes into a statement as its nearest double. -/
theorem prepare_decimal (h : d.value? = some q) :
    Binding.number.prepare (.decimal d) = .ok (.float d.toFloat) := by
  cases d with
  | finite => rfl
  | _ => cases h

/-- The nearest double of a finite number is stored. -/
theorem cellOf_decimal (h : d.value? = some q) :
    cellOf (.float d.toFloat) = .ok (.real d.toFloat) := by
  obtain ⟨p, hp⟩ := exists_level h
  rw [cellOf, hp.isNaN_eq_false]
  rfl

end Primary

/-! ## Numbers that come back -/

/-- What the cache gives back of a decimal number that was stored: the number is read from its cell and
written as a document. -/
def recalled (d : Decimal) : Outcome Value := do
  let document ← Cache.document (← valueOf .decimal (decimalCell d))
  Cache.restore (some .decimal) document.toValue

section

variable {d e o : Decimal} {p q : ℚ}

/-- A number whose nearest double is infinite does not come back. -/
theorem toFloat_ne_infinity {v : Value} (h : recalled d = .ok v) (negative : Bool) :
    d.toFloat ≠ Binary64.infinity negative := by
  intro hd
  have hvalue : valueOf .decimal (decimalCell d) = .ok (.decimal (.infinity negative)) := by
    rw [decimalCell, hd, wholeReal, Binary64.scaled?_infinity]
    show Except.ok (Value.decimal (decimalOfReal (Binary64.infinity negative))) = _
    rw [decimalOfReal, Binary64.scaled?_infinity]
    exact congrArg (Except.ok ∘ Value.decimal) (Decimal.ofFloat_infinity negative)
  rw [recalled, hvalue] at h
  cases h

/-- A number that comes back with the double of a finite one is finite. -/
theorem exists_value_of_recalled (hd : d.value? = some p) (h : recalled d = .ok (.decimal e))
    (hdouble : e.SharesDouble d) : ∃ q, e.value? = some q := by
  obtain ⟨level, hlevel⟩ := Decimal.exists_level hd
  cases e with
  | finite => exact ⟨_, rfl⟩
  | infinity negative =>
    have hinfinite : Binary64.HasLevel (Decimal.infinity negative).toFloat _ := .infinite negative
    rw [Decimal.sharesDouble_iff hinfinite hlevel] at hdouble
    generalize hx : d.toFloat = x at hlevel
    cases hlevel with
    | finite hvalue =>
      have hbelow := Binary64.abs_lt_of_value? hvalue
      rw [← hdouble, abs_mul, abs_of_pos Binary64.bound_pos] at hbelow
      cases negative <;> simp [Binary64.signOf] at hbelow
    | infinite negative' => exact absurd hx (toFloat_ne_infinity h negative')
  | nan negative signaling payload =>
    rw [Decimal.SharesDouble, Decimal.toFloat,
      show Decimal.ofFloat Binary64.nan = .nan false false 0 by decide +kernel] at hdouble
    cases hdouble

/-- What a table keeps of a number compares with an operand like the number that comes back, if that
has the double that is stored, and no operand of another value has it. -/
theorem comparesLike_decimalCell (hd : d.value? = some p) (h : recalled d = .ok (.decimal e))
    (hdouble : e.SharesDouble d) (ho : o.value? = some q)
    (hoperand : o.SharesDouble d → o.value? = e.value?) : (decimalCell d).ComparesLike e o := by
  obtain ⟨r, hr⟩ := exists_value_of_recalled hd h hdouble
  obtain ⟨level, hlevel⟩ := Decimal.exists_level hd
  obtain ⟨levelBack, hback⟩ := Decimal.exists_level hr
  obtain ⟨levelOperand, hlevelOperand⟩ := Decimal.exists_level ho
  obtain rfl := (Decimal.sharesDouble_iff hback hlevel).mp hdouble
  rw [Decimal.sharesDouble_iff hlevelOperand hlevel, ho, hr, Option.some_inj] at hoperand
  refine ⟨_, (hasLevel_wholeReal hlevel).compare?_eq (hasLevel_wholeReal hlevelOperand), ?_⟩
  have hdoubles := (Decimal.hasLevel_ofFloat hback).compare?_eq (Decimal.hasLevel_ofFloat hlevelOperand)
  rw [Decimal.compare?_toFloat hr ho, hdoubles]
  rw [hdoubles, Option.some_inj, compare_eq_iff_eq]
  exact fun hsame => (hoperand hsame.symm).symm

end

namespace Filter

/-! ## Filters of agreeing conditions -/

section

variable {m : Model} {row : Row} {record : Record} {where_ : Value} {f : Formula Requirement}

/-- Whether a condition is read for a table and for records, and selects a row exactly where it holds
of a record. -/
def Requirement.AgreesOn (m : Model) (row : Row) (record : Record) (c : Requirement) : Prop :=
  ∃ comparison check,
    (storeReading m).leafOf m c = .ok comparison ∧
    (recordReading (some m.attributeTypes)).leafOf m c = .ok check ∧
    comparison.IsReady ∧ check.holdsFor record = .ok (comparison.condition.holds? row == some true)

/-- A filter whose conditions can be read and made ready for a table is read as its test. -/
theorem IsWritten.tests (h : IsWritten m where_ f) (hready : ∀ c ∈ f.leaves,
    ∃ comparison, (storeReading m).leafOf m c = .ok comparison ∧ comparison.IsReady) :
    Tests m where_ (testOf m f) := by
  obtain ⟨lines, hplain⟩ := h
  have hread : (storeReading m).CanRead m f.leaves := by
    intro c hc
    obtain ⟨comparison, hleaf, -⟩ := hready c hc
    rw [hleaf]
    rfl
  obtain ⟨prepared, hprepare, hdone⟩ := @prepare_eq_of_isReady m f fun comparison hc => by
    have hleaf := Clause.leaves_ofFormula hc
    rw [Formula.leaves_map] at hleaf
    obtain ⟨c, hmem, rfl⟩ := List.mem_map.mp hleaf
    obtain ⟨comparison, hleaf, hcomparison⟩ := hready c hmem
    rw [hleaf]
    exact hcomparison
  have hstore := Reading.filter_of_plain (knows_storeReading m) hplain hread
  exact ⟨clauseOf m f, prepared, congrArg Prod.fst (runFrom_bind_of_ok hstore), hprepare, hdone⟩

/-- A filter whose conditions can be read for records says of a record what they say together. -/
theorem IsWritten.exists_predicate (h : IsWritten m where_ f) {p : Requirement → Bool}
    (hchecks : ∀ c ∈ f.leaves, ∃ check, (recordReading (some m.attributeTypes)).leafOf m c = .ok check ∧
      check.holdsFor record = .ok (p c)) :
    ∃ predicate, (Predicate.ofFilter where_ (some m.attributeTypes)).run.2 = .ok predicate ∧
      predicate record = .ok (f.eval p) := by
  obtain ⟨lines, hplain⟩ := h
  have hread : (recordReading (some m.attributeTypes)).CanRead m f.leaves := by
    intro c hc
    obtain ⟨check, hleaf, -⟩ := hchecks c hc
    rw [hleaf]
    rfl
  have hholds : ∀ check ∈ (checksOf m f).leaves,
      check.holdsFor record = .ok (check.holdsFor record).get := by
    intro check hcheck
    rw [checksOf, Formula.leaves_map] at hcheck
    obtain ⟨c, hc, rfl⟩ := List.mem_map.mp hcheck
    obtain ⟨check, hleaf, hcheck⟩ := hchecks c hc
    simp only [hleaf, Outcome.get, hcheck]
  have hrecord := Reading.filter_of_plain (knows_recordReading m) hplain hread
  refine ⟨_, congrArg Prod.fst (runFrom_bind_of_ok hrecord), ?_⟩
  refine (Formula.holdsFor_eq_ok hholds).trans (congrArg Except.ok ?_)
  rw [checksOf, Formula.eval_map]
  refine Formula.eval_congr fun c hc => ?_
  obtain ⟨check, hleaf, hcheck⟩ := hchecks c hc
  simp only [Function.comp_apply, hleaf, Outcome.get, hcheck]

/-- A filter of agreeing conditions is read for both stores, and selects the row exactly where it holds
of the record. -/
theorem IsWritten.agrees (h : IsWritten m where_ f)
    (hagrees : ∀ c ∈ f.leaves, c.AgreesOn m row record) :
    Tests m where_ (testOf m f) ∧
      ∃ predicate, (Predicate.ofFilter where_ (some m.attributeTypes)).run.2 = .ok predicate ∧
        predicate record = .ok ((testOf m f).selects row) := by
  refine ⟨h.tests fun c hc => ?_, ?_⟩
  · obtain ⟨comparison, _, hleaf, -, hready, -⟩ := hagrees c hc
    exact ⟨comparison, hleaf, hready⟩
  · rw [selects_testOf]
    refine h.exists_predicate fun c hc => ?_
    obtain ⟨comparison, check, hstored, hleaf, -, hholds⟩ := hagrees c hc
    refine ⟨check, hleaf, ?_⟩
    rw [hstored]
    exact hholds

end

/-! ## Operators on decimal numbers -/

section

variable {cell : Cell} {d o : Decimal} {os : List Decimal} {q : ℚ}

/-- Numbers that compare may be asked for equality. -/
theorem isSignaling_of_compare? {order : Ordering} (h : d.compare? o = some order) :
    d.isSignaling = false ∧ o.isSignaling = false := by
  cases d <;> cases o <;> first | exact ⟨rfl, rfl⟩ | cases h

/-- A number equals an operand where their cells are the same. -/
theorem equal?_of_comparesLike (h : cell.ComparesLike d o) :
    Value.equal? (.decimal d) (.decimal o) = some (cell.sameKey (decimalCell o)) := by
  obtain ⟨order, hcell, hnumber⟩ := h
  obtain ⟨hd, ho⟩ := isSignaling_of_compare? hnumber
  show Value.equalNumbers? d o = _
  rw [Value.equalNumbers?, hd, ho, Cell.sameKey, hcell, hnumber]
  cases order <;> rfl

/-- An operand is in the order with a number that their cells are in. -/
theorem compared_of_comparesLike {op : Operator} (h : cell.ComparesLike d o)
    (hop : op = .eq ∨ op.isOrdering = true) :
    op.holds (.decimal d) (.decimal o) =
      .ok (Condition.compared? op cell (decimalCell o) == some true) := by
  have hequal := equal?_of_comparesLike h
  obtain ⟨order, hcell, hnumber⟩ := h
  have horder : Value.order? (.decimal d) (.decimal o) = some order := hnumber
  cases op with
  | eq =>
    simp only [Operator.holds, Value.isNull, hequal, Condition.compared?, Cell.sameKey, hcell]
    cases order <;> rfl
  | gt | gte | lt | lte =>
    simp only [Operator.holds, Value.isNull, horder, Condition.compared?, hcell]
    cases order <;> rfl
  | present | isIn | notIn => rcases hop with hop | hop <;> cases hop

/-- A number is among operands where its cell is among theirs. -/
theorem isMember?_of_comparesLike (h : ∀ o ∈ os, cell.ComparesLike d o) :
    Value.isMember? (.decimal d) (os.map .decimal) =
      some ((os.map decimalCell).any (cell.sameKey ·)) := by
  induction os with
  | nil => rfl
  | cons o os ih =>
    rw [List.map_cons, Value.isMember?, equal?_of_comparesLike (h o List.mem_cons_self),
      ih fun o' ho' => h o' (List.mem_cons_of_mem o ho'), List.map_cons, List.any_cons]
    cases cell.sameKey (decimalCell o) <;> rfl

/-- Membership among operands and its opposite say the same of a number and of its cell. -/
theorem membership_of_comparesLike (h : ∀ o ∈ os, cell.ComparesLike d o) (hcell : cell.isNull = false)
    (negated : Bool) :
    Operator.holds (if negated then .notIn else .isIn) (.decimal d) (.list (os.map .decimal)) =
      .ok ((Condition.memberOf? cell (os.map decimalCell)).map (· != negated) == some true) := by
  have hnulls : (os.map Value.decimal).any Value.isNull = false := by
    rw [List.any_map, List.any_eq_false]
    exact fun _ _ => Bool.false_ne_true
  have hcells : (os.map decimalCell).any Cell.isNull = false := by
    rw [List.any_map, List.any_eq_false]
    exact fun o _ => ne_true_of_eq_false (isNull_decimalCell o)
  have hmember := isMember?_of_comparesLike h
  cases negated
  · simp only [Operator.holds, Operator.candidates, Value.isNull, hmember, Condition.memberOf?, hcell,
      hcells]
    cases os with
    | nil => rfl
    | cons o os => cases ((o :: os).map decimalCell).any (cell.sameKey ·) <;> rfl
  · simp only [Operator.holds, Operator.candidates, Value.isNull, hmember, Condition.memberOf?, hcell,
      hcells, hnulls]
    cases os with
    | nil => rfl
    | cons o os => cases ((o :: os).map decimalCell).any (cell.sameKey ·) <;> rfl

end

/-! ## Conditions on a decimal attribute -/

/-- Whether the operands of a condition all name finite numbers of some kind. -/
def Requirement.NamesNumbers (P : Decimal → Prop) (c : Requirement) : Prop :=
  ∀ v ∈ c.operands, ∃ o q, coerce (some .decimal) v = .ok (.decimal o) ∧ o.value? = some q ∧ P o

section

variable {m : Model} {row : Row} {record : Record} {field : String} {operand : Value}
  {d o : Decimal} {os : List Decimal} {q : ℚ}

/-- A check compares the number in the field with the operand. -/
theorem holdsFor_decimal (hvalue : record.field field = .decimal d) (op : Operator) (form : Value) :
    (⟨field, some .decimal, op, form⟩ : Check).holdsFor record = op.holds (.decimal d) form := by
  rw [Check.holdsFor, hvalue]
  rfl

/-- A question whether a number is there agrees. -/
theorem agreesOn_present (hfield : Entries.get? m.attributeTypes field = some .decimal)
    (hvalue : record.field field = .decimal d) (hcell : (row.cell field).isNull = false) :
    (⟨field, .present, operand⟩ : Requirement).AgreesOn m row record := by
  refine ⟨⟨field, .decimal, .present, operand⟩, ⟨field, some .decimal, .present, operand⟩, ?_, ?_,
    ⟨rfl, rfl⟩, ?_⟩
  · simp [Reading.leafOf, hfield, storeReading, Operator.takesList, Operator.isOrdering]
  · simp [Reading.leafOf, hfield, recordReading, Operator.takesList]
  · rw [holdsFor_decimal hvalue]
    show Except.ok (true == operand.isTruthy) =
      .ok (some ((row.cell field).isNull != operand.isTruthy) == some true)
    rw [hcell]
    cases operand.isTruthy <;> rfl

/-- A comparison with a finite number is one of cells. -/
theorem isReady_decimal (field : String) {op : Operator} (ho : o.value? = some q)
    (hop : op = .eq ∨ op.isOrdering = true) :
    (⟨field, .decimal, op, .decimal o⟩ : Comparison).IsReady ∧
      (⟨field, .decimal, op, .decimal o⟩ : Comparison).condition =
        .compare field .numeric op (.real o.toFloat) := by
  have hprepared : Condition.ofComparison ⟨field, .decimal, op, .decimal o⟩ =
      .ok (.compare field .numeric op (.float o.toFloat)) := by
    have hform := prepare_decimal ho
    cases op with
    | eq | gt | gte | lt | lte =>
      show (Binding.number.prepare (.decimal o) >>= _ : Outcome _) = _
      rw [hform]
      rfl
    | present | isIn | notIn => rcases hop with hop | hop <;> cases hop
  refine Comparison.isReady_of_eq hprepared ?_
  rw [Condition.mapOutcome, cellOf_decimal ho]
  rfl

/-- A comparison with a number agrees. -/
theorem agreesOn_compare {op : Operator} (hfield : Entries.get? m.attributeTypes field = some .decimal)
    (hvalue : record.field field = .decimal d) (hop : op = .eq ∨ op.isOrdering = true)
    (hcoerce : coerce (some .decimal) operand = .ok (.decimal o)) (ho : o.value? = some q)
    (hcell : (row.cell field).ComparesLike d o) :
    (⟨field, op, operand⟩ : Requirement).AgreesOn m row record := by
  obtain ⟨hready, hcondition⟩ := isReady_decimal field ho hop
  have hkind : op.takesList = false ∧ op ≠ .present := by
    cases op <;> first | exact ⟨rfl, by decide⟩ | (rcases hop with hop | hop <;> cases hop)
  refine ⟨⟨field, .decimal, op, .decimal o⟩, ⟨field, some .decimal, op, .decimal o⟩, ?_, ?_, hready, ?_⟩
  · simp [Reading.leafOf, hfield, storeReading, hkind, hcoerce, isUnordered]
  · have hform : comparable (some .decimal) operand = .ok (.decimal o) := by
      rw [comparable, hcoerce]
      rfl
    simp [Reading.leafOf, hfield, recordReading, hkind, hform]
  · rw [holdsFor_decimal hvalue, hcondition, compared_of_comparesLike hcell hop]
    rfl

/-- Candidates that name finite numbers become these numbers, in both readings. -/
theorem exists_numbers {vs : List Value} {P : Decimal → Prop}
    (h : ∀ v ∈ vs, ∃ o q, coerce (some .decimal) v = .ok (.decimal o) ∧ o.value? = some q ∧ P o) :
    ∃ os : List Decimal, vs.mapM (coerce (some .decimal)) = .ok (os.map .decimal) ∧
      vs.mapM (comparable (some .decimal)) = .ok (os.map .decimal) ∧
      ∀ o ∈ os, (∃ q, o.value? = some q) ∧ P o := by
  induction vs with
  | nil => exact ⟨[], rfl, rfl, List.forall_mem_nil _⟩
  | cons v vs ih =>
    obtain ⟨os, hcoerces, hcompares, hos⟩ := ih fun u hu => h u (List.mem_cons_of_mem v hu)
    obtain ⟨o, q, hcoerce, ho, hP⟩ := h v List.mem_cons_self
    have hcompare : comparable (some .decimal) v = .ok (.decimal o) := by
      rw [comparable, hcoerce]
      rfl
    refine ⟨o :: os, ?_, ?_, List.forall_mem_cons.mpr ⟨⟨⟨q, ho⟩, hP⟩, hos⟩⟩
    · rw [Outcome.mapM_cons, hcoerce, hcoerces]
      rfl
    · rw [Outcome.mapM_cons, hcompare, hcompares]
      rfl

/-- Membership among finite numbers is one of cells. -/
theorem isReady_decimals (field : String) (negated : Bool) (hos : ∀ o ∈ os, ∃ q, o.value? = some q) :
    (⟨field, .decimal, if negated then .notIn else .isIn, .list (os.map .decimal)⟩ : Comparison).IsReady ∧
      (⟨field, .decimal, if negated then .notIn else .isIn, .list (os.map .decimal)⟩ :
        Comparison).condition = .member field .numeric negated (os.map fun o => .real o.toFloat) := by
  have hoperands : Binding.number.ofOperands (os.map .decimal) = .number := by
    cases os <;> rfl
  have hforms : (os.map Value.decimal).mapM Binding.number.prepare =
      .ok (os.map fun o => .float o.toFloat) := by
    rw [Outcome.mapM_eq_ok_iff, List.forall₂_map_left_iff, List.forall₂_map_right_iff,
      List.forall₂_same]
    exact fun o ho => prepare_decimal (hos o ho).choose_spec
  have hcells : (os.map fun o => Value.float o.toFloat).mapM cellOf =
      .ok (os.map fun o => .real o.toFloat) := by
    rw [Outcome.mapM_eq_ok_iff, List.forall₂_map_left_iff, List.forall₂_map_right_iff,
      List.forall₂_same]
    exact fun o ho => cellOf_decimal (hos o ho).choose_spec
  have hprepared : Condition.ofComparison
      ⟨field, .decimal, if negated then .notIn else .isIn, .list (os.map .decimal)⟩ =
      .ok (.member field .numeric negated (os.map fun o => .float o.toFloat)) := by
    cases negated <;>
      simp [Condition.ofComparison, Operator.candidates, Binding.ofType, Affinity.ofType, hoperands, hforms]
  refine Comparison.isReady_of_eq hprepared ?_
  rw [Condition.mapOutcome, hcells]
  rfl

/-- Membership among numbers and its opposite agree. -/
theorem agreesOn_member (negated : Bool)
    (hfield : Entries.get? m.attributeTypes field = some .decimal)
    (hvalue : record.field field = .decimal d) (hcell : (row.cell field).isNull = false)
    (h : ∀ v ∈ Operator.candidates operand, ∃ o q, coerce (some .decimal) v = .ok (.decimal o) ∧
      o.value? = some q ∧ (row.cell field).ComparesLike d o) :
    (⟨field, if negated then .notIn else .isIn, operand⟩ : Requirement).AgreesOn m row record := by
  obtain ⟨os, hcoerces, hcompares, hos⟩ := exists_numbers h
  obtain ⟨hready, hcondition⟩ := isReady_decimals field negated fun o ho => (hos o ho).1
  refine ⟨⟨field, .decimal, if negated then .notIn else .isIn, .list (os.map .decimal)⟩,
    ⟨field, some .decimal, if negated then .notIn else .isIn, .list (os.map .decimal)⟩, ?_, ?_, hready, ?_⟩
  · cases negated <;> simp [Reading.leafOf, hfield, storeReading, Operator.takesList,
      Operator.isOrdering, hcoerces]
  · cases negated <;> simp [Reading.leafOf, hfield, recordReading, Operator.takesList, hcompares]
  · rw [holdsFor_decimal hvalue, hcondition,
      membership_of_comparesLike (fun o ho => (hos o ho).2) hcell, Condition.holds?, List.map_map]
    rfl

end

/-- Conditions on a decimal attribute whose operands the cell and the number compare alike with agree,
for each of the operators. -/
theorem Requirement.agreesOn_of_comparesLike {m : Model} {row : Row} {record : Record} {c : Requirement}
    {d : Decimal} (hfield : Entries.get? m.attributeTypes c.field = some .decimal)
    (hvalue : record.field c.field = .decimal d) (hcell : (row.cell c.field).isNull = false)
    (h : c.NamesNumbers ((row.cell c.field).ComparesLike d)) : c.AgreesOn m row record := by
  obtain ⟨field, op, operand⟩ := c
  have hcompare (hop : op = .eq ∨ op.isOrdering = true)
      (hsingle : (⟨field, op, operand⟩ : Requirement).operands = [operand]) :
      (⟨field, op, operand⟩ : Requirement).AgreesOn m row record := by
    obtain ⟨o, q, hcoerce, ho, hlike⟩ := h operand (hsingle ▸ List.mem_singleton_self operand)
    exact agreesOn_compare hfield hvalue hop hcoerce ho hlike
  cases op with
  | present => exact agreesOn_present hfield hvalue hcell
  | eq => exact hcompare (Or.inl rfl) rfl
  | gt | gte | lt | lte => exact hcompare (Or.inr rfl) rfl
  | isIn => exact agreesOn_member false hfield hvalue hcell h
  | notIn => exact agreesOn_member true hfield hvalue hcell h

end Filter

end TwinStore
