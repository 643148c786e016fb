import TwinStore.Proofs.AcceptedFilters
import TwinStore.Proofs.CleanFilters
import TwinStore.Proofs.DecimalValues

/-!
# Laws of the operators

The records that satisfy a filter on one field depend on the operator as a caller expects: two values of
a type are in exactly one of three orders, membership is equality with one of several, and null is in no
order and in no list.  Values and operands are written in several ways, so this is said of the forms in
which they compare.

Main definitions:

- `AttributeType.Contains`, `AttributeType.Names`: the values of a type, and what coercion makes such
  values of.
- `answer`, `satisfies`: the answer of a filter on one field for a record.
- `Operator.Laws`: the laws.

Main results:

- Theorem `AttributeType.Contains.exists_order`: two values of a type have an order, and are equal
  exactly if they are in the order of equal ones.
- Theorem `operators_obey_laws`: the operators obey the laws on every record of which the field is null
  or names a value of its type.
-/

namespace TwinStore

open Calendar Number

/-! ## Values with an order -/

namespace AttributeType

/-- The values of the types with an order: points of time are naive, and decimal numbers finite. -/
inductive Contains : AttributeType → Value → Prop
  | int (n : Int) : Contains int (.int n)
  | str (s : String) : Contains str (.text s)
  | text (s : String) : Contains text (.text s)
  | bool (b : Bool) : Contains bool (.bool b)
  | date (d : Date) : Contains date (.date d)
  | datetime {t : DateTime} (hnaive : t.offset = none) : Contains datetime (.instant t)
  | uuid (u : Uuid) : Contains uuid (.uuid u)
  | decimal {d : Decimal} {q : ℚ} (h : d.value? = some q) : Contains decimal (.decimal d)

/-- Whether coercion makes a value of the type. -/
def Names (type : AttributeType) (v : Value) : Prop :=
  ∃ w, coerce (some type) v = .ok w ∧ type.Contains w

/-- A value of the type names itself. -/
theorem Contains.names {type : AttributeType} {v : Value} (h : type.Contains v) : type.Names v := by
  refine ⟨v, ?_, h⟩
  cases h with
  | datetime hnaive => rw [coerce, coerceInstant, universal_of_naive hnaive]; rfl
  | _ => rfl

/-- A point of time names its universal time, if that lies within the calendar. -/
theorem names_instant {t u : DateTime} (h : t.toUniversal? = some u) : datetime.Names (.instant t) := by
  have huniversal : universal t = .ok u := by simp only [universal, h]
  exact ⟨.instant u, by rw [coerce, coerceInstant, huniversal]; rfl,
    .datetime (offset_of_toUniversal? h)⟩

/-- The null is named by nothing but itself. -/
theorem Names.isNull_eq_false {type : AttributeType} {v : Value} (h : type.Names v) : v.isNull = false := by
  obtain ⟨w, hcoerce, hw⟩ := h
  cases v with
  | null =>
    have hnull : coerce (some type) .null = .ok .null := by cases type <;> rfl
    obtain rfl := Except.ok.inj (hnull.symm.trans hcoerce)
    cases hw
  | _ => rfl

/-- Numbers of a value compare like the value. -/
theorem compare_numbers {v w : Value} {d e : Decimal} {p q : ℚ} (hv : v.number? = some d)
    (hw : w.number? = some e) (hd : d.value? = some p) (he : e.value? = some q) :
    v.order? w = some (compare p q) ∧ v.equal? w = some (compare p q == .eq) := by
  have hatoms : v.orderAtoms? w = some (compare p q) ∧ v.equalAtoms? w = some (compare p q == .eq) := by
    simp only [Value.orderAtoms?, Value.equalAtoms?, hv, hw, Value.equalNumbers?, Decimal.compare?_eq hd he,
      Decimal.isSignaling_of_value? hd, Decimal.isSignaling_of_value? he, true_and]
    cases compare p q <;> rfl
  cases v <;> cases hv <;> exact hatoms

/-- Two values of a type have an order in the forms in which they compare, and are equal exactly if it is
that of equal values. -/
theorem Contains.exists_order {type : AttributeType} {v w : Value} (hv : type.Contains v)
    (hw : type.Contains w) : ∃ o, v.measure.order? w.measure = some o ∧
      v.measure.equal? w.measure = some (o == .eq) := by
  have hint (n : Int) : (Decimal.ofInt n).value? = some (n : ℚ) := Decimal.value?_ofInt n
  cases hv with
  | int => cases hw; exact ⟨_, compare_numbers rfl rfl (hint _) (hint _)⟩
  | bool => cases hw; exact ⟨_, compare_numbers rfl rfl (hint _) (hint _)⟩
  | date => cases hw; exact ⟨_, compare_numbers rfl rfl (hint _) (hint _)⟩
  | datetime => cases hw; exact ⟨_, compare_numbers rfl rfl (hint _) (hint _)⟩
  | decimal hd => cases hw with | decimal he => exact ⟨_, compare_numbers rfl rfl hd he⟩
  | str => cases hw; exact ⟨_, Value.compare_texts _ _⟩
  | text => cases hw; exact ⟨_, Value.compare_texts _ _⟩
  | uuid u =>
    cases hw with
    | uuid w =>
      have hsame : (u == w) = (compare u.value w.value == .eq) := by
        rw [Bool.eq_iff_iff, beq_iff_eq, beq_iff_eq, compare_eq_iff_eq]
        cases u
        cases w
        exact Uuid.mk.injEq _ _ ▸ Iff.rfl
      exact ⟨compare u.value w.value, rfl, congrArg some hsame⟩

/-- What coercion makes a value of the type compares as that value. -/
theorem Contains.comparable_eq {type : AttributeType} {v w : Value} (hw : type.Contains w)
    (hcoerce : coerce (some type) v = .ok w) : comparable (some type) v = .ok w.measure := by
  rw [comparable, hcoerce, Outcome.ok_bind]
  cases hw with
  | @datetime t hnaive =>
    show epochMicros (.instant t) = _
    rw [epochMicros, universal_of_naive hnaive]
    rfl
  | _ => rfl

end AttributeType

namespace Filter

/-! ## Filters on one field -/

/-- The answer of a filter on one field for a record. -/
def answer (types : Entries AttributeType) (field : String) (record : Record) (value : Value) :
    Outcome Bool := do
  (← (Predicate.ofFilter (.map [(field, value)]) (some types)).run.2) record

/-- The answer of the filter that asks one field by one operator. -/
def satisfies (types : Entries AttributeType) (field : String) (record : Record) (op : Operator)
    (operand : Value) : Outcome Bool :=
  answer types field record (.map [(op.key, operand)])

theorem Operator.ofKey?_key (op : Operator) : ofKey? op.key = some op := by
  cases op <;> decide

/-- A filter with one condition reads its operand, then compares the field with it. -/
theorem answer_eq_check {types : Entries AttributeType} {field : String} {type : AttributeType}
    (htype : Entries.get? types field = some type) (hfield : field.startsWith "$" = false)
    (record : Record) {value : Value} {c : Requirement} (hvalue : conditionsIn field value = [c]) :
    answer types field record value = (do
      let check ← (recordReading (some types)).condition field (some type) c.operator c.operand
      check.holdsFor record) := by
  have hknown : (recordReading (some types)).fieldType field = .ok (some type) := by
    simp only [recordReading, htype]
  have hdollar : ¬ field.startsWith "$" = true := hfield ▸ Bool.false_ne_true
  show (Predicate.ofFilter _ _).outcome >>= _ = _
  rw [Predicate.ofFilter, outcome_map_filter, Reading.outcome_filter_map, Reading.outcome_entries_cons,
    Reading.part_of_field _ hdollar, Reading.outcome_field, hvalue, hknown, Outcome.ok_bind,
    Outcome.mapM_cons, Reading.leafFor]
  cases (recordReading (some types)).condition field (some type) c.operator c.operand with
  | error fault => rfl
  | ok check =>
    show Formula.holdsFor record (.conj [.leaf check]) = check.holdsFor record
    rw [Formula.holdsFor, Formula.allHoldFor, Formula.holdsFor]
    rcases check.holdsFor record with _ | _ | _ <;> rfl

/-- So does one that asks by one operator. -/
theorem satisfies_eq_check {types : Entries AttributeType} {field : String} {type : AttributeType}
    (htype : Entries.get? types field = some type) (hfield : field.startsWith "$" = false)
    (record : Record) (op : Operator) (operand : Value) :
    satisfies types field record op operand = (do
      let check ← (recordReading (some types)).condition field (some type) op
        (if op.takesList then operandList operand else operand)
      check.holdsFor record) := by
  have hconditions : conditionsIn field (.map [(op.key, operand)]) =
      [⟨field, op, if op.takesList then operandList operand else operand⟩] := by
    simp only [conditionsIn, List.filterMap_cons, Operator.ofKey?_key, Option.map_some, List.filterMap_nil]
  exact answer_eq_check htype hfield record hconditions

/-! ## The laws -/

namespace Operator

/-- The laws of the operators on one field of a record, given whether the field is null there, and the
operands that it can be compared with. -/
structure Laws (answer : Operator → Value → Outcome Bool) (isNull : Bool) (IsOperand : Value → Prop) :
    Prop where
  /-- A value that is there is smaller than an operand, equal to it or greater, and just one of these. -/
  trichotomy : isNull = false → ∀ o, IsOperand o → ∃ less equal greater,
    answer .lt o = .ok less ∧ answer .eq o = .ok equal ∧ answer .gt o = .ok greater ∧
    [less, equal, greater].count true = 1 ∧
    answer .lte o = .ok (less || equal) ∧ answer .gte o = .ok (greater || equal)
  /-- A value that is there is in a list if it equals one of the members that are there. -/
  isIn : ∀ os, (∀ o ∈ os, o = .null ∨ IsOperand o) → ∃ found, answer .isIn (.list os) = .ok found ∧
    (found = true ↔ isNull = false ∧ ∃ o ∈ os, o ≠ .null ∧ answer .eq o = .ok true)
  /-- It is out of a list if it is not in it, and no member of the list is null. -/
  notIn : ∀ os, (∀ o ∈ os, o = .null ∨ IsOperand o) → os ≠ [] →
    ∃ missed, answer .notIn (.list os) = .ok missed ∧
      (missed = true ↔ isNull = false ∧ Value.null ∉ os ∧ answer .isIn (.list os) = .ok false)
  /-- Everything is out of the empty list. -/
  notIn_nil : answer .notIn (.list []) = .ok true
  /-- What is there exists, and nothing else. -/
  present : answer .present (.bool true) = .ok (!isNull)
  absent : answer .present (.bool false) = .ok isNull
  /-- What is not there equals null, and nothing else. -/
  eq_null : answer .eq .null = .ok isNull
  /-- Null has no order, and is in no list. -/
  order_of_null : isNull = true → ∀ op, op.isOrdering = true → ∀ o, IsOperand o → answer op o = .ok false
  isIn_of_null : isNull = true → ∀ os, (∀ o ∈ os, o = .null ∨ IsOperand o) →
    answer .isIn (.list os) = .ok false

end Operator

/-! ## Answers -/

/-- Whether an operand is null or names a value of a type, and which. -/
def Stands (type : AttributeType) (o w : Value) : Prop :=
  comparable (some type) o = .ok w.measure ∧ (o = .null ∧ w = .null ∨ o ≠ .null ∧ type.Contains w)

theorem exists_stands {type : AttributeType} {o : Value} (h : o = .null ∨ type.Names o) :
    ∃ w, Stands type o w := by
  rcases h with rfl | h
  · exact ⟨.null, by cases type <;> rfl, .inl ⟨rfl, rfl⟩⟩
  · obtain ⟨w, hcoerce, hw⟩ := id h
    refine ⟨w, hw.comparable_eq hcoerce, .inr ⟨?_, hw⟩⟩
    rintro rfl
    cases h.isNull_eq_false

/-- The operands of a list stand for values one by one. -/
theorem exists_standing {type : AttributeType} {os : List Value} (h : ∀ o ∈ os, o = .null ∨ type.Names o) :
    ∃ ws, os.mapM (comparable (some type)) = .ok (ws.map Value.measure) ∧
      List.Forall₂ (Stands type) os ws := by
  induction os with
  | nil => exact ⟨[], rfl, .nil⟩
  | cons o os ih =>
    obtain ⟨ho, hos⟩ := List.forall_mem_cons.mp h
    obtain ⟨w, hw⟩ := exists_stands ho
    obtain ⟨ws, hmeasures, hws⟩ := ih hos
    refine ⟨w :: ws, ?_, .cons hw hws⟩
    rw [Outcome.mapM_cons, hw.1, hmeasures]
    rfl

namespace Stands

variable {type : AttributeType} {v o w : Value} {os ws : List Value}

theorem isNull_eq (h : Stands type o w) : w.measure.isNull = o.isNull := by
  rw [Value.isNull_measure]
  rcases h.2 with ⟨rfl, rfl⟩ | ⟨ho, hw⟩
  · rfl
  · cases o with
    | null => exact absurd rfl ho
    | _ => cases hw <;> rfl

theorem isEmpty_eq (h : List.Forall₂ (Stands type) os ws) :
    (ws.map Value.measure).isEmpty = os.isEmpty := by
  cases h <;> rfl

/-- A list of operands holds null as the list of what they stand for. -/
theorem any_isNull (h : List.Forall₂ (Stands type) os ws) :
    (ws.map Value.measure).any Value.isNull = os.any Value.isNull := by
  induction h with
  | nil => rfl
  | cons ho _ ih => rw [List.map_cons, List.any_cons, List.any_cons, ho.isNull_eq, ih]

/-- A value equals what an operand stands for or not, and it does not if that is null. -/
theorem exists_equal? (hv : type.Contains v) (h : Stands type o w) :
    ∃ b, v.measure.equal? w.measure = some b ∧ (b = true → o ≠ .null) := by
  rcases h.2 with ⟨rfl, rfl⟩ | ⟨ho, hw⟩
  · exact ⟨false, by cases hv <;> rfl, nofun⟩
  · obtain ⟨order, -, hequal⟩ := hv.exists_order hw
    exact ⟨_, hequal, fun _ => ho⟩

/-- A value is a member of a list if it equals what a member that is there stands for. -/
theorem exists_isMember? (hv : type.Contains v) (h : List.Forall₂ (Stands type) os ws) :
    ∃ found, v.measure.isMember? (ws.map Value.measure) = some found ∧
      (found = true ↔ ∃ o ∈ os, o ≠ .null ∧
        ∃ w, Stands type o w ∧ v.measure.equal? w.measure = some true) := by
  induction h with
  | nil => exact ⟨false, rfl, by simp⟩
  | @cons o w os ws ho _ ih =>
    obtain ⟨found, hfound, hiff⟩ := ih
    obtain ⟨b, hequal, hthere⟩ := exists_equal? hv ho
    rw [List.map_cons, Value.isMember?, hequal]
    cases b with
    | true =>
      exact ⟨true, rfl, iff_of_true rfl ⟨o, List.mem_cons_self, hthere rfl, w, ho, hequal⟩⟩
    | false =>
      refine ⟨found, hfound, hiff.trans ⟨?_, ?_⟩⟩
      · rintro ⟨o', ho', hothers⟩
        exact ⟨o', List.mem_cons_of_mem o ho', hothers⟩
      · rintro ⟨o', ho', hnull, w', hw', hequal'⟩
        rcases List.mem_cons.mp ho' with rfl | ho'
        · rw [Except.ok.inj (hw'.1.symm.trans ho.1), hequal] at hequal'
          cases hequal'
        · exact ⟨o', ho', hnull, w', hw', hequal'⟩

/-- A value that is there is in just one of three orders to what an operand stands for. -/
theorem exists_comparison (hv : type.Contains v) (hw : type.Contains w) : ∃ less equal greater,
    Operator.lt.holds v.measure w.measure = .ok less ∧ Operator.eq.holds v.measure w.measure = .ok equal ∧
    Operator.gt.holds v.measure w.measure = .ok greater ∧ [less, equal, greater].count true = 1 ∧
    Operator.lte.holds v.measure w.measure = .ok (less || equal) ∧
    Operator.gte.holds v.measure w.measure = .ok (greater || equal) := by
  have hthere {u : Value} (hu : type.Contains u) : u.measure.isNull = false := by
    rw [Value.isNull_measure]
    cases hu <;> rfl
  obtain ⟨order, horder, hequal⟩ := hv.exists_order hw
  simp only [Operator.holds, hthere hv, hthere hw, horder, hequal, Operator.decided, Bool.or_self,
    Bool.false_eq_true, if_false, Option.any_some, Operator.accepts]
  refine ⟨_, _, _, rfl, rfl, rfl, ?_, ?_, ?_⟩ <;> cases order <;> rfl

end Stands

section

variable {types : Entries AttributeType} {field : String} {type : AttributeType} {record : Record}
  {v o w : Value} {os ws : List Value}

/-- A filter compares what the field and the operand stand for. -/
theorem satisfies_of_stands (htype : Entries.get? types field = some type)
    (hfield : field.startsWith "$" = false) (hrecord : Stands type (record.field field) v)
    (ho : Stands type o w) {op : Operator} (hop : op = .eq ∨ op.isOrdering = true) :
    satisfies types field record op o = op.holds v.measure w.measure := by
  rw [satisfies_eq_check htype hfield]
  have hsingle : op.takesList = false ∧ op ≠ .present := by
    cases op <;> simp_all [Operator.isOrdering, Operator.takesList]
  simp only [recordReading, hsingle.1, hsingle.2, if_false, Bool.false_eq_true, ho.1, Outcome.ok_bind,
    Outcome.pure_eq_ok, Check.holdsFor, hrecord.1]

/-- A filter for membership compares with what the members stand for. -/
theorem satisfies_of_standing (htype : Entries.get? types field = some type)
    (hfield : field.startsWith "$" = false) (hrecord : Stands type (record.field field) v)
    (hos : os.mapM (comparable (some type)) = .ok (ws.map Value.measure)) {op : Operator}
    (hop : op.takesList = true) :
    satisfies types field record op (.list os) = op.holds v.measure (.list (ws.map Value.measure)) := by
  rw [satisfies_eq_check htype hfield]
  simp only [recordReading, hop, if_true, operandList, Operator.candidates, hos, Outcome.ok_bind,
    Outcome.pure_eq_ok, Check.holdsFor, hrecord.1]

/-- A filter for presence looks at the field alone. -/
theorem satisfies_present (htype : Entries.get? types field = some type)
    (hfield : field.startsWith "$" = false) (hrecord : Stands type (record.field field) v) (operand : Value) :
    satisfies types field record .present operand =
      .ok ((!(record.field field).isNull) == operand.isTruthy) := by
  rw [satisfies_eq_check htype hfield, ← hrecord.isNull_eq]
  simp only [recordReading, Operator.takesList, if_false, Bool.false_eq_true, if_true, Outcome.ok_bind,
    Outcome.pure_eq_ok, Check.holdsFor, hrecord.1]
  rfl

/-- A value that is there is in just one of three orders to an operand. -/
theorem satisfies_ordered (htype : Entries.get? types field = some type)
    (hfield : field.startsWith "$" = false) (hrecord : Stands type (record.field field) v)
    (hv : type.Contains v) (ho : type.Names o) : ∃ less equal greater,
      satisfies types field record .lt o = .ok less ∧ satisfies types field record .eq o = .ok equal ∧
      satisfies types field record .gt o = .ok greater ∧ [less, equal, greater].count true = 1 ∧
      satisfies types field record .lte o = .ok (less || equal) ∧
      satisfies types field record .gte o = .ok (greater || equal) := by
  obtain ⟨w, hw⟩ := exists_stands (.inr ho)
  have hoperand : type.Contains w := by
    rcases hw.2 with ⟨rfl, -⟩ | ⟨-, hoperand⟩
    · cases ho.isNull_eq_false
    · exact hoperand
  have hanswer {op : Operator} (hop : op = .eq ∨ op.isOrdering = true) :=
    satisfies_of_stands htype hfield hrecord hw hop
  rw [hanswer (.inr rfl), hanswer (.inl rfl), hanswer (.inr rfl), hanswer (.inr rfl), hanswer (.inr rfl)]
  exact Stands.exists_comparison hv hoperand

/-- A value equals an operand that is there if it equals what the operand stands for. -/
theorem satisfies_equality_iff (htype : Entries.get? types field = some type)
    (hfield : field.startsWith "$" = false) (hrecord : Stands type (record.field field) v)
    (hv : type.Contains v) (ho : o ≠ .null) (hw : Stands type o w) :
    satisfies types field record .eq o = .ok true ↔ v.measure.equal? w.measure = some true := by
  obtain ⟨b, hequal, -⟩ := Stands.exists_equal? hv hw
  have hthere : w.measure.isNull = false := by
    rw [hw.isNull_eq]
    cases o <;> first | rfl | exact absurd rfl ho
  rw [satisfies_of_stands htype hfield hrecord hw (.inl rfl), Operator.holds, hthere, hequal]
  cases b <;> simp [Operator.decided]

/-- A value that is there is in a list if it equals a member that is there; null is in no list. -/
theorem satisfies_isIn (htype : Entries.get? types field = some type)
    (hfield : field.startsWith "$" = false) (hrecord : Stands type (record.field field) v)
    (hv : (record.field field).isNull = false → type.Contains v)
    (hos : ∀ o ∈ os, o = .null ∨ type.Names o) :
    ∃ found, satisfies types field record .isIn (.list os) = .ok found ∧
      (found = true ↔ (record.field field).isNull = false ∧
        ∃ o ∈ os, o ≠ .null ∧ satisfies types field record .eq o = .ok true) := by
  obtain ⟨ws, hmeasures, hws⟩ := exists_standing hos
  rw [satisfies_of_standing htype hfield hrecord hmeasures rfl, Operator.holds, hrecord.isNull_eq,
    Operator.candidates]
  cases hnull : (record.field field).isNull with
  | true => exact ⟨false, rfl, iff_of_false Bool.false_ne_true fun h => Bool.noConfusion h.1⟩
  | false =>
    obtain ⟨found, hfound, hiff⟩ := Stands.exists_isMember? (hv hnull) hws
    refine ⟨found, by rw [hfound]; rfl, hiff.trans ((and_iff_right rfl).trans ?_).symm⟩
    refine exists_congr fun o => and_congr_right fun ho => and_congr_right fun hthere => ?_
    constructor
    · intro h
      obtain ⟨w, hw⟩ := exists_stands (hos o ho)
      exact ⟨w, hw, (satisfies_equality_iff htype hfield hrecord (hv hnull) hthere hw).mp h⟩
    · rintro ⟨w, hw, h⟩
      exact (satisfies_equality_iff htype hfield hrecord (hv hnull) hthere hw).mpr h

/-- A value that is there is out of a list that is not empty if it is not in it and no member is null. -/
theorem satisfies_notIn (htype : Entries.get? types field = some type)
    (hfield : field.startsWith "$" = false) (hrecord : Stands type (record.field field) v)
    (hv : (record.field field).isNull = false → type.Contains v)
    (hos : ∀ o ∈ os, o = .null ∨ type.Names o) (hne : os ≠ []) :
    ∃ missed, satisfies types field record .notIn (.list os) = .ok missed ∧
      (missed = true ↔ (record.field field).isNull = false ∧ Value.null ∉ os ∧
        satisfies types field record .isIn (.list os) = .ok false) := by
  obtain ⟨ws, hmeasures, hws⟩ := exists_standing hos
  have hnonempty : os.isEmpty = false := by
    cases os with
    | nil => exact absurd rfl hne
    | cons => rfl
  have hnulls : os.any Value.isNull = true ↔ Value.null ∈ os := by
    rw [List.any_eq_true]
    constructor
    · rintro ⟨o, ho, hnull⟩
      cases o <;> first | exact ho | cases hnull
    · exact fun h => ⟨_, h, rfl⟩
  rw [satisfies_of_standing htype hfield hrecord hmeasures rfl,
    satisfies_of_standing htype hfield hrecord hmeasures rfl, Operator.holds, Operator.holds,
    hrecord.isNull_eq]
  simp only [Operator.candidates, Stands.isEmpty_eq hws, hnonempty, Stands.any_isNull hws,
    Bool.false_eq_true, if_false]
  cases hnull : (record.field field).isNull with
  | true => exact ⟨false, rfl, iff_of_false Bool.false_ne_true fun h => Bool.noConfusion h.1⟩
  | false =>
    obtain ⟨found, hfound, -⟩ := Stands.exists_isMember? (hv hnull) hws
    rw [hfound, ← hnulls]
    cases os.any Value.isNull <;> cases found <;> simp [Operator.decided, Except.map]

/-- Null is in no order to an operand. -/
theorem satisfies_order_of_null (htype : Entries.get? types field = some type)
    (hfield : field.startsWith "$" = false) (hrecord : Stands type (record.field field) v)
    (hnull : (record.field field).isNull = true) {op : Operator} (hop : op.isOrdering = true)
    (ho : type.Names o) : satisfies types field record op o = .ok false := by
  obtain ⟨w, hw⟩ := exists_stands (.inr ho)
  rw [satisfies_of_stands htype hfield hrecord hw (.inr hop)]
  cases op with
  | gt | gte | lt | lte => simp [Operator.holds, hrecord.isNull_eq, hnull]
  | present | eq | isIn | notIn => cases hop

end

/-- The operators obey their laws on each record of which the field is null or names a value of its type,
for operands that name values of the type. -/
theorem operators_obey_laws {types : Entries AttributeType} {field : String} {type : AttributeType}
    (htype : Entries.get? types field = some type) (hfield : field.startsWith "$" = false) {record : Record}
    (hrecord : record.field field = .null ∨ type.Names (record.field field)) :
    Operator.Laws (satisfies types field record) (record.field field).isNull type.Names := by
  obtain ⟨v, hv⟩ := exists_stands hrecord
  have hcontains (hnull : (record.field field).isNull = false) : type.Contains v := by
    rcases hv.2 with ⟨hvalue, -⟩ | ⟨-, hcontains⟩
    · rw [hvalue] at hnull
      cases hnull
    · exact hcontains
  have hpresent := satisfies_present htype hfield hv
  refine ⟨fun hnull o ho => satisfies_ordered htype hfield hv (hcontains hnull) ho,
    fun os hos => satisfies_isIn htype hfield hv hcontains hos,
    fun os hos hne => satisfies_notIn htype hfield hv hcontains hos hne,
    satisfies_of_standing htype hfield hv (show [].mapM _ = Except.ok (List.map Value.measure []) from rfl) rfl,
    ?_, ?_, ?_, fun hnull op hop o ho => satisfies_order_of_null htype hfield hv hnull hop ho,
    fun hnull os hos => ?_⟩
  · rw [hpresent]
    cases (record.field field).isNull <;> rfl
  · rw [hpresent]
    cases (record.field field).isNull <;> rfl
  · obtain ⟨w, hw⟩ : ∃ w, Stands type .null w := exists_stands (.inl rfl)
    rw [satisfies_of_stands htype hfield hv hw (.inl rfl), Operator.holds, hw.isNull_eq, hv.isNull_eq]
    rfl
  · obtain ⟨found, hfound, hiff⟩ := satisfies_isIn htype hfield hv hcontains hos
    have hmissed : found = false := by
      rw [← Bool.not_eq_true, hiff, hnull]
      exact fun h => Bool.noConfusion h.1
    rw [hfound, hmissed]

/-- A point of time with an offset. -/
def meetingTime : DateTime := ⟨⟨2024, 1, 2⟩, 3, 4, 5, 0, some 7200000000⟩

/-- The operators obey their laws on a meeting at that time; among others it is after the beginning of its
day. -/
theorem meeting_obeys_laws : "at".startsWith "$" = false ∧
    AttributeType.datetime.Names (.instant meetingTime) ∧
    AttributeType.datetime.Names (.date ⟨2024, 1, 2⟩) ∧
    satisfies [("at", .datetime)] "at" [("at", .instant meetingTime)] .gt (.date ⟨2024, 1, 2⟩) = .ok true ∧
    Operator.Laws (satisfies [("at", .datetime)] "at" [("at", .instant meetingTime)]) false
      AttributeType.datetime.Names := by
  have hfield : "at".startsWith "$" = false := String.startsWith_string_eq_false_iff.mpr (by decide)
  have hnames : AttributeType.datetime.Names (.instant meetingTime) :=
    AttributeType.names_instant
    (show _ = some (⟨⟨2024, 1, 2⟩, 1, 4, 5, 0, none⟩ : DateTime) by decide +kernel)
  exact ⟨hfield, hnames, ⟨_, rfl, .datetime rfl⟩, by cbv, operators_obey_laws rfl hfield (.inr hnames)⟩

/-- The first hour of the calendar with an offset that puts it before the calendar in universal time. -/
def earliestHour : DateTime := ⟨⟨1, 1, 1⟩, 0, 0, 0, 0, some 3600000000⟩

/-- That point of time is in no order to any other: each of the operators fails. -/
theorem earliest_hour_has_no_order : earliestHour.isValid = true ∧
    AttributeType.datetime.Names (.date ⟨2024, 1, 2⟩) ∧ ∀ op ∈ [Operator.lt, .eq, .gt],
      satisfies [("at", .datetime)] "at" [("at", .instant earliestHour)] op (.date ⟨2024, 1, 2⟩) =
        .error .outOfRange := by
  refine ⟨by decide +kernel, ⟨_, rfl, .datetime rfl⟩, fun op hop => ?_⟩
  simp only [List.mem_cons, List.not_mem_nil, or_false] at hop
  rcases hop with rfl | rfl | rfl <;> cbv

end Filter

end TwinStore
