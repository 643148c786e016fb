import Mathlib
import TwinStore.Proofs.Content
import TwinStore.Proofs.KeyFilters
import TwinStore.Proofs.WholeRows

/-!
# Deletion of a row that was read

A row that a query returned is deleted by the values of its key columns, or of all columns where a
model has no key: each value is read as a filter operand, and stands for equality with some cell.  For
most values that is the cell that they were read from.  Then exactly the rows that agree with the row go,
and nothing else changes.

Main definitions:

- `Cell.IsKept`, `Cell.IsRecalled`: the cells that a column can hold, and those whose values ask for them.
- `AsksFor`: what it means that a value asks for a cell.
- `Model.matchedAttributes`: the attributes by which a row is matched.
- `Table.without`: a table without the rows that agree with a row.

Main results:

- Theorem `Cell.IsRecalled.asksFor`: the values of such cells ask for them.
- Theorem `selects_recalled`: a filter for several such values selects the rows that agree in all.
- Theorem `exists_row_of_query`: a query returns records that are read from rows of the table.
- Theorem `destroy_gives_agreeing`: a deletion removes the rows that agree with a row.
- Theorem `destroy_removes_row_read`: so does the deletion of a row that a query returned.
-/

namespace TwinStore

open Primary Filter

namespace Number.Decimal

theorem compareMagnitude_self (c : Nat) (e : Int) : compareMagnitude c e c e = .eq := by
  simp [compareMagnitude]

/-- A number equals itself, unless it is not a number. -/
theorem compare?_self (d : Decimal) : (d.compare? d).getD .eq = .eq := by
  cases d with
  | finite negative coefficient exponent =>
    simp only [compare?, compareMagnitude_self]
    split_ifs <;> simp_all
  | infinity negative => simp [compare?]
  | nan _ _ _ => rfl

end Number.Decimal

namespace Primary

/-! ## Cells -/

namespace Cell

/-- Whether two cells agree: they are the same, or both are empty. -/
def agrees (a b : Cell) : Bool := (a.isNull && b.isNull) || a.sameKey b

theorem order_self (cell : Cell) : cell.order cell = .eq := by
  cases cell with
  | null => rfl
  | int n => rw [order_int, compare_eq_iff_eq]
  | real x => exact Number.Decimal.compare?_self _
  | text s => exact Std.ReflOrd.compare_self
  | blob bytes =>
    show compareOfLessAndEq _ _ = _
    rw [compareOfLessAndEq, if_neg (List.lt_irrefl _), if_pos rfl]

/-- Every cell agrees with itself. -/
theorem agrees_self (cell : Cell) : cell.agrees cell = true := by
  cases h : cell.isNull <;> simp [agrees, sameKey, compare?, h, order_self]

/-- Agreement with a cell that is not empty. -/
theorem agrees_of_isNull_eq_false {a b : Cell} (h : b.isNull = false) : a.agrees b = a.sameKey b := by
  rw [agrees, h, Bool.and_false, Bool.false_or]

/-- Agreement with the empty cell. -/
theorem agrees_null (a : Cell) : a.agrees .null = a.isNull := by
  cases a <;> rfl

/-- The cells that a column can hold: they are in the form in which the column keeps them, integers
have 64 bits, and no real number is undefined. -/
structure IsKept (type : AttributeType) (cell : Cell) : Prop where
  stored : (Affinity.ofType type).store cell = cell
  fits : ∀ n, cell = .int n → fitsWord n = true
  isNumber : ∀ x, cell = .real x → x.isNaN = false

/-- A column can hold a text that it stores as it is. -/
theorem isKept_text {type : AttributeType} {s : String}
    (h : (Affinity.ofType type).store (.text s) = .text s) : IsKept type (.text s) :=
  ⟨h, by simp, by simp⟩

/-- The cells whose values ask for them when they are given back: a value that is the cell itself, a
value of an exact type in the form in which it is stored, a decimal number that names the double in the
cell, and a list in a document. -/
inductive IsRecalled : AttributeType → Cell → Prop where
  | raw {type : AttributeType} {cell : Cell} (isKept : cell.IsKept type)
    (reads : valueOf type cell = .ok (rawValue cell)) : IsRecalled type cell
  | exact {type : AttributeType} {v : Value} (holds : type.Holds v) : IsRecalled type (storedCell v)
  | decimal {cell c : Cell} {d : Number.Decimal} {x : Float}
    (reads : valueOf .decimal cell = .ok (.decimal d)) (double : floatOf? (.decimal d) = some x)
    (becomes : cellOf (.float x) = .ok c) (names : Affinity.numeric.store c = cell) :
    IsRecalled .decimal cell
  | list {s : String} {items : List Value} (isKept : (Cell.text s).IsKept .json)
    (reads : valueOf .json (.text s) = .ok (.list items))
    (writes : documentText (.list items) = some s) : IsRecalled .json (.text s)

end Cell

/-- Whether a value of a type asks for a cell: it is a plain operand, and equality with it selects the
rows whose cell agrees. -/
structure AsksFor (type : AttributeType) (v : Value) (cell : Cell) : Prop where
  isPlain : ∀ field lines, runFrom (conditionsOn field v) lines = (.ok [(.eq, v)], lines)
  selects : ∀ (m : Model) (field : String), Entries.get? m.attributeTypes field = some type →
    ∃ comparison, (storeReading m).leafOf m ⟨field, .eq, v⟩ = .ok comparison ∧ comparison.IsReady ∧
      ∀ row, (comparison.condition.holds? row == some true) = (row.cell field).agrees cell

section

variable {type : AttributeType} {v b : Value} {cell c : Cell}

/-- Equality with a value that coercion leaves alone. -/
theorem leafOf_eq {m : Model} {field : String} (hfield : Entries.get? m.attributeTypes field = some type)
    (hcoerce : coerce (some type) v = .ok v) :
    (storeReading m).leafOf m ⟨field, .eq, v⟩ = .ok ⟨field, type, .eq, v⟩ := by
  simp [Reading.leafOf, hfield, storeReading, Operator.takesList, Operator.isOrdering, hcoerce]

/-- Null asks for the empty cell. -/
theorem asksFor_null (type : AttributeType) : AsksFor type .null .null where
  isPlain _ _ := rfl
  selects m field hfield := by
    refine ⟨_, leafOf_eq hfield (by cases type <;> rfl), ⟨rfl, rfl⟩, fun row => ?_⟩
    rw [Cell.agrees_null]
    show (some ((row.cell field).isNull != false) == some true) = _
    cases (row.cell field).isNull <;> rfl

/-- A value that coercion leaves alone asks for the cell that it becomes in a comparison. -/
theorem asksFor_of_compare (hplain : ∀ entries, v ≠ .map entries) (hcoerce : coerce (some type) v = .ok v)
    (hcompare : ∀ field, Condition.ofComparison ⟨field, type, .eq, v⟩ =
      .ok (.compare field (Affinity.ofType type) .eq b))
    (hcell : cellOf b = .ok c) (hstore : (Affinity.ofType type).store c = cell)
    (hnull : cell.isNull = false) : AsksFor type v cell where
  isPlain field lines := by
    cases v with
    | map entries => exact absurd rfl (hplain entries)
    | _ => rfl
  selects m field hfield := by
    have hcells : (Condition.compare field (Affinity.ofType type) .eq b).mapOutcome cellOf =
        .ok (.compare field (Affinity.ofType type) .eq c) := by
      rw [Condition.mapOutcome, hcell]
      rfl
    obtain ⟨hready, hcondition⟩ := Comparison.isReady_of_eq (hcompare field) hcells
    refine ⟨_, leafOf_eq hfield hcoerce, hready, fun row => ?_⟩
    rw [hcondition, Condition.holds?, hstore, Cell.agrees_of_isNull_eq_false hnull, Cell.sameKey,
      Condition.compared?]
    cases (row.cell field).compare? cell with
    | none => rfl
    | some o => cases o <;> rfl

/-- No value that is its cell is a map. -/
theorem rawValue_ne_map (cell : Cell) (entries : Entries Value) : rawValue cell ≠ .map entries := by
  cases cell <;> simp [rawValue]

/-- A value that is its cell asks for it. -/
theorem asksFor_rawValue (hkept : cell.IsKept type) (hreads : valueOf type cell = .ok (rawValue cell)) :
    AsksFor type (rawValue cell) cell := by
  have hcoerce : coerce (some type) (rawValue cell) = .ok (rawValue cell) := by
    generalize hraw : rawValue cell = v at hreads ⊢
    cases Reads.of_valueOf hreads with
    | null => cases type <;> rfl
    | integer | real | date | instant | uuid => cases hraw
    | _ => rfl
  cases cell with
  | null => exact asksFor_null type
  | int n => exact asksFor_of_compare (rawValue_ne_map _) hcoerce (fun _ => rfl) (if_pos (hkept.fits n rfl)) hkept.stored rfl
  | real x =>
    have hcell : cellOf (.float x) = .ok (.real x) := by
      rw [cellOf, hkept.isNumber x rfl]
      rfl
    exact asksFor_of_compare (rawValue_ne_map _) hcoerce (fun _ => rfl) hcell hkept.stored rfl
  | text s => exact asksFor_of_compare (rawValue_ne_map _) hcoerce (fun _ => rfl) rfl hkept.stored rfl
  | blob bytes => exact asksFor_of_compare (rawValue_ne_map _) hcoerce (fun _ => rfl) rfl hkept.stored rfl

/-- A value of an exact type asks for its cell. -/
theorem asksFor_of_holds (hv : type.Holds v) : AsksFor type v (storedCell v) where
  isPlain field lines := conditionsOn_of_admits (Or.inr hv) field lines
  selects m field hfield := by
    obtain ⟨hready, hcondition⟩ := isReady_compare field hv (Or.inl rfl)
    have hnull : (storedCell v).isNull = false :=
      (isNull_storedCell (Or.inr hv)).trans (AttributeType.isNull_of_holds hv)
    refine ⟨_, leafOf_eq hfield (coerce_of_admits (Or.inr hv)), hready, fun row => ?_⟩
    rw [hcondition, Condition.holds?, store_storedCell (Or.inr hv), Condition.compared?,
      Cell.agrees_of_isNull_eq_false hnull, Cell.sameKey]
    cases (row.cell field).compare? (storedCell v) with
    | none => rfl
    | some o => cases o <;> rfl

end

/-- The value that is read from a recalled cell asks for it. -/
theorem Cell.IsRecalled.asksFor {type : AttributeType} {cell : Cell} (h : cell.IsRecalled type) {v : Value}
    (hv : valueOf type cell = .ok v) : AsksFor type v cell := by
  cases h with
  | raw hkept hreads =>
    obtain rfl := Except.ok.inj (hreads.symm.trans hv)
    exact asksFor_rawValue hkept hreads
  | exact hholds =>
    obtain rfl := Except.ok.inj ((valueOf_storedCell (Or.inr hholds)).symm.trans hv)
    exact asksFor_of_holds hholds
  | @decimal _ _ d x hreads hdouble hbecomes hnames =>
    obtain rfl := Except.ok.inj (hreads.symm.trans hv)
    have hprepare : Binding.number.prepare (.decimal d) = .ok (.float x) := by
      simp only [Binding.prepare, Binding.form?, hdouble, Option.map_some]
    refine asksFor_of_compare nofun rfl (fun field => ?_) hbecomes hnames ?_
    · show (Binding.number.prepare (.decimal d) >>= _ : Outcome _) = _
      rw [hprepare]
      rfl
    · cases cell with
      | null => cases hreads
      | _ => rfl
  | @list s items hkept hreads hwrites =>
    obtain rfl := Except.ok.inj (hreads.symm.trans hv)
    have hprepare : Binding.document.prepare (.list items) = .ok (.text s) := by
      simp only [Binding.prepare, Binding.form?, hwrites, Option.map_some]
    have hcell : cellOf (.text s) = .ok (.text s) := rfl
    refine asksFor_of_compare nofun rfl (fun field => ?_) hcell hkept.stored rfl
    show (Binding.document.prepare (.list items) >>= _ : Outcome _) = _
    rw [hprepare]
    rfl

/-! ## Filters -/

/-- Whether two rows agree in some columns. -/
def Row.agreesOn (names : List String) (a b : Row) : Bool :=
  names.all fun name => (a.cell name).agrees (b.cell name)

/-- Every row agrees with itself. -/
theorem Row.agreesOn_self (names : List String) (row : Row) : row.agreesOn names row = true :=
  List.all_eq_true.mpr fun name _ => Cell.agrees_self (row.cell name)

end Primary

namespace Filter

/-- What a filter for the fields of a record requires. -/
def sameFormula (as : List Attribute) (record : Record) : Formula Requirement :=
  .conj (as.map fun a => .leaf ⟨a.name, .eq, record.field a.name⟩)

variable {m : Model} {as : List Attribute} {record : Record} {row : Row}

theorem leaves_sameFormula (as : List Attribute) (record : Record) :
    (sameFormula as record).leaves =
      as.map fun a => (⟨a.name, .eq, record.field a.name⟩ : Requirement) := by
  have h := Formula.leavesOf_leaves
    (as.map fun a => (⟨a.name, .eq, record.field a.name⟩ : Requirement))
  rwa [List.map_map] at h

/-- Values that ask for the cells of a row are had by the rows that agree with the row. -/
theorem selects_sameFormula (hproper : m.IsProper)
    (has : ∀ a ∈ as, a ∈ m.attributes ∧ AsksFor a.type (record.field a.name) (row.cell a.name))
    (r : Row) : (testOf m (sameFormula as record)).selects r = r.agreesOn (as.map (·.name)) row := by
  rw [selects_testOf, sameFormula, Formula.eval, Row.agreesOn, List.all_map]
  induction as with
  | nil => rfl
  | cons a as ih =>
    obtain ⟨ha, hasks⟩ := has a List.mem_cons_self
    obtain ⟨comparison, hleaf, -, hselects⟩ :=
      hasks.selects m a.name (hproper.get?_attributeTypes ha)
    rw [List.map_cons, Formula.evalAll, Formula.eval, hleaf,
      ih fun b hb => has b (List.mem_cons_of_mem a hb), List.all_cons]
    exact congrArg (· && _) (hselects r)

/-- A filter for values that ask for the cells of a row is read as a clause that can be made ready and
selects the rows that agree with the row. -/
theorem selects_recalled (hm : m.IsDeclared) (hproper : m.IsProper)
    (has : ∀ a ∈ as, a ∈ m.attributes ∧ AsksFor a.type (record.field a.name) (row.cell a.name)) :
    (toClause (sameFilter (as.map (·.name)) record) m).run =
        ([], .ok (clauseOf m (sameFormula as record))) ∧
      (∀ comparison ∈ (clauseOf m (sameFormula as record)).leaves, comparison.IsReady) ∧
      ∀ r, (testOf m (sameFormula as record)).selects r = r.agreesOn (as.map (·.name)) row := by
  have hasks (a : Attribute) (ha : a ∈ as) :=
    (has a ha).2.selects m a.name (hproper.get?_attributeTypes (has a ha).1)
  have hread : (storeReading m).CanRead m (sameFormula as record).leaves := by
    intro c hc
    rw [leaves_sameFormula] at hc
    obtain ⟨a, ha, rfl⟩ := List.mem_map.mp hc
    obtain ⟨comparison, hleaf, -⟩ := hasks a ha
    rw [hleaf]
    rfl
  have hplain : runFrom ((plainReading m).filter (sameFilter (as.map (·.name)) record)) [] =
      (.ok (sameFormula as record), []) := by
    have h := @runFrom_filter_plain m _ as (·.name) (fun a => record.field a.name)
      (fun a => [(.eq, record.field a.name)])
      (fun a ha => ⟨hm.attributes a (has a ha).1, a.type, hproper.get?_attributeTypes (has a ha).1⟩)
      (fun a ha => (has a ha).2.isPlain a.name [])
    rw [sameFilter, List.map_map]
    simp only [List.map_cons, List.map_nil, ← List.map_eq_flatMap] at h
    exact h
  refine ⟨?_, fun comparison hc => ?_, selects_sameFormula hproper has⟩
  · rw [Reported.run, ← runFrom, toClause,
      runFrom_bind_of_ok (Reading.filter_of_plain (knows_storeReading m) hplain hread)]
    rfl
  · have hleaf := Clause.leaves_ofFormula hc
    rw [Formula.leaves_map, leaves_sameFormula, List.map_map] at hleaf
    obtain ⟨a, ha, rfl⟩ := List.mem_map.mp hleaf
    obtain ⟨comparison, hleaf, hready, -⟩ := hasks a ha
    rw [Function.comp_apply, hleaf]
    exact hready

end Filter

open Action

/-! ## Matched columns -/

/-- The attributes by which a row is matched: those of the key, or all if there is no key. -/
def Model.matchedAttributes (m : Model) : List Attribute :=
  if m.primaryKeys.isEmpty then m.attributes else m.keyAttributes

/-- The names of the columns by which a row is matched. -/
def Model.matchedColumns (m : Model) : List String := m.matchedAttributes.map (·.name)

theorem Model.mem_attributes_of_matched {m : Model} {a : Attribute} (ha : a ∈ m.matchedAttributes) :
    a ∈ m.attributes := by
  unfold matchedAttributes at ha
  split_ifs at ha
  · exact ha
  · exact (List.mem_filter.mp ha).1

namespace Primary

variable {d : Deployment} {model : String} {m : Model} {db : Database} {t : Table} {record : Record}
  {row : Row}

/-- A row is named by the values of its matched columns. -/
theorem rowFilter_eq (m : Model) (record : Record) :
    rowFilter m (.map record) = .ok (sameFilter m.matchedColumns record) := by
  rw [rowFilter, Value.entries, Outcome.ok_bind, Model.matchedColumns, Model.matchedAttributes]
  split_ifs <;> rfl

/-- Whether the values of a record are those of a row in the matched columns. -/
def IsReadFrom (m : Model) (record : Record) (row : Row) : Prop :=
  ∀ a ∈ m.matchedAttributes, valueOf a.type (row.cell a.name) = .ok (record.field a.name)

/-! ## Deletion -/

/-- A table without the rows that agree with a row in the matched columns. -/
def Table.without (t : Table) (row : Row) : Table :=
  { t with rows := t.rows.filter fun r => !r.agreesOn t.model.matchedColumns row }

/-- The statement that deletes a row removes the rows that agree with it. -/
theorem deletion_eq (hm : m.IsDeclared) (hproper : m.IsProper) (ht : db.table m = .ok t)
    (hmodel : t.model = m) (hread : IsReadFrom m record row)
    (hrecalled : ∀ a ∈ m.matchedAttributes, (row.cell a.name).IsRecalled a.type) :
    deletion m (.map record) db =
      .ok (db.put (t.without row), t.rows.any fun r => r.agreesOn m.matchedColumns row) := by
  obtain ⟨hclause, hready, hselects⟩ := @selects_recalled m m.matchedAttributes record row hm hproper
    fun a ha => ⟨Model.mem_attributes_of_matched ha, (hrecalled a ha).asksFor (hread a ha)⟩
  obtain ⟨prepared, hprepare, hready⟩ := prepare_eq_of_isReady hready
  have hselects (r : Row) : (testOf m (sameFormula m.matchedAttributes record)).selects r =
      r.agreesOn m.matchedColumns row := hselects r
  have hkept : (t.delete (testOf m (sameFormula m.matchedAttributes record))).1 = t.without row := by
    simp only [Table.delete, Table.without, hselects, hmodel]
  have hcount : decide ((t.delete (testOf m (sameFormula m.matchedAttributes record))).2 > 0) =
      t.rows.any fun r => r.agreesOn m.matchedColumns row := by
    simp only [Table.delete, hselects, gt_iff_lt, Nat.sub_pos_iff_lt]
    rw [Bool.eq_iff_iff, decide_eq_true_iff, List.any_eq_true, List.length_filter_lt_length_iff_exists]
    simp
  rw [deletion, rowFilter_eq, Outcome.ok_bind, Model.matchedColumns, hclause, Outcome.ok_bind,
    Database.delete, Database.tableAndTest, hprepare, Outcome.ok_bind, ht, Outcome.ok_bind, hready,
    ← hkept]
  exact congrArg (fun b => Except.ok (_, b)) hcount

/-- Deleting a row removes the rows that agree with it, and tells whether there were any. -/
theorem destroy_gives_agreeing (hr : d.registry.IsSound) (hm : d.registry.table model = .ok m)
    (given : Option CorrelationRef) {c : Stores} (ht : c.database.table m = .ok t)
    (hmodel : t.model = m) (hplanned : c.plannedDeletions = []) (hread : IsReadFrom m record row)
    (hrecalled : ∀ a ∈ m.matchedAttributes, (row.cell a.name).IsRecalled a.type) :
    (destroy d given model (.map record)).Gives c
      (.ok (some (t.rows.any fun r => r.agreesOn m.matchedColumns row)))
      { c with database := c.database.put (t.without row) } := by
  have hmodel? := Registry.model?_of_table hm
  have hdestroy := destroy_gives hm given (.map record) hplanned
  rwa [deletion_eq (hr.isDeclared hmodel?) (hr.isProper hmodel?) ht hmodel hread hrecalled] at hdestroy

/-! ## Rows that are read -/

section

variable {r : Registry} {entries entries' : List (Record × Bool)}

/-- Attaching related records leaves the fields alone that have another name. -/
theorem field_attachPlan : ∀ {plan : ClausePlan}, attachPlan r db plan entries = .ok entries' →
    ∀ e' ∈ entries', ∃ e ∈ entries, ∀ name, name ≠ plan.model → e'.1.field name = e.1.field name
  | .node _ _ _ _ none _, h, e', he' => by
    obtain rfl := Except.ok.inj h
    exact ⟨e', he', fun _ _ => rfl⟩
  | .node model required attributes where_ (some relation) children, h, e', he' => by
    obtain ⟨found, shown, rfl, -⟩ := exists_found h
    obtain ⟨e, he, rfl⟩ := List.mem_map.mp he'
    refine ⟨e, he, fun name hname => ?_⟩
    simp only [attachFound, Record.field]
    rw [Entries.get?_set_of_ne _ _ hname]

/-- Attaching the related records of several plans leaves all other fields alone. -/
theorem field_attachPlans {plans : List ClausePlan}
    (h : attachPlans r db plans entries = .ok entries') :
    ∀ e' ∈ entries', ∃ e ∈ entries, ∀ name, (∀ plan ∈ plans, name ≠ plan.model) →
      e'.1.field name = e.1.field name := by
  induction plans generalizing entries with
  | nil =>
    rw [attachPlans] at h
    obtain rfl := Except.ok.inj h
    exact fun e' he' => ⟨e', he', fun _ _ => rfl⟩
  | cons plan rest ih =>
    rw [attachPlans] at h
    obtain ⟨attached, hplan, hrest⟩ := Outcome.bind_eq_ok.mp h
    intro e' he'
    obtain ⟨e₁, he₁, hfield₁⟩ := ih hrest e' he'
    obtain ⟨e, he, hfield⟩ := field_attachPlan hplan e₁ he₁
    refine ⟨e, he, fun name hname => ?_⟩
    rw [hfield₁ name fun p hp => hname p (List.mem_cons_of_mem plan hp),
      hfield name (hname plan List.mem_cons_self)]

/-- A field that a projection keeps has its value. -/
theorem field_projectNamed {names : List String} {attributes : Value} {shown : Record} {name : String}
    (h : projectNamed names attributes record = .ok shown) (hhas : Entries.has shown name = true) :
    shown.field name = record.field name := by
  rw [projectNamed] at h
  split_ifs at h
  · rw [← Except.ok.inj h]
  · obtain ⟨wanted, -, h⟩ := Outcome.bind_eq_ok.mp h
    obtain rfl := Except.ok.inj h
    obtain ⟨v, hv⟩ := Entries.exists_get? (Entries.has_iff.mp hhas)
    rw [Record.field, Record.field, hv]
    rw [Record.project, Entries.get?_filter fun k => wanted.contains k || names.contains k] at hv
    split_ifs at hv
    rw [hv]

end

/-- The primary store answers with a result only if there is one. -/
theorem answered_eq_some {α : Type} {o : Outcome α} {a : α} (h : answered o = .ok (some a)) :
    o = .ok a := by
  unfold answered at h
  split at h
  · exact congrArg _ (Option.some.inj (Except.ok.inj h))
  · split_ifs at h
    cases h

/-- What a query returns was selected, and then projected. -/
theorem query_ensures (hm : d.registry.table model = .ok m) (given : Option CorrelationRef)
    (wanted : Selection) (attributes : Value) (plans : List ClausePlan) (c : Stores) :
    Ensures (· = c) (query d given model wanted attributes plans) fun answer c' => c' = c ∧
      ∀ records, answer = some records → ∃ clause selected,
        selectWith d.registry c.database m clause plans = .ok selected ∧
        selected.mapM (projectNamed d.registry.modelNames attributes) = .ok records := by
  rw [query, onTable]
  refine Ensures.inScope fun ref =>
    Ensures.leads_bind (Leads.knows (Registry.hasModel_of_table hm) ref component _) ?_
  rw [if_pos rfl, hm]
  refine Ensures.leads_bind (Leads.ofOutcome (.ok m) _) ?_
  refine Ensures.bind (Ensures.of_leads
    (guarded_gives ref "Query" model (selectWith_gives d.registry m wanted plans c)) fun selected c' h hc' =>
      (⟨hc', h⟩ : c' = c ∧ _)) fun selected => Ensures.of_content ?_
  rintro _ ⟨rfl, hselected⟩
  cases selected with
  | none => exact Ensures.pure fun c' hc' => ⟨hc', nofun⟩
  | some rows =>
    obtain ⟨clause, -, hrows⟩ := Outcome.bind_eq_ok.mp (answered_eq_some hselected)
    refine Ensures.bind (Ensures.of_leads (Leads.ofOutcome _ _) fun shown c' h hc' =>
      (⟨hc', h⟩ : c' = _ ∧ _)) fun shown => Ensures.pure ?_
    rintro c' ⟨rfl, hshown⟩
    refine ⟨rfl, ?_⟩
    rintro _ ⟨rfl⟩
    exact ⟨clause, rows, hrows, hshown⟩

/-- Records that were selected are read from rows of the table, in the columns that no plan is named
like. -/
theorem exists_row_of_selectWith {r : Registry} (hproper : m.IsProper) (ht : db.table m = .ok t)
    {clause : Clause Comparison} {plans : List ClausePlan} {selected : List Record}
    (h : selectWith r db m clause plans = .ok selected)
    (hplans : ∀ plan ∈ plans, plan.model ∉ m.matchedColumns) :
    ∀ record ∈ selected, ∃ row ∈ t.rows, IsReadFrom m record row := by
  obtain ⟨found, hselect, h⟩ := Outcome.bind_eq_ok.mp h
  obtain ⟨entries, hattach, h⟩ := Outcome.bind_eq_ok.mp h
  obtain rfl := Except.ok.inj h
  obtain ⟨⟨t', test⟩, htest, hrows⟩ := Outcome.bind_eq_ok.mp hselect
  obtain rfl : t' = t := by
    obtain ⟨prepared, -, htest⟩ := Outcome.bind_eq_ok.mp htest
    rw [ht, Outcome.ok_bind] at htest
    obtain ⟨_, -, htest⟩ := Outcome.bind_eq_ok.mp htest
    exact (Prod.mk.inj (Except.ok.inj htest)).1.symm
  intro record hrecord
  obtain ⟨e', he', rfl⟩ := List.mem_map.mp hrecord
  obtain ⟨e, he, hfield⟩ := field_attachPlans hattach e' (List.mem_filter.mp he').1
  obtain ⟨full, hfull, rfl⟩ := List.mem_map.mp he
  obtain ⟨row, hrow, hread⟩ := Outcome.exists_of_mem_mapM hrows hfull
  refine ⟨row, (Table.IsOrderly.mem_select.mp hrow).1, fun a ha => ?_⟩
  rw [hfield a.name fun plan hplan heq =>
    hplans plan hplan (heq ▸ List.mem_map_of_mem ha)]
  exact field_of_recordOf hproper hread (Model.mem_attributes_of_matched ha)

/-- A row that was read and has its matched columns is deleted with the rows that agree with it, if its
values ask for their cells; every other row of this and of every other table stays as it is. -/
theorem destroy_removes_row_read (hd : d.registry.Built) (hm : d.registry.table model = .ok m)
    {s s₁ : Stores} (ht : s.database.table m = .ok t) (hmodel : t.model = m)
    (hplanned : s.plannedDeletions = []) {given given' : Option CorrelationRef} {wanted : Selection}
    {attributes : Value} {plans : List ClausePlan} {records : List Record}
    (hquery : runFrom (query d given model wanted attributes plans) s = (.ok (some records), s₁))
    (hrecord : record ∈ records) (hcolumns : ∀ name ∈ m.matchedColumns, Entries.has record name = true)
    (hplans : ∀ plan ∈ plans, plan.model ∉ m.matchedColumns)
    (hrecalled : ∀ row ∈ t.rows, IsReadFrom m record row →
      ∀ a ∈ m.matchedAttributes, (row.cell a.name).IsRecalled a.type) :
    ∃ row ∈ t.rows, IsReadFrom m record row ∧
      ∃ s', runFrom (destroy d given' model (.map record)) s₁ = (.ok (some true), s') ∧
        s'.database.table m = .ok (t.without row) ∧
        (∀ other : Model, other.name ≠ m.name →
          s'.database.table other = s.database.table other) ∧
        s'.content = { s.content with database := s'.database } := by
  have hr := hd.isSound
  obtain ⟨hcontent, hanswer⟩ := query_ensures hm given wanted attributes plans s.content s _ s₁ rfl hquery
  obtain ⟨clause, selected, hselected, hshown⟩ := hanswer records rfl
  obtain ⟨full, hfull, hproject⟩ := Outcome.exists_of_mem_mapM hshown hrecord
  obtain ⟨row, hrow, hread⟩ := exists_row_of_selectWith (hr.isProper (Registry.model?_of_table hm)) ht
    hselected hplans full hfull
  have hread : IsReadFrom m record row := by
    intro a ha
    rw [field_projectNamed hproject (hcolumns a.name (List.mem_map_of_mem ha))]
    exact hread a ha
  obtain ⟨s', hrun, hs'⟩ := destroy_gives_agreeing hr hm given' (c := s.content) ht hmodel hplanned
    hread (hrecalled row hrow hread) s₁ hcontent
  have hpresent : (t.rows.any fun r => r.agreesOn m.matchedColumns row) = true :=
    List.any_eq_true.mpr ⟨row, hrow, Row.agreesOn_self _ row⟩
  have hdatabase : s'.database = s.database.put (t.without row) := congrArg Stores.database hs'
  rw [hpresent] at hrun
  obtain ⟨hself, hothers⟩ := Database.tables_put s.database
    (show (t.without row).model = m from hmodel)
  rw [← hdatabase] at hself hothers
  refine ⟨row, hrow, hread, s', hrun, hself, hothers, ?_⟩
  rw [hs', hdatabase]
  rfl

/-! ## Notes -/

/-- A model without a key, with a document beside a text. -/
def note : Model := ⟨"note", [{ name := "tag", type := .str }, { name := "data", type := .json }], []⟩

/-- The registry of that model alone. -/
def notes : Deployment := ⟨(Registry.register {} [note]).1, "", true, none⟩

theorem built_notes : notes.registry.Built := by
  refine @Registry.Built.register _ _ [note] [] .empty (fun m hm => ?_) rfl
  rw [List.mem_singleton.mp hm]
  exact ⟨by decide, by decide⟩

/-- A note with a document. -/
def noteOf (data : Value) : Record := [("tag", .text "a"), ("data", data)]

/-- The stores after two notes were inserted. -/
def withNotes (first second : Value) : Stores :=
  let empty : Stores := { database := Database.create (notes.registry.models.map (·.2)) }
  let s := (runFrom (create notes none "note" (.map (noteOf first))) empty).2
  (runFrom (create notes none "note" (.map (noteOf second))) s).2

/-- The query for all notes. -/
def allNotes : Action (Option (List Record)) :=
  query notes none "note" (.filter .null) .null []

/-- The row of a note whose document has a text. -/
def noteRow (document : String) : Row := [("tag", .text "a"), ("data", .text document)]

theorem isRecalled_noteRow {document : String} (h : (Cell.text document).IsRecalled .json) :
    ∀ a ∈ note.matchedAttributes, ((noteRow document).cell a.name).IsRecalled a.type := by
  intro a ha
  rcases List.mem_cons.mp (show a ∈ note.attributes from ha) with rfl | ha
  · exact .exact (.str "a")
  · rw [List.mem_singleton.mp ha]
    exact h

/-- A note with a list is deleted and the other one stays. -/
theorem listed_note_is_destroyed :
    ∃ s₁, notes.registry.table "note" = .ok note ∧
      (withNotes (.list [.int 1]) (.list [])).database.table note =
        .ok ⟨note, [noteRow "[1]", noteRow "[]"]⟩ ∧
      runFrom allNotes (withNotes (.list [.int 1]) (.list [])) =
        (.ok (some [noteOf (.list [.int 1]), noteOf (.list [])]), s₁) ∧
      ∃ row ∈ [noteRow "[1]", noteRow "[]"], IsReadFrom note (noteOf (.list [.int 1])) row ∧
        ∃ s', runFrom (destroy notes none "note" (.map (noteOf (.list [.int 1])))) s₁ =
            (.ok (some true), s') ∧
          s'.database.table note =
            .ok (Table.without ⟨note, [noteRow "[1]", noteRow "[]"]⟩ row) ∧
          (∀ other : Model, other.name ≠ note.name → s'.database.table other =
            (withNotes (.list [.int 1]) (.list [])).database.table other) ∧
          s'.content = { (withNotes (.list [.int 1]) (.list [])).content with database := s'.database } := by
  have htable : (withNotes (.list [.int 1]) (.list [])).database.table note =
      .ok ⟨note, [noteRow "[1]", noteRow "[]"]⟩ := by cbv
  have hquery := runFrom_eq (show (runFrom allNotes (withNotes (.list [.int 1]) (.list []))).1 =
    .ok (some [noteOf (.list [.int 1]), noteOf (.list [])]) by cbv)
  refine ⟨_, rfl, htable, hquery, destroy_removes_row_read built_notes rfl htable rfl (by cbv) hquery
    List.mem_cons_self (by decide) (List.forall_mem_nil _) fun row hrow _ => ?_⟩
  rcases List.mem_cons.mp hrow with rfl | hrow
  · exact isRecalled_noteRow (@Cell.IsRecalled.list _ [.int 1] (Cell.isKept_text (by cbv)) (by cbv) (by cbv))
  · rw [List.mem_singleton.mp hrow]
    exact isRecalled_noteRow (@Cell.IsRecalled.list _ [] (Cell.isKept_text (by cbv)) (by cbv) (by cbv))

/-- An empty document is an empty set of operators, so that it asks for nothing: the other note goes
too. -/
theorem empty_document_deletes_all :
    ∃ s₁ s', runFrom allNotes (withNotes (.map []) (.map [("k", .int 1)])) =
        (.ok (some [noteOf (.map []), noteOf (.map [("k", .int 1)])]), s₁) ∧
      s₁.database.table note = .ok ⟨note, [noteRow "\x7b\x7d", noteRow "\x7b\"k\": 1\x7d"]⟩ ∧
      (noteRow "\x7b\"k\": 1\x7d").agreesOn note.matchedColumns (noteRow "\x7b\x7d") = false ∧
      runFrom (destroy notes none "note" (.map (noteOf (.map [])))) s₁ = (.ok (some true), s') ∧
      s'.database.table note = .ok ⟨note, []⟩ :=
  ⟨_, _, runFrom_eq (by cbv), by cbv, by decide, runFrom_eq (by cbv), by cbv⟩

end Primary

end TwinStore
