import Mathlib.Data.List.Pairwise
import Mathlib.Order.Compare
import TwinStore.Primary.Change
import TwinStore.Primary.Table
import TwinStore.Proofs.FilterAgreement
import TwinStore.Proofs.Registrations

/-!
# Tables with keys and types

No two rows of a table have the same key, and every row fills the columns that must be filled: that
is checked for each row that is inserted or changed.  A table whose rows were inserted and changed with
values of the types of its columns holds such values only, and its rows can be read as the records that
they store.

Main definitions:

- `Table.AreKeyed`: rows that satisfy the constraints of a table.
- `Table.IsTyped`: a table whose rows hold values of the exact types in their columns.

Main results:

- Theorem `AreKeyed.of_insert`, `AreKeyed.of_update`, `AreKeyed.of_delete`: changes keep the
  constraints.
- Theorem `represents_of_recordOf`: a row of a typed table stores the record that is read from it.
- Theorem `IsTyped.insert`, `IsTyped.update`, `IsTyped.delete`: changes with values of the types
  keep such tables.
-/

namespace TwinStore

namespace Number.Decimal

/-- Magnitudes compare the other way round in the other order. -/
theorem swap_compareMagnitude (c₁ : Nat) (e₁ : Int) (c₂ : Nat) (e₂ : Int) :
    (compareMagnitude c₁ e₁ c₂ e₂).swap = compareMagnitude c₂ e₂ c₁ e₁ := by
  simp only [compareMagnitude]
  split_ifs with h₁ h₂ h₃ h₄ h₅ h₆ <;> first
    | rfl
    | omega
    | exact Nat.compare_swap _ _
    | skip
  obtain rfl : e₁ = e₂ := by omega
  simpa using Nat.compare_swap c₁ c₂

/-- Numbers compare the other way round in the other order. -/
theorem swap_compare? (x y : Decimal) : (x.compare? y).map Ordering.swap = y.compare? x := by
  cases x with
  | nan => cases y <;> rfl
  | infinity n =>
    cases y with
    | nan => rfl
    | infinity n' => cases n <;> cases n' <;> rfl
    | finite => cases n <;> rfl
  | finite n c e =>
    cases y with
    | nan => rfl
    | infinity n' => cases n' <;> rfl
    | finite n' c' e' =>
      simp only [compare?]
      by_cases hc : c = 0 <;> by_cases hc' : c' = 0 <;> cases n <;> cases n' <;>
        simp [hc, hc', swap_compareMagnitude]

end Number.Decimal

namespace Primary

/-! ## Cells of keys -/

/-- Lists that come before no other in either order are the same. -/
theorem compareOfLessAndEq_eq_comm (s t : List Nat) :
    compareOfLessAndEq s t = .eq ↔ compareOfLessAndEq t s = .eq := by
  have h (s t : List Nat) (hst : compareOfLessAndEq s t = .eq) : s = t := by
    unfold compareOfLessAndEq at hst
    split_ifs at hst with _ heq
    exact heq
  constructor
  · intro hst
    obtain rfl := h s t hst
    exact hst
  · intro hts
    obtain rfl := h t s hts
    exact hts

/-- Cells have one place in the order in either order. -/
theorem Cell.order_eq_comm (a b : Cell) : a.order b = .eq ↔ b.order a = .eq := by
  have hnumbers (x y : Number.Decimal) :
      (x.compare? y).getD .eq = .eq ↔ (y.compare? x).getD .eq = .eq := by
    rw [← Number.Decimal.swap_compare? x y]
    cases x.compare? y with
    | none => rfl
    | some o => cases o <;> decide
  cases a <;> cases b <;> first
    | exact hnumbers _ _
    | exact compareOfLessAndEq_eq_comm _ _
    | rfl
    | (constructor <;> intro h <;> cases h)
    | exact Std.compare_eq_iff_eq.trans (eq_comm.trans Std.compare_eq_iff_eq.symm)

/-- Cells are the same in either order. -/
theorem Cell.sameKey_comm (a b : Cell) : a.sameKey b = b.sameKey a := by
  rw [sameKey, sameKey, compare?, compare?, Bool.or_comm]
  split_ifs
  · rfl
  · rw [Bool.eq_iff_iff, beq_iff_eq, beq_iff_eq, Option.some_inj, Option.some_inj,
      Cell.order_eq_comm]

namespace Table

/-- Rows have the same key in either order. -/
theorem sameKey_comm (m : Model) (a b : Row) : sameKey m a b = sameKey m b a := by
  simp only [sameKey, Cell.sameKey_comm (a.cell _)]

/-- To have different keys is the same in either order. -/
instance (m : Model) : Std.Symm fun a b : Row => sameKey m a b = false where
  symm a b h := by rwa [sameKey_comm]

/-! ## Constraints -/

/-- Whether rows fill what must be filled and have different keys. -/
structure AreKeyed (m : Model) (rows : List Row) : Prop where
  filled : ∀ row ∈ rows, isFilled m row = true
  distinct : rows.Pairwise fun a b => sameKey m a b = false

variable {m : Model} {rows before after : List Row}

/-- An admitted row has another key than all others. -/
theorem sameKey_of_admits {row other : Row} (h : admits m rows row = true) (hother : other ∈ rows) :
    sameKey m row other = false := by
  rw [admits, Bool.and_eq_true, Bool.not_eq_true', List.any_eq_false] at h
  exact eq_false_of_ne_true (h.2 other hother)

/-- Rows with the same key are the same row. -/
theorem AreKeyed.eq_of_sameKey (h : AreKeyed m rows) {a b : Row} (ha : a ∈ rows) (hb : b ∈ rows)
    (hsame : sameKey m a b = true) : a = b := by
  by_contra hne
  have hdistinct := h.distinct.forall ha hb hne
  rw [hsame] at hdistinct
  cases hdistinct

/-- An admitted row may stand in the midst of the others. -/
theorem AreKeyed.insert (before after : List Row) {row : Row} (h : AreKeyed m (before ++ after))
    (hrow : admits m (before ++ after) row = true) : AreKeyed m (before ++ row :: after) := by
  have hperm : (before ++ row :: after).Perm (row :: (before ++ after)) := List.perm_middle
  refine ⟨fun r hr => ?_, ?_⟩
  · rcases List.mem_cons.mp (hperm.mem_iff.mp hr) with rfl | hr
    · rw [admits, Bool.and_eq_true] at hrow
      exact hrow.1
    · exact h.filled r hr
  · have hsymm {a b : Row} (hab : sameKey m a b = false) : sameKey m b a = false := by
      rwa [sameKey_comm]
    rw [hperm.pairwise_iff hsymm, List.pairwise_cons]
    exact ⟨fun r hr => sameKey_of_admits hrow hr, h.distinct⟩

/-- Some of the rows satisfy the constraints if all do. -/
theorem AreKeyed.sublist (h : AreKeyed m rows) {rows' : List Row} (hsub : rows'.Sublist rows) :
    AreKeyed m rows' :=
  ⟨fun row hrow => h.filled row (hsub.subset hrow), h.distinct.sublist hsub⟩

/-- Changing rows one after another keeps the constraints. -/
theorem AreKeyed.updateRows {test : Test} {change : Row → Row} (h : AreKeyed m (before ++ after))
    (hupdate : updateRows m test change before after = .ok rows) : AreKeyed m rows := by
  induction after generalizing before with
  | nil =>
    cases hupdate
    rwa [List.append_nil] at h
  | cons row after ih =>
    simp only [Table.updateRows] at hupdate
    split_ifs at hupdate with _ hadmits
    · refine ih ?_ hupdate
      have hrest : AreKeyed m (before ++ after) :=
        h.sublist (List.Sublist.append_left (List.sublist_cons_self row after) before)
      rw [List.append_assoc]
      exact AreKeyed.insert before after hrest hadmits
    · refine ih ?_ hupdate
      rwa [List.append_assoc]

/-! ## Changes -/

variable {t t' : Table}

/-- Inserting a row keeps the constraints. -/
theorem AreKeyed.of_insert (ht : AreKeyed t.model t.rows) {cells : Entries Cell} {row : Row}
    (h : t.insert cells = .ok (t', row)) : AreKeyed t'.model t'.rows := by
  simp only [Table.insert] at h
  split_ifs at h with hadmits
  cases h
  refine AreKeyed.insert t.rows [] ?_ ?_ <;> rwa [List.append_nil]

/-- Changing rows keeps the constraints. -/
theorem AreKeyed.of_update (ht : AreKeyed t.model t.rows) {test : Test}
    {values : Row → Entries Cell} (h : t.update test values = .ok t') :
    AreKeyed t'.model t'.rows := by
  simp only [Table.update] at h
  cases hupdate : Table.updateRows t.model test (changed t.model values) [] t.rows with
  | error e =>
    rw [hupdate] at h
    cases h
  | ok rows =>
    rw [hupdate] at h
    cases h
    exact @AreKeyed.updateRows t.model rows [] t.rows test _ ht hupdate

/-- Deleting rows keeps the constraints. -/
theorem AreKeyed.of_delete (ht : AreKeyed t.model t.rows) (test : Test) :
    AreKeyed t.model (t.delete test).1.rows :=
  ht.sublist List.filter_sublist

end Table

end Primary

open Primary

namespace Primary

/-! ## Rows -/

/-- Whether a cell holds a value of a type, or null. -/
def Cell.Fits (type : AttributeType) (cell : Cell) : Prop :=
  ∃ v, type.Admits v ∧ cell = storedCell v

/-- Whether a row holds values of the exact types in their columns. -/
def Row.IsTyped (m : Model) (row : Row) : Prop :=
  ∀ a ∈ m.attributes, a.type.isExact = true → (row.cell a.name).Fits a.type

/-- The empty cell fits every type. -/
theorem Cell.fits_null (type : AttributeType) : Cell.null.Fits type :=
  ⟨.null, type.admits_null, rfl⟩

/-- A row has a column for each attribute. -/
theorem cell_map {m : Model} (hm : m.IsProper) (f : Attribute → Cell) {a : Attribute}
    (ha : a ∈ m.attributes) : Row.cell (m.attributes.map fun a => (a.name, f a)) a.name = f a := by
  rw [Row.cell, Entries.get?_map_of_mem f hm ha]
  rfl

/-- A record that is read from a row has the value of each column. -/
theorem field_of_recordOf {m : Model} (hm : m.IsProper) {row : Row} {record : Record}
    (h : Database.recordOf m row = .ok record) {a : Attribute} (ha : a ∈ m.attributes) :
    valueOf a.type (row.cell a.name) = .ok (record.field a.name) := by
  obtain ⟨hrecord, hvalues⟩ := Outcome.eq_map_of_mapM h
  have hfield (b : Attribute) (hb : b ∈ m.attributes) :
      ∃ v, valueOf b.type (row.cell b.name) = .ok v ∧
        (do return (b.name, ← valueOf b.type (row.cell b.name)) : Outcome (String × Value)).get =
          (b.name, v) := by
    obtain ⟨v, hv, _⟩ := Outcome.bind_eq_ok.mp (hvalues b hb)
    refine ⟨v, hv, ?_⟩
    rw [hv]
    rfl
  have hlist : record = m.attributes.map fun a =>
      (a.name, (valueOf a.type (row.cell a.name)).get) := by
    rw [hrecord, List.map_inj_left]
    intro b hb
    obtain ⟨v, hv, hb⟩ := hfield b hb
    rw [hb, hv]
    rfl
  obtain ⟨v, hv, _⟩ := hfield a ha
  rw [hlist, Record.field, Entries.get?_map_of_mem _ hm ha, hv]
  rfl

/-- A typed row stores the record that is read from it. -/
theorem represents_of_recordOf {m : Model} (hm : m.IsProper) {row : Row} {record : Record}
    (hrow : Row.IsTyped m row) (h : Database.recordOf m row = .ok record) :
    Represents m row record := by
  intro field type hfield hexact
  obtain ⟨a, ha, rfl, rfl⟩ := hm.exists_attribute hfield
  obtain ⟨v, hv, hcell⟩ := hrow a ha hexact
  have hvalue := field_of_recordOf hm h ha
  rw [hcell, valueOf_storedCell hv] at hvalue
  rw [← Except.ok.inj hvalue]
  exact ⟨hv, hcell⟩

/-- A typed row of a model of exact types only can be read. -/
theorem exists_recordOf {m : Model} {row : Row} (hexact : ∀ a ∈ m.attributes, a.type.isExact = true)
    (hrow : Row.IsTyped m row) : ∃ record, Database.recordOf m row = .ok record := by
  refine ⟨_, Outcome.mapM_eq_ok (g := fun a => (a.name, (valueOf a.type (row.cell a.name)).get))
    fun a ha => ?_⟩
  obtain ⟨v, hv, hcell⟩ := hrow a ha (hexact a ha)
  rw [hcell, valueOf_storedCell hv]
  rfl

/-! ## Changes of tables -/

/-- Whether cells that are given for some columns hold values of the exact types. -/
def CellsFit (m : Model) (cells : Entries Cell) : Prop :=
  ∀ a ∈ m.attributes, a.type.isExact = true → ∀ cell,
    Entries.get? cells a.name = some cell → cell.Fits a.type

/-- A column keeps a cell that fits its type. -/
theorem Cell.Fits.store {type : AttributeType} {cell : Cell} (h : cell.Fits type) :
    (Affinity.ofType type).store cell = cell := by
  obtain ⟨v, hv, rfl⟩ := h
  exact store_storedCell hv

/-- A column of a row that is made from a fitting cell, or from none, has a fitting cell. -/
theorem fits_rowOf {m : Model} (hm : m.IsProper) {cells : Entries Cell} {a : Attribute}
    (ha : a ∈ m.attributes)
    (hcells : ∀ cell, Entries.get? cells a.name = some cell → cell.Fits a.type) :
    ((Table.rowOf m cells).cell a.name).Fits a.type := by
  rw [Table.rowOf, cell_map hm _ ha]
  cases hget : Entries.get? cells a.name with
  | none =>
    rw [Option.getD_none, (Cell.fits_null a.type).store]
    exact Cell.fits_null a.type
  | some cell =>
    have hfits := hcells cell hget
    rw [Option.getD_some, hfits.store]
    exact hfits

/-- A row made from fitting cells is typed. -/
theorem isTyped_rowOf {m : Model} (hm : m.IsProper) {cells : Entries Cell}
    (hcells : CellsFit m cells) : Row.IsTyped m (Table.rowOf m cells) :=
  fun a ha hexact => fits_rowOf hm ha (hcells a ha hexact)

/-- The cells of a changed row. -/
theorem cell_changed {m : Model} (hm : m.IsProper) (values : Row → Entries Cell) (row : Row) {a : Attribute}
    (ha : a ∈ m.attributes) : (Table.changed m values row).cell a.name =
      match Entries.get? (values row) a.name with
      | some cell => (Affinity.ofType a.type).store cell
      | none => row.cell a.name := by
  have hsame : Table.changed m values row = m.attributes.map fun a =>
      (a.name, match Entries.get? (values row) a.name with
        | some cell => (Affinity.ofType a.type).store cell
        | none => row.cell a.name) := by
    rw [Table.changed, List.map_inj_left]
    intro b _
    cases Entries.get? (values row) b.name <;> rfl
  rw [hsame, cell_map hm _ ha]

/-- A row in which fitting cells replace others is typed if it was. -/
theorem isTyped_changed {m : Model} (hm : m.IsProper) {values : Row → Entries Cell} {row : Row}
    (hvalues : CellsFit m (values row)) (hrow : Row.IsTyped m row) :
    Row.IsTyped m (Table.changed m values row) := by
  intro a ha hexact
  rw [cell_changed hm values row ha]
  cases hget : Entries.get? (values row) a.name with
  | none => exact hrow a ha hexact
  | some cell =>
    have hfits := hvalues a ha hexact cell hget
    simp only [hfits.store]
    exact hfits

/-- What is said of every cell in a row that stands in a table holds of an integer there: it has 64
bits. -/
theorem fitsWord_of_isFilled {m : Model} {row : Row} (h : Table.isFilled m row = true)
    {a : Attribute} (ha : a ∈ m.attributes) {n : Int} (hcell : row.cell a.name = .int n) :
    fitsWord n = true := by
  have hall := List.all_eq_true.mp h a ha
  rwa [hcell] at hall

/-- The generated column is an integer column of the model. -/
theorem exists_generated {m : Model} {column : String} (h : Table.generated? m = some column) :
    ∃ a ∈ m.attributes, a.name = column ∧ a.type = .int := by
  unfold Table.generated? at h
  split at h
  · next a heq =>
    split_ifs at h with htype
    have ha : a ∈ m.attributes.filter (·.primaryKey) := by rw [heq]; exact List.mem_singleton_self a
    exact ⟨a, (List.mem_filter.mp ha).1, Option.some.inj h, htype⟩
  · cases h

/-- A fitting cell of a row that is admitted with a generated key fits. -/
theorem fits_withKey {t : Table} (hm : t.model.IsProper) {row : Row} {a : Attribute}
    (ha : a ∈ t.model.attributes) (hrow : (row.cell a.name).Fits a.type)
    (hfilled : Table.isFilled t.model (t.withKey row) = true) :
    ((t.withKey row).cell a.name).Fits a.type := by
  cases hgenerated : Table.generated? t.model with
  | none =>
    rw [Table.withKey, hgenerated]
    exact hrow
  | some column =>
    rw [Table.withKey, hgenerated] at hfilled ⊢
    simp only at hfilled ⊢
    split_ifs at hfilled ⊢ with hnull
    · by_cases hname : a.name = column
      · obtain ⟨b, hb, hbname, hbtype⟩ := exists_generated hgenerated
        have hab : a = b := List.inj_on_of_nodup_map hm ha hb (hname.trans hbname.symm)
        have hcell : Row.cell (Entries.set row column (.int (Table.nextKey column t.rows))) a.name =
            .int (Table.nextKey column t.rows) := by
          rw [hname, Row.cell, Entries.get?_set_self]
          rfl
        refine ⟨.int (Table.nextKey column t.rows), Or.inr ?_, hcell⟩
        rw [hab, hbtype]
        exact .int (fitsWord_of_isFilled hfilled ha hcell)
      · rw [Row.cell, Entries.get?_set_of_ne _ _ hname]
        exact hrow
    · exact hrow

/-- A row that is admitted with a generated key is typed if it was before. -/
theorem isTyped_withKey {t : Table} (hm : t.model.IsProper) {row : Row}
    (hrow : Row.IsTyped t.model row) (hfilled : Table.isFilled t.model (t.withKey row) = true) :
    Row.IsTyped t.model (t.withKey row) :=
  fun a ha hexact => fits_withKey hm ha (hrow a ha hexact) hfilled

/-- A column of an inserted row has a fitting cell, if it was given a fitting one or none. -/
theorem fits_insert {t t' : Table} (hm : t.model.IsProper) {cells : Entries Cell} {row : Row}
    (h : t.insert cells = .ok (t', row)) {a : Attribute} (ha : a ∈ t.model.attributes)
    (hcells : ∀ cell, Entries.get? cells a.name = some cell → cell.Fits a.type) :
    (row.cell a.name).Fits a.type := by
  simp only [Table.insert] at h
  split_ifs at h with hadmits
  cases h
  rw [Table.admits, Bool.and_eq_true] at hadmits
  exact fits_withKey hm ha (fits_rowOf hm ha hcells) hadmits.1

namespace Table

/-- Whether a table belongs to a model, satisfies its constraints, and has rows that hold values of
the exact types. -/
structure IsTyped (m : Model) (t : Table) : Prop where
  model_eq : t.model = m
  keyed : AreKeyed m t.rows
  rows : ∀ row ∈ t.rows, Row.IsTyped m row

variable {m : Model} {t : Table}

/-- Inserting fitting cells keeps a table typed, and the inserted row is. -/
theorem IsTyped.insert (hm : m.IsProper) (ht : t.IsTyped m) {cells : Entries Cell}
    (hcells : CellsFit m cells) {t' : Table} {row : Row} (h : t.insert cells = .ok (t', row)) :
    t'.IsTyped m ∧ Row.IsTyped m row := by
  obtain ⟨rfl, hkeyed, hrows⟩ := ht
  have hkeyed' := hkeyed.of_insert h
  simp only [Table.insert] at h
  split_ifs at h with hadmits
  cases h
  rw [admits, Bool.and_eq_true] at hadmits
  have hrow := isTyped_withKey hm (isTyped_rowOf hm hcells) hadmits.1
  refine ⟨⟨rfl, hkeyed', fun r hr => ?_⟩, hrow⟩
  rcases List.mem_append.mp hr with hr | hr
  · exact hrows r hr
  · rw [List.mem_singleton.mp hr]
    exact hrow

/-- Inserting several rows of fitting cells keeps a table typed. -/
theorem IsTyped.insertAll (hm : m.IsProper) {inserted : List (Entries Cell)} (ht : t.IsTyped m)
    (hcells : ∀ cells ∈ inserted, CellsFit m cells) {t' : Table} {rows : List Row}
    (h : t.insertAll inserted = .ok (t', rows)) :
    t'.IsTyped m ∧ ∀ row ∈ rows, Row.IsTyped m row := by
  induction inserted generalizing t t' rows with
  | nil =>
    cases h
    exact ⟨ht, by simp⟩
  | cons cells inserted ih =>
    simp only [Table.insertAll] at h
    cases hfirst : t.insert cells with
    | error e =>
      rw [hfirst] at h
      cases h
    | ok first =>
      obtain ⟨t₁, row⟩ := first
      obtain ⟨ht₁, hrow⟩ := ht.insert hm (hcells cells List.mem_cons_self) hfirst
      rw [hfirst] at h
      cases hrest : t₁.insertAll inserted with
      | error e =>
        simp only [bind, Except.bind, hrest] at h
        cases h
      | ok rest =>
        obtain ⟨t₂, rest⟩ := rest
        simp only [bind, Except.bind, hrest] at h
        cases h
        obtain ⟨ht₂, hrest⟩ := ih ht₁ (fun c hc => hcells c (List.mem_cons_of_mem cells hc)) hrest
        refine ⟨ht₂, fun r hr => ?_⟩
        rcases List.mem_cons.mp hr with rfl | hr
        · exact hrow
        · exact hrest r hr

/-- Changing rows one after another keeps what holds of all rows and of all changed ones. -/
theorem forall_updateRows {P : Row → Prop} {test : Test} {change : Row → Row}
    (hchange : ∀ row, P row → P (change row)) {before after rows : List Row}
    (hbefore : ∀ row ∈ before, P row) (hafter : ∀ row ∈ after, P row)
    (h : updateRows m test change before after = .ok rows) : ∀ row ∈ rows, P row := by
  induction after generalizing before with
  | nil =>
    cases h
    exact hbefore
  | cons row after ih =>
    have hrow := hafter row List.mem_cons_self
    have hrest : ∀ r ∈ after, P r := fun r hr => hafter r (List.mem_cons_of_mem row hr)
    have hnext {r : Row} (hr : P r) : ∀ r' ∈ before ++ [r], P r' := by
      intro r' hr'
      rcases List.mem_append.mp hr' with hr' | hr'
      · exact hbefore r' hr'
      · rw [List.mem_singleton.mp hr']
        exact hr
    simp only [updateRows] at h
    split_ifs at h
    · exact ih (hnext (hchange row hrow)) hrest h
    · exact ih (hnext hrow) hrest h

/-- Changing rows with fitting cells keeps a table typed. -/
theorem IsTyped.update (hm : m.IsProper) (ht : t.IsTyped m) {test : Test}
    {values : Row → Entries Cell} (hvalues : ∀ row, CellsFit m (values row)) {t' : Table}
    (h : t.update test values = .ok t') : t'.IsTyped m := by
  obtain ⟨rfl, hkeyed, hrows⟩ := ht
  have hkeyed' := hkeyed.of_update h
  simp only [Table.update] at h
  cases hupdate : updateRows t.model test (Table.changed t.model values) [] t.rows with
  | error e =>
    rw [hupdate] at h
    cases h
  | ok rows =>
    rw [hupdate] at h
    cases h
    exact ⟨rfl, hkeyed', forall_updateRows (fun row hrow => isTyped_changed hm (hvalues row) hrow)
      (by simp) hrows hupdate⟩

/-- Deleting rows keeps a table typed. -/
theorem IsTyped.delete (ht : t.IsTyped m) (test : Test) : (t.delete test).1.IsTyped m :=
  ⟨ht.model_eq, by rw [← ht.model_eq]; exact AreKeyed.of_delete (ht.model_eq ▸ ht.keyed) test,
    fun row hrow => ht.rows row (List.mem_filter.mp hrow).1⟩

end Table

end Primary

end TwinStore
