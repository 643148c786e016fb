import Mathlib
import TwinStore.Proofs.DateSums
import TwinStore.Proofs.DestroyedRows
import TwinStore.Proofs.SimultaneousUpdates
import TwinStore.Proofs.StoredChanges

/-!
# Sums of dates in both stores

A `$sumDate` directive is computed twice: the cache adds to the dates of a record, the database adds to
the texts in a row.  What the database writes is read as the date that the cache has, nulls included,
as long as the sum is in the calendar, falls on a day that its month has, and can be written without a
fraction of a second.  A filter for the new value then finds a record; it finds the row of a day, but
not the row of a point of time, whose text lacks the fraction that the text of an operand has.

Main definitions:

- `Cell.IsSum`, `Cell.IsReadAs`: the cells that stand for dates.
- `FindsDate`, `FindsNumber`: what the parts of a directive stand for in a row.
- `CanAdd`: the sums on which the stores agree.

Main results:

- Theorem `exists_sum`: the sum in a cell is the value that is assigned to a record.
- Theorem `alters_assigned`: an update sets columns by its assignments.
- Theorem `sums_of_dates_agree`: the same for an update, and for filters for the new value.
-/

namespace TwinStore

open Calendar

namespace Primary

/-! ## Cells of dates -/

/-- Whether a cell is what the database writes for a sum: null, a day, or a point of time in whole
seconds. -/
inductive Cell.IsSum : AttributeType → Cell → Value → Prop
  | null (type : AttributeType) : IsSum type .null .null
  | date {d : Date} (valid : d.isValid = true) : IsSum .date (.text d.text) (.date d)
  | datetime {t : DateTime} (valid : t.isValid = true) (naive : t.offset = none)
    (whole : t.micro = 0) : IsSum .datetime (.text (secondText t)) (.instant t)

/-- Whether a cell stands for a value of the type of its column: it is the cell of the value, or that of
a sum. -/
def Cell.IsReadAs (type : AttributeType) (cell : Cell) (v : Value) : Prop :=
  type.Admits v ∧ cell = storedCell v ∨ cell.IsSum type v

namespace Cell

variable {type : AttributeType} {cell : Cell} {v : Value}

/-- A sum is null or a value of the type. -/
theorem IsSum.admits (h : cell.IsSum type v) : type.Admits v := by
  cases h with
  | null => exact .inl rfl
  | date hvalid => exact .inr (.date hvalid)
  | datetime hvalid hnaive => exact .inr (.datetime hvalid hnaive)

/-- A cell is read as the value that it stands for. -/
theorem IsReadAs.valueOf_eq (h : cell.IsReadAs type v) : valueOf type cell = .ok v := by
  rcases h with ⟨hadmits, rfl⟩ | h
  · exact valueOf_storedCell hadmits
  · cases h with
    | null => rfl
    | date hvalid => simp only [valueOf, Primary.readText, StoredReader.date?_text hvalid]
    | datetime hvalid hnaive hwhole =>
      simp only [valueOf, Primary.readText, dateTime?_secondText hvalid hnaive hwhole]

/-- The cell of a sum agrees with the cell of its value, unless it is a point of time: the one ends with
the seconds, the other with the microseconds. -/
theorem IsSum.agrees_iff (h : cell.IsSum type v) (htemporal : type.isTemporal = true) :
    cell.agrees (storedCell v) = true ↔ type = .date ∨ v = .null := by
  cases h with
  | null => exact iff_of_true rfl (.inr rfl)
  | date => exact iff_of_true (agrees_self _) (.inl rfl)
  | @datetime t hvalid =>
    have hlength : (secondText t).toList ≠ (instantText t).toList := by
      intro heq
      have := congrArg List.length heq
      rw [secondText_toList hvalid, instantText_toList hvalid] at this
      simp at this
    have hdiffers : (compare (secondText t) (instantText t) == .eq) = false := by
      rw [← compare_text_eq, beq_eq_false_iff_ne]
      exact fun heq => hlength (congrArg String.toList heq)
    refine iff_of_false (fun h => ?_) (by simp)
    simp only [agrees, isNull, storedCell, sameKey, compare?, order, number?, Bool.or_self,
      Bool.and_self, Bool.false_or, Bool.false_eq_true, if_false, Option.some_beq_some] at h
    cases hdiffers.symm.trans h

end Cell

/-! ## Parts of a directive -/

/-- Whether the date of a directive stands for a value in a row: it refers to a date in the row, or is a
literal. -/
inductive FindsDate (m : Model) (row : Row) : Value → Value → Prop
  | column {a : Attribute} {date : Value} (mem : a ∈ m.attributes) (temporal : a.type.isTemporal = true)
    (reads : (row.cell a.name).IsReadAs a.type date) : FindsDate m row (.text a.name) date
  | literal {date : Value} (noReference : ∀ name, date ≠ .text name) (calendar : date.IsOfCalendar) :
    FindsDate m row date date

/-- Whether the number of a directive stands for a value in a row: it refers to an integer in the row,
or is an integer or null. -/
inductive FindsNumber (m : Model) (row : Row) : Value → Value → Prop
  | column {a : Attribute} {number : Value} (mem : a ∈ m.attributes) (int : a.type = .int)
    (reads : (row.cell a.name).IsReadAs .int number) : FindsNumber m row (.text a.name) number
  | literal (n : ℤ) : FindsNumber m row (.int n) (.int n)
  | null : FindsNumber m row .null .null

/-- Whether both stores can add a number of units to a date for a column of a type: the sum is a point
of time of the calendar, of whole seconds in a column of points of time; in a column of days it is not
in the last half of the last millisecond of a day, which the database counts to the next day. -/
def CanAdd (type : AttributeType) (unit : DateUnit) (date number : Value) : Prop :=
  ∀ t n, coerce (some .datetime) date = .ok (.instant t) → number = .int n →
    ∃ u : DateTime, u.isValid = true ∧ u.offset = none ∧ IsLater unit n t u ∧
      if type = .date then u.secondOfDay * 1000000 + u.micro < 86399999500 else u.micro = 0

/-- Whether a cell stands for the date of a sum: both are null, or the same point of time. -/
def Starts (cell : Cell) (date : Value) : Prop :=
  date = .null ∧ cell = .null ∨ ∃ t, t.isValid = true ∧ t.offset = none ∧
    coerce (some .datetime) date = .ok (.instant t) ∧ Moment.ofCell? cell = some (momentOf t)

section

variable {type : AttributeType} {cell : Cell} {date : Value}

/-- The cell of a date stands for it. -/
theorem starts_of_isReadAs (htemporal : type.isTemporal = true) (h : cell.IsReadAs type date) :
    Starts cell date := by
  have hday {d : Date} (hd : d.isValid = true) : Starts (.text d.text) (.date d) := by
    refine .inr ⟨DateTime.ofDate d, DateTime.isValid_ofDate hd, rfl, rfl, ?_⟩
    rw [Moment.ofCell?, Moment.ofText?_dateText hd]
  have hcoerce {t : DateTime} (hnaive : t.offset = none) :
      coerce (some .datetime) (.instant t) = .ok (.instant t) := by
    rw [coerce, coerceInstant, universal_of_naive hnaive]
    rfl
  rcases h with ⟨rfl | hholds, rfl⟩ | h
  · exact .inl ⟨rfl, rfl⟩
  · cases hholds with
    | date hd => exact hday hd
    | datetime ht hnaive =>
      refine .inr ⟨_, ht, hnaive, hcoerce hnaive, ?_⟩
      rw [storedCell, Moment.ofCell?, Moment.ofText?_instantText ht]
    | _ => cases htemporal
  · cases h with
    | null => exact .inl ⟨rfl, rfl⟩
    | date hd => exact hday hd
    | datetime ht hnaive hwhole =>
      refine .inr ⟨_, ht, hnaive, hcoerce hnaive, ?_⟩
      rw [Moment.ofCell?, Moment.ofText?_secondText ht hwhole]

/-- The cell that a literal date becomes in a statement stands for it. -/
theorem starts_of_literal {v b : Value} (hcalendar : date.IsOfCalendar)
    (hcoerce : coerce (some .datetime) date = .ok v) (hbound : Binding.instant.prepare v = .ok b)
    (hcell : cellOf b = .ok cell) : Starts cell date := by
  rcases admits_of_coerceInstant hcalendar hcoerce hbound with rfl | hholds
  · cases hbound
    cases hcell
    rcases coerceInstant_cases hcoerce with rfl | ⟨⟨t, heq⟩, -⟩
    · exact .inl ⟨rfl, rfl⟩
    · cases heq
  · cases hholds with
    | datetime ht hnaive =>
      cases hbound
      cases hcell
      refine .inr ⟨_, ht, hnaive, hcoerce, ?_⟩
      rw [Moment.ofCell?, Moment.ofText?_instantText ht]

end

/-! ## One sum -/

/-- The sum with a missing number is null. -/
theorem sumCell_null (unit : DateUnit) (asDate : Bool) (date : Cell) :
    sumCell unit asDate date .null = .null := by
  have hamount : amount? unit .null = none := by
    rw [amount?]
    split_ifs <;> rfl
  simp only [sumCell, hamount]
  cases Moment.ofCell? date <;> rfl

section

variable {types : Entries AttributeType} {record : Record} {field : String} {type : AttributeType}
  {v body date number : Value} {d : Directive} {dateCell : Cell}

/-- The sum that the database puts into a column stands for what the directive assigns to the field of a
record. -/
theorem exists_sum (htype : Entries.get? types field = some type) (htemporal : type.isTemporal = true)
    (hbody : directive? v = some body) (hd : Directive.read field body = .ok d)
    (hdate : resolveReference record field d.date = .ok date)
    (hnumber : resolveReference record field d.number = .ok number)
    (hstarts : Starts dateCell date) (hint : number = .null ∨ ∃ n, number = .int n)
    (hcan : CanAdd type d.unit date number) :
    ∃ w, Assigns types record field v w ∧ (w = .null ↔ date = .null ∨ number = .null) ∧
      ((Affinity.ofType type).store
        (sumCell d.unit (type = .date) dateCell (storedCell number))).IsSum type w := by
  have hkeeps {s : String} (hs : numberOfText? s = none) :
      (Affinity.ofType type).store (.text s) = .text s := by
    cases type <;> first | (cases htemporal; done) | simp only [Affinity.ofType, Affinity.store, hs]
  have hnone : ((Affinity.ofType type).store .null).IsSum type .null := by
    cases type <;> first | (cases htemporal; done) | exact .null _
  rcases hstarts with ⟨rfl, rfl⟩ | ⟨t, ht, hnaive, hcoerce, hcell⟩
  · exact ⟨.null, .null hbody hd hdate hnumber rfl, by simp, hnone⟩
  have hthere : date.isNull = false := by
    cases date with
    | null => cases hcoerce
    | _ => rfl
  have hdate' : date ≠ .null := by
    rintro rfl
    cases hthere
  rcases hint with rfl | ⟨n, rfl⟩
  · refine ⟨.null, .null hbody hd hdate hnumber (Bool.or_true _), by simp, ?_⟩
    rw [show storedCell .null = .null from rfl, sumCell_null]
    exact hnone
  obtain ⟨u, hu, hunaive, hlater, hkept⟩ := hcan t n hcoerce rfl
  have hadds := addUnits_whole ht hu (hunaive.trans hnaive.symm) hlater
  have hassigns {w : Value} (htakes : coerce (some type) (.instant u) = .ok w) :
      Assigns types record field v w :=
    .sum hbody hd hdate hnumber (by rw [hthere]; rfl) hcoerce hadds (by rw [htype]; exact htakes)
  have huniversal : coerceInstant (.instant u) = .ok (.instant u) := by
    rw [coerceInstant, universal_of_naive hunaive]
    rfl
  obtain ⟨hday, hh, hm, hs, hn⟩ := DateTime.isValid_iff.mp hu
  have hclock : (momentOf u).clock < millisPerDay := by
    rw [show millisPerDay = 86400000 from rfl]
    simp only [momentOf]
    split_ifs at hkept
    · omega
    · simp only [DateTime.secondOfDay]
      omega
  rw [show storedCell (.int n) = .int n from rfl, sumCell_eq _ ht hu hlater hcell hclock]
  cases type with
  | date =>
    have htext : (momentOf u).text (decide (AttributeType.date = .date)) = u.date.text :=
      Moment.dateText_eq u.date _
    refine ⟨.date u.date, hassigns ?_, by simp [hdate'], ?_⟩
    · rw [coerce, coerceDate, huniversal]
      rfl
    · rw [htext, hkeeps (numberOfText?_times hu).1]
      exact .date hday
  | datetime =>
    rw [if_neg (by decide)] at hkept
    have htext : (momentOf u).text (decide (AttributeType.datetime = .date)) = secondText u :=
      Moment.text_momentOf hu (by omega)
    refine ⟨.instant u, hassigns huniversal, by simp [hdate'], ?_⟩
    rw [htext, hkeeps (numberOfText?_secondText hu)]
    exact .datetime hu hunaive hkept
  | _ => cases htemporal

end

/-! ## Statements -/

/-- Whether a cell is what an update sets in a column of a row for a new value or a directive. -/
def Sets (m : Model) (a : Attribute) (v : Value) (row : Row) (cell : Cell) : Prop :=
  ∃ assigned setter prepared, assignment m a.name a.type v = .ok assigned ∧
    Database.Setter.ofAssignment m a.name assigned = .ok setter ∧ setter.ready = .ok prepared ∧
    cell = (Affinity.ofType a.type).store (prepared.cell row)

/-- A change by fields sets their columns. -/
theorem Changes.sets {m : Model} {fields : Entries Value} {change : Row → Row} (hm : m.IsProper)
    (h : Changes m fields change) (row : Row) {a : Attribute} (ha : a ∈ m.attributes) {v : Value}
    (hv : Entries.get? fields a.name = some v) : Sets m a v row ((change row).cell a.name) := by
  obtain ⟨values, hvalues, hcells⟩ := h.cell_eq hm
  have hcell := hcells a ha row
  rw [assignments_eq] at hvalues
  rcases get?_of_mapM hvalues a.name with ⟨hmissing, -⟩ | ⟨v', assigned, hv', hassigned, hassign⟩
  · cases hv.symm.trans hmissing
  · obtain rfl := Option.some.inj (hv.symm.trans hv')
    simp only [assignmentOf, hm.get?_attributeTypes ha] at hassign
    rw [hassigned] at hcell
    obtain ⟨setter, ready, hof, hready, hcell⟩ := hcell
    exact ⟨assigned, setter, ready, hassign, hof, hready, hcell⟩

/-- An update sets the columns of its fields in the selected rows. -/
theorem alters_assigned {m : Model} {db db' : Database} {fields : Entries Value} {where_ : Value}
    {counts : ChangeCounts} (hm : m.IsProper) (hdb : db.Has m)
    (h : changing m (.map fields) where_ db = .ok (db', counts)) :
    ∃ test change, Tests m where_ test ∧ db.Alters m test.selects change db' ∧
      ∀ t, db.table m = .ok t → ∀ row ∈ t.rows, test.selects row = true → ∀ a ∈ m.attributes, ∀ v,
        Entries.get? fields a.name = some v → Sets m a v row ((change row).cell a.name) := by
  obtain ⟨test, change, htest, halters, hchanges⟩ := exists_changes hdb rfl h
  exact ⟨test, change, htest, halters, fun t ht row hrow hselects a ha v hv =>
    (hchanges t ht row hrow hselects).sets hm row ha hv⟩

/-- The assignment of a directive has the date as it stands in a statement: a column, or a literal in the
form of a point of time. -/
theorem assignment_eq_ok {m : Model} {field : String} {type : AttributeType} {v body : Value}
    {d : Directive} {assigned : Assignment} (hbody : directive? v = some body)
    (hd : Directive.read field body = .ok d) (h : assignment m field type v = .ok assigned) :
    ∃ literal date number, ((∃ name, d.date = .text name ∧ literal = .text name) ∨
        (∀ name, d.date ≠ .text name) ∧ coerce (some .datetime) d.date = .ok literal) ∧
      termOf m field literal = .ok date ∧ termOf m field d.number = .ok number ∧
      assigned = .sum date number d.unit (type = .date) := by
  simp only [assignment, hbody, hd, ofUpdate, Outcome.ok_bind] at h
  have hterms {literal : Value} (h : (do
        let date ← termOf m field literal
        let number ← termOf m field d.number
        pure (Assignment.sum date number d.unit (type = .date)) : Outcome _) = .ok assigned) :
      ∃ date number, termOf m field literal = .ok date ∧ termOf m field d.number = .ok number ∧
        assigned = .sum date number d.unit (type = .date) := by
    obtain ⟨date, hdate, h⟩ := Outcome.bind_eq_ok.mp h
    obtain ⟨number, hnumber, h⟩ := Outcome.bind_eq_ok.mp h
    exact ⟨date, number, hdate, hnumber, (Except.ok.inj h).symm⟩
  split at h
  · next name hname =>
    obtain ⟨date, number, hparts⟩ := hterms h
    exact ⟨.text name, date, number, .inl ⟨name, hname, rfl⟩, hparts⟩
  · next hnoreference =>
    obtain ⟨literal, hliteral, h⟩ := Outcome.bind_eq_ok.mp h
    obtain ⟨date, number, hparts⟩ := hterms h
    exact ⟨literal, date, number, .inr ⟨hnoreference, coerceFor_eq_ok.mp hliteral⟩, hparts⟩

section

variable {m : Model} {row : Row} {record : Record} {a : Attribute}

/-- A reference of a directive finds the value that a cell stands for. -/
theorem resolveReference_eq (hm : m.IsProper) (hrecord : Database.recordOf m row = .ok record)
    (ha : a ∈ m.attributes) {v : Value} (hreads : (row.cell a.name).IsReadAs a.type v) (field : String) :
    resolveReference record field (.text a.name) = .ok v := by
  have hmem : a.name ∈ Entries.keys record := by
    rw [Registry.keys_of_recordOf hrecord]
    exact List.mem_map_of_mem ha
  obtain ⟨w, hw⟩ := Entries.exists_get? hmem
  have hfield := (field_of_recordOf hm hrecord ha).symm.trans hreads.valueOf_eq
  rw [Record.field, hw] at hfield
  obtain rfl := Except.ok.inj hfield
  simp only [resolveReference, hw, Option.getD_some]

/-- A reference of a directive to an attribute is one to its column. -/
theorem termOf_eq (ha : a ∈ m.attributes) (field : String) :
    termOf m field (.text a.name) = .ok (.column a.name) := by
  have hattribute : m.hasAttribute a.name = true :=
    List.any_eq_true.mpr ⟨a, ha, beq_self_eq_true a.name⟩
  simp only [termOf, hattribute, if_true]

/-- A literal of a directive stays itself. -/
theorem termOf_of_ne {v : Value} (h : ∀ name, v ≠ .text name) (m : Model) (field : String) :
    termOf m field v = .ok (.value v) := by
  cases v with
  | text name => exact absurd rfl (h name)
  | _ => rfl

/-- An integer in a row, or null, is in its cell. -/
theorem Cell.IsReadAs.eq_storedCell {cell : Cell} {v : Value} (h : cell.IsReadAs .int v) :
    (v = .null ∨ ∃ n, v = .int n) ∧ cell = storedCell v := by
  rcases h with ⟨rfl | hholds, hcell⟩ | h
  · exact ⟨.inl rfl, hcell⟩
  · cases hholds with
    | @int n => exact ⟨.inr ⟨n, rfl⟩, hcell⟩
  · cases h
    exact ⟨.inl rfl, rfl⟩

/-- The date of a directive as the database gets it: the directive finds it, and a sum starts with it. -/
theorem starts_of_findsDate (hm : m.IsProper) (hrecord : Database.recordOf m row = .ok record)
    {field : String} {part date literal : Value} {term : Term} {ready : Database.Part Cell}
    {bound : Database.Part Value} (hdate : FindsDate m row part date)
    (hliteral : (∃ name, part = .text name ∧ literal = .text name) ∨
      (∀ name, part ≠ .text name) ∧ coerce (some .datetime) part = .ok literal)
    (hterm : termOf m field literal = .ok term)
    (hbound : Database.Part.ofTerm .instant term = .ok bound) (hready : bound.ready = .ok ready) :
    resolveReference record field part = .ok date ∧ Starts (ready.cell row) date := by
  cases hdate with
  | @column b _ hb hbtemporal hreads =>
    obtain ⟨name, hname, rfl⟩ | ⟨hnoreference, -⟩ := hliteral
    · cases hname
      rw [termOf_eq hb] at hterm
      cases hterm
      cases hbound
      cases hready
      exact ⟨resolveReference_eq hm hrecord hb hreads _, starts_of_isReadAs hbtemporal hreads⟩
    · exact absurd rfl (hnoreference b.name)
  | literal hnoreference hcalendar =>
    obtain ⟨name, hname, -⟩ | ⟨-, hcoerce⟩ := hliteral
    · exact absurd hname (hnoreference name)
    refine ⟨?_, ?_⟩
    · cases part with
      | text name => exact absurd rfl (hnoreference name)
      | _ => rfl
    · have hvalue : ∀ name, literal ≠ .text name := by
        rintro name rfl
        rcases coerceInstant_cases hcoerce with heq | ⟨⟨t, heq⟩, -⟩
        · exact hnoreference name heq.symm
        · cases heq
      rw [termOf_of_ne hvalue] at hterm
      cases hterm
      obtain ⟨b, hprepared, hbound⟩ := Outcome.bind_eq_ok.mp hbound
      cases hbound
      obtain ⟨cell, hcell, rfl⟩ := Outcome.map_eq_ok.mp hready
      exact starts_of_literal hcalendar hcoerce hprepared hcell

/-- The number of a directive as the database gets it: the directive finds it, and it is its cell. -/
theorem cell_of_findsNumber (hm : m.IsProper) (hrecord : Database.recordOf m row = .ok record)
    {field : String} {part number : Value} {term : Term} {ready : Database.Part Cell}
    {bound : Database.Part Value} (hnumber : FindsNumber m row part number)
    (hbound : Database.Part.ofTerm (match term with
      | .value v => Binding.plain.ofOperand v
      | .column _ => .plain) term = .ok bound)
    (hterm : termOf m field part = .ok term) (hready : bound.ready = .ok ready) :
    resolveReference record field part = .ok number ∧
      (number = .null ∨ ∃ n, number = .int n) ∧ ready.cell row = storedCell number := by
  cases hnumber with
  | @column b _ hb hint hreads =>
    rw [termOf_eq hb] at hterm
    cases hterm
    cases hbound
    cases hready
    obtain ⟨hkind, hcell⟩ := hreads.eq_storedCell
    exact ⟨resolveReference_eq hm hrecord hb (hint ▸ hreads) _, hkind, hcell⟩
  | literal n =>
    cases hterm
    cases hbound
    obtain ⟨cell, hcell, rfl⟩ := Outcome.map_eq_ok.mp hready
    simp only [cellOf] at hcell
    split_ifs at hcell
    cases hcell
    exact ⟨rfl, .inr ⟨n, rfl⟩, rfl⟩
  | null =>
    cases hterm
    cases hbound
    cases hready
    exact ⟨rfl, .inl rfl, rfl⟩

end

/-- The cell that the database puts into a column for a directive stands for what the directive assigns
to the field of the record that was read from the row. -/
theorem exists_assigns_of_sets {m : Model} {row : Row} {record : Record} {a : Attribute} {cell : Cell}
    {v body date number : Value} {d : Directive} (hm : m.IsProper)
    (hrecord : Database.recordOf m row = .ok record) (ha : a ∈ m.attributes)
    (htemporal : a.type.isTemporal = true) (hbody : directive? v = some body)
    (hd : Directive.read a.name body = .ok d) (hdate : FindsDate m row d.date date)
    (hnumber : FindsNumber m row d.number number) (hcan : CanAdd a.type d.unit date number)
    (hsets : Sets m a v row cell) :
    ∃ w, Assigns m.attributeTypes record a.name v w ∧
      (w = .null ↔ date = .null ∨ number = .null) ∧ cell.IsSum a.type w := by
  obtain ⟨assigned, setter, prepared, hassign, hof, hready, rfl⟩ := hsets
  obtain ⟨literal, dateTerm, numberTerm, hliteral, hdateTerm, hnumberTerm, rfl⟩ :=
    assignment_eq_ok hbody hd hassign
  obtain ⟨datePart, hdatePart, hof⟩ := Outcome.bind_eq_ok.mp hof
  obtain ⟨numberPart, hnumberPart, hof⟩ := Outcome.bind_eq_ok.mp hof
  cases hof
  obtain ⟨dateReady, hdateReady, hready⟩ := Outcome.bind_eq_ok.mp hready
  obtain ⟨numberReady, hnumberReady, hready⟩ := Outcome.bind_eq_ok.mp hready
  cases hready
  obtain ⟨hresolved, hstarts⟩ := starts_of_findsDate hm hrecord hdate hliteral hdateTerm hdatePart
    hdateReady
  obtain ⟨hfound, hint, hcell⟩ := cell_of_findsNumber hm hrecord hnumber hnumberPart hnumberTerm
    hnumberReady
  have h := exists_sum (hm.get?_attributeTypes ha) htemporal hbody hd hresolved hfound hstarts hint hcan
  rwa [← hcell] at h

end Primary

/-! ## Filters for the new value -/

namespace Filter

open Primary

section

variable {m : Model} {a : Attribute} {operand w : Value}

/-- A filter for a value of a column of dates, in any form of the value, requires equality. -/
theorem requires_equality (hm : m.IsDeclared) (hproper : m.IsProper) (ha : a ∈ m.attributes)
    (htemporal : a.type.isTemporal = true) (hoperand : coerce (some a.type) operand = .ok w)
    (hw : a.type.Admits w) :
    Requires m (.map [(a.name, operand)]) (.conj [.leaf ⟨a.name, .eq, operand⟩]) := by
  have htype := hproper.get?_attributeTypes ha
  have hexact : a.type.isExact = true := by
    generalize a.type = type at htemporal
    cases type <;> first | rfl | cases htemporal
  have hplain : runFrom (conditionsOn a.name operand) [] = (.ok [(.eq, operand)], []) := by
    cases operand with
    | map entries =>
      exfalso
      generalize a.type = type at hoperand hw
      have hsame : coerce (some type) (.map entries) = .ok (.map entries) := by
        cases type <;> rfl
      obtain rfl := Except.ok.inj (hsame.symm.trans hoperand)
      rcases hw with hw | hw <;> cases hw
    | _ => rfl
  refine requires_map [a] (·.name) (fun _ => operand) (fun _ => [(.eq, operand)]) ?_ ?_ ?_
  · intro b hb
    obtain rfl := List.mem_singleton.mp hb
    exact ⟨hm.attributes b ha, b.type, htype⟩
  · intro b hb
    obtain rfl := List.mem_singleton.mp hb
    exact hplain
  · intro b hb c hc
    obtain rfl := List.mem_singleton.mp hb
    obtain rfl := List.mem_singleton.mp hc
    exact ⟨b.type, htype, hexact, w, hoperand, hw⟩

/-- Such a filter selects the rows whose cell agrees with that of the value. -/
theorem selects_equality (htype : Entries.get? m.attributeTypes a.name = some a.type)
    (hoperand : coerce (some a.type) operand = .ok w) (hw : a.type.Admits w) (row : Row) :
    (testOf m (.conj [.leaf ⟨a.name, .eq, operand⟩])).selects row =
      (row.cell a.name).agrees (storedCell w) := by
  have hleaf : (storeReading m).leafOf m ⟨a.name, .eq, operand⟩ = .ok ⟨a.name, a.type, .eq, w⟩ := by
    simp [Reading.leafOf, htype, storeReading, Operator.takesList, Operator.isOrdering, hoperand]
  have hasks : AsksFor a.type w (storedCell w) := by
    rcases hw with rfl | hw
    · exact asksFor_null a.type
    · exact asksFor_of_holds hw
  obtain ⟨comparison, hleaf', -, hselects⟩ := hasks.selects m a.name htype
  obtain rfl := Except.ok.inj (hleaf'.symm.trans (leafOf_eq htype (coerce_of_admits hw)))
  rw [selects_testOf, Formula.eval, Formula.evalAll, Formula.evalAll, Formula.eval, hleaf, Bool.and_true]
  exact hselects row

/-- Such a filter holds of the records that have the value. -/
theorem holdsFor_equality (htype : Entries.get? m.attributeTypes a.name = some a.type)
    (hoperand : coerce (some a.type) operand = .ok w) (hw : a.type.Admits w) {record : Record}
    (hfield : record.field a.name = w) :
    (checksOf m (.conj [.leaf ⟨a.name, .eq, operand⟩])).holdsFor record = .ok true := by
  have hleaf : (recordReading (some m.attributeTypes)).leafOf m ⟨a.name, .eq, operand⟩ =
      .ok ⟨a.name, some a.type, .eq, w.measure⟩ := by
    simp [Reading.leafOf, htype, recordReading, Operator.takesList, comparable_of_coerce hoperand hw]
  have hholds : (⟨a.name, some a.type, .eq, w.measure⟩ : Check).holdsFor record = .ok true := by
    rw [Check.holdsFor, hfield, comparable_of_coerce (coerce_of_admits hw) hw]
    rcases hw with rfl | hw
    · rfl
    · have hnull : (storedCell w).isNull = false :=
        (isNull_storedCell (.inr hw)).trans (AttributeType.isNull_of_holds hw)
      have hself := Cell.agrees_self (storedCell w)
      rw [Cell.agrees_of_isNull_eq_false hnull] at hself
      simp only [Operator.holds, Value.isNull_measure, AttributeType.isNull_of_holds hw,
        equal?_measure hw (Or.inr hw), hself]
      rfl
  rw [checksOf, Formula.map, Formula.mapAll, Formula.mapAll, Formula.map, hleaf, Formula.holdsFor,
    Formula.allHoldFor, Formula.holdsFor]
  simp only [Outcome.get, hholds]
  rfl

end

end Filter

/-! ## Updates -/

open Primary Filter

/-- An update that the primary store carries out leaves in every selected row, in a column of dates with
a directive, what the directive assigns to the record of the row; that is null exactly if the date or the
number is.  A filter for the new value holds of the updated record; it selects the row if the column is
one of days or the value is null, and otherwise it does not. -/
theorem sums_of_dates_agree {d : Deployment} (hr : d.registry.IsSound) {model : String} {m : Model}
    (hm : d.registry.table model = .ok m) {s s' : Stores} (hdb : s.database.Has m)
    (given : Option CorrelationRef) {spec : Entries Value} (hspec : (Entries.keys spec).Nodup)
    {where_ : Value} {counts : ChangeCounts}
    (hupdate : runFrom (Primary.update d given model (.map spec) where_) s = (.ok (some counts), s')) :
    ∃ test change, Tests m where_ test ∧ s.database.Alters m test.selects change s'.database ∧
      ∀ t, s.database.table m = .ok t → ∀ row ∈ t.rows, test.selects row = true →
      ∀ record, Database.recordOf m row = .ok record →
      ∀ a ∈ m.attributes, a.type.isTemporal = true →
      ∀ v body directive date number, Entries.get? spec a.name = some v → directive? v = some body →
        Directive.read a.name body = .ok directive → FindsDate m row directive.date date →
        FindsNumber m row directive.number number → CanAdd a.type directive.unit date number →
      ∃ w, Assigns m.attributeTypes record a.name v w ∧
        valueOf a.type ((change row).cell a.name) = .ok w ∧
        (w = .null ↔ date = .null ∨ number = .null) ∧
        (∀ updated, revise spec record m.attributeTypes = .ok updated →
          Entries.get? updated a.name = some w ∧
          ∀ operand, coerce (some a.type) operand = .ok w → ∃ predicate,
            (Predicate.ofFilter (.map [(a.name, operand)]) (some m.attributeTypes)).run.2 = .ok predicate ∧
              predicate updated = .ok true) ∧
        ∀ operand, coerce (some a.type) operand = .ok w →
          ∃ test', Tests m (.map [(a.name, operand)]) test' ∧
            (test'.selects (change row) = true ↔ a.type = .date ∨ w = .null) := by
  have hmodel := Registry.model?_of_table hm
  have hproper := hr.isProper hmodel
  obtain ⟨hanswer, hcontent⟩ := (update_gives hm given (.map spec) where_ s.content).outcome_eq rfl hupdate
  obtain ⟨⟨db', counts'⟩, hchanging, -⟩ := Outcome.map_eq_ok.mp (answered_eq_some hanswer.symm)
  rw [hchanging] at hcontent
  obtain rfl : s'.database = db' := congrArg Stores.database hcontent
  obtain ⟨test, change, htest, halters, hsets⟩ := alters_assigned hproper hdb hchanging
  refine ⟨test, change, htest, halters, ?_⟩
  intro t ht row hrow hselects record hrecord a ha htemporal v body directive date number hv hbody hd hdate
    hnumber hcan
  obtain ⟨w, hassigns, hnull, hsum⟩ := exists_assigns_of_sets hproper hrecord ha htemporal hbody hd hdate
    hnumber hcan (hsets t ht row hrow hselects a ha v hv)
  have htype := hproper.get?_attributeTypes ha
  have hrequires {operand : Value} (hoperand : coerce (some a.type) operand = .ok w) :=
    requires_equality (hr.isDeclared hmodel) hproper ha htemporal hoperand hsum.admits
  refine ⟨w, hassigns, Cell.IsReadAs.valueOf_eq (.inr hsum), hnull, fun updated hupdated => ?_,
    fun operand hoperand => ⟨_, .of_requires (hrequires hoperand), ?_⟩⟩
  · obtain ⟨w', hw', hassigns'⟩ := (get?_revise hspec hupdated).1 a.name v (Entries.mem_of_get? hv)
    obtain rfl := hassigns.unique hassigns'
    refine ⟨hw', fun operand hoperand => ?_⟩
    obtain ⟨lines, -, hpredicate⟩ := (hrequires hoperand).run_eq
    refine ⟨_, by rw [hpredicate], holdsFor_equality htype hoperand hsum.admits ?_⟩
    rw [Record.field, hw', Option.getD_some]
  · rw [selects_equality htype hoperand hsum.admits]
    exact hsum.agrees_iff htemporal

/-! ## An example -/

/-- A model with a point of time, a day and an integer. -/
def stay : Model :=
  { name := "stay"
    attributes := [⟨"id", .int, true, false, false⟩, { name := "arrives", type := .datetime },
      { name := "leaves", type := .date }, { name := "nights", type := .int }] }

/-- The registry of that model alone. -/
def stays : Deployment := ⟨(Registry.register {} [stay]).1, "", true, none⟩

/-- A stay of two nights from an evening on. -/
def stayFrom (evening : String) : Row :=
  [("id", .int 1), ("arrives", .text evening), ("leaves", .null), ("nights", .int 2)]

/-- The record of such a stay. -/
def stayRecord (evening : DateTime) : Record :=
  [("id", .int 1), ("arrives", .instant evening), ("leaves", .null), ("nights", .int 2)]

/-- The stores with such a stay. -/
def stayed (evening : String) : Stores := { database := ⟨[("stay", ⟨stay, [stayFrom evening]⟩)]⟩ }

/-- The directive by which a stay ends as many days after its begin as it has nights. -/
def nightsLater : Value :=
  .map [(sumDateKey, .map [("date", .text "arrives"), ("number", .text "nights"), ("unit", .text "days")])]

/-- The directive by which a stay begins a month later. -/
def monthLater : Value :=
  .map [(sumDateKey, .map [("date", .text "arrives"), ("number", .int 1), ("unit", .text "month")])]

/-- Both directives are read. -/
theorem read_stay (field : String) (number : Value) {name : String} {unit : DateUnit}
    (hunit : DateUnit.parse (.text name) = .ok unit) :
    Directive.read field (.map [("date", .text "arrives"), ("number", number), ("unit", .text name)]) =
      .ok ⟨.text "arrives", number, unit⟩ := by
  show (do return (⟨.text "arrives", number, ← DateUnit.parse (.text name)⟩ : Directive) :
    Except UpdateError Directive) = _
  rw [hunit]
  rfl

theorem isSound_stays : stays.registry.IsSound := by
  refine (@Registry.Built.register _ _ [stay] [] .empty (fun m hm => ?_) rfl).isSound
  rw [List.mem_singleton.mp hm]
  exact ⟨by decide, by decide⟩

/-- An update that counts what it has changed. -/
theorem exists_counts {run : Outcome (Option ChangeCounts) × Stores}
    (h : run.1.toOption.join.isSome = true) : ∃ counts s', run = (.ok (some counts), s') := by
  obtain ⟨counts, hcounts⟩ := Option.isSome_iff_exists.mp h
  exact ⟨counts, run.2, Prod.ext (Outcome.eq_ok_of_toOption (Option.join_eq_some_iff.mp hcounts)) rfl⟩

/-- The text in a cell. -/
def textOf? : Cell → Option String
  | .text s => some s
  | _ => none

/-- Two days after 28 February 2024 is 1 March in both stores, and both find the stay by that day. -/
theorem stay_ends_on_the_same_day :
    ∃ counts s' change,
      runFrom (Primary.update stays none "stay" (.map [("leaves", nightsLater)]) .null)
        (stayed "2024-02-28 22:30:00.000000") = (.ok (some counts), s') ∧
      (stayed "2024-02-28 22:30:00.000000").database.Alters stay (fun _ => true) change s'.database ∧
      valueOf .date ((change (stayFrom "2024-02-28 22:30:00.000000")).cell "leaves") =
        .ok (.date ⟨2024, 3, 1⟩) ∧
      (∀ updated, revise [("leaves", nightsLater)] (stayRecord ⟨⟨2024, 2, 28⟩, 22, 30, 0, 0, none⟩)
        stay.attributeTypes = .ok updated → Entries.get? updated "leaves" = some (.date ⟨2024, 3, 1⟩)) ∧
      ∃ test, Tests stay (.map [("leaves", .date ⟨2024, 3, 1⟩)]) test ∧
        test.selects (change (stayFrom "2024-02-28 22:30:00.000000")) = true := by
  obtain ⟨counts, s', hupdate⟩ := exists_counts (show (runFrom (Primary.update stays none "stay"
      (.map [("leaves", nightsLater)]) .null) (stayed "2024-02-28 22:30:00.000000")).1.toOption.join.isSome =
        true by decide +kernel)
  have hbegin : (⟨⟨2024, 2, 28⟩, 22, 30, 0, 0, none⟩ : DateTime).isValid = true := by decide
  have hend : (⟨⟨2024, 3, 1⟩, 22, 30, 0, 0, none⟩ : DateTime).isValid = true := by decide
  have hcell : (stayFrom "2024-02-28 22:30:00.000000").cell "arrives" =
      storedCell (.instant ⟨⟨2024, 2, 28⟩, 22, 30, 0, 0, none⟩) := by cbv
  have hlater : IsLater .day 2 ⟨⟨2024, 2, 28⟩, 22, 30, 0, 0, none⟩ ⟨⟨2024, 3, 1⟩, 22, 30, 0, 0, none⟩ :=
    .time rfl (by decide)
  have hread := @read_stay "leaves" (.text "nights") "days" .day
    (Outcome.eq_ok_of_toOption (by decide +kernel))
  obtain ⟨test, change, ⟨clause, prepared, hclause, hprepare, hready⟩, halters, hsums⟩ :=
    sums_of_dates_agree isSound_stays (m := stay) rfl
      ⟨⟨stay, [stayFrom "2024-02-28 22:30:00.000000"]⟩, rfl, rfl⟩ none (by decide) hupdate
  have hall : test.selects = fun _ => true := by
    cases hclause
    cases hprepare
    cases hready
    rfl
  rw [hall] at hsums halters
  obtain ⟨w, hassigns, hvalue, -, hupdated, hselects⟩ := hsums _ rfl _ List.mem_cons_self rfl
    (stayRecord ⟨⟨2024, 2, 28⟩, 22, 30, 0, 0, none⟩) (by cbv) { name := "leaves", type := .date }
    (by decide) rfl nightsLater _ _ (.instant ⟨⟨2024, 2, 28⟩, 22, 30, 0, 0, none⟩) (.int 2) rfl rfl hread
    (.column (a := { name := "arrives", type := .datetime }) (by decide) rfl
      (.inl ⟨.inr (.datetime hbegin rfl), hcell⟩))
    (.column (a := { name := "nights", type := .int }) (by decide) rfl (.inl ⟨.inr (.int rfl), rfl⟩))
    (by
      rintro t n ht hn
      cases ht
      cases hn
      exact ⟨_, hend, rfl, hlater, by decide⟩)
  obtain rfl : w = .date ⟨2024, 3, 1⟩ := hassigns.unique (.sum rfl hread rfl rfl rfl rfl
    (addUnits_whole hbegin hend rfl hlater) rfl)
  obtain ⟨test', htest', hfound⟩ := hselects (.date ⟨2024, 3, 1⟩) rfl
  exact ⟨counts, s', change, hupdate, halters, hvalue, fun updated h => (hupdated updated h).1, test',
    htest', hfound.mpr (.inl rfl)⟩

/-- A month after 31 January 2024 is 2 March in the database, but 29 February in a record. -/
theorem month_after_long_month_differs :
    (∃ counts s' row,
      runFrom (Primary.update stays none "stay" (.map [("arrives", monthLater)]) .null)
        (stayed "2024-01-31 22:30:00.000000") = (.ok (some counts), s') ∧
      (s'.database.table stay).map (·.rows) = .ok [row] ∧
      valueOf .datetime (row.cell "arrives") = .ok (.instant ⟨⟨2024, 3, 2⟩, 22, 30, 0, 0, none⟩)) ∧
    Database.recordOf stay (stayFrom "2024-01-31 22:30:00.000000") =
      .ok (stayRecord ⟨⟨2024, 1, 31⟩, 22, 30, 0, 0, none⟩) ∧
    Assigns stay.attributeTypes (stayRecord ⟨⟨2024, 1, 31⟩, 22, 30, 0, 0, none⟩) "arrives" monthLater
      (.instant ⟨⟨2024, 2, 29⟩, 22, 30, 0, 0, none⟩) := by
  have hread := @read_stay "arrives" (.int 1) "month" .month
    (Outcome.eq_ok_of_toOption (by decide +kernel))
  have hmoved : ({ months := 1 } : Shift).apply ⟨⟨2024, 1, 31⟩, 22, 30, 0, 0, none⟩ =
      .ok ⟨⟨2024, 2, 29⟩, 22, 30, 0, 0, none⟩ := Outcome.eq_ok_of_toOption (by decide +kernel)
  have hadds : addUnits (.instant ⟨⟨2024, 1, 31⟩, 22, 30, 0, 0, none⟩) .month (.int 1) =
      .ok (.instant ⟨⟨2024, 2, 29⟩, 22, 30, 0, 0, none⟩) := addUnits_eq_ok.mpr ⟨_, _, rfl, hmoved, rfl⟩
  refine ⟨?_, by cbv, .sum rfl hread rfl rfl rfl rfl hadds rfl⟩
  obtain ⟨counts, s', hupdate⟩ := exists_counts (show (runFrom (Primary.update stays none "stay"
      (.map [("arrives", monthLater)]) .null) (stayed "2024-01-31 22:30:00.000000")).1.toOption.join.isSome =
        true by decide +kernel)
  have hcells : ((runFrom (Primary.update stays none "stay" (.map [("arrives", monthLater)]) .null)
      (stayed "2024-01-31 22:30:00.000000")).2.database.table stay).toOption.map (fun t =>
        t.rows.map fun row => textOf? (row.cell "arrives")) = some [some "2024-03-02 22:30:00"] := by
    decide +kernel
  rw [hupdate] at hcells
  obtain ⟨t, ht, hcells⟩ := Option.map_eq_some_iff.mp hcells
  obtain ⟨row, hrow⟩ := List.length_eq_one_iff.mp
    ((List.length_map _).symm.trans (congrArg List.length hcells))
  rw [hrow] at hcells
  have hcell : textOf? (row.cell "arrives") = some "2024-03-02 22:30:00" := (List.cons.inj hcells).1
  refine ⟨counts, s', row, hupdate, ?_, ?_⟩
  · rw [Outcome.eq_ok_of_toOption ht]
    exact congrArg Except.ok hrow
  · cases harrives : row.cell "arrives" with
    | text s =>
      rw [harrives] at hcell
      rw [Option.some.inj hcell]
      cbv
    | _ =>
      rw [harrives] at hcell
      cases hcell

end TwinStore
