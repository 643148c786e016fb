import TwinStore.Proofs.LegibleValues
import TwinStore.Proofs.OrderlyCaches

/-!
# Updates as simultaneous assignments

An update assigns to each of its fields what the field is to become by the record as it was before.  So
the assignments do not see each other: their order does not matter, an update fails exactly if one of
them fails by itself, and all other fields stay as they are.

Main definitions:

- `Assigns`: what a new value, or a directive, makes of a field of a record.
- `CannotAssign`: the ways in which it can make nothing.

Main results:

- Theorem `revised_eq_ok_iff`, `exists_assigns_or_cannotAssign`: the computation makes what is assigned,
  and fails in one of these ways.
- Theorem `revise_eq`: an update computes all assignments by the record as it was, and then sets them.
- Theorem `update_is_simultaneous`: what follows for updates of the same fields in any order.
-/

namespace TwinStore

open Calendar Cache

/-! ## Single assignments -/

/-- What an update makes of a field of a record: a literal in the form of the field, null where a
directive finds null, or the sum that a directive asks for, in the form of the field.  References of a
directive read the record. -/
inductive Assigns (types : Entries AttributeType) (record : Record) (field : String) (v : Value) :
    Value → Prop
  | literal {w : Value} (plain : directive? v = none)
    (takes : coerce (Entries.get? types field) v = .ok w) : Assigns types record field v w
  | null {body date number : Value} {d : Directive} (directive : directive? v = some body)
    (reads : Directive.read field body = .ok d)
    (reads_date : resolveReference record field d.date = .ok date)
    (reads_number : resolveReference record field d.number = .ok number)
    (isNull : (date.isNull || number.isNull) = true) : Assigns types record field v .null
  | sum {body date number start sum w : Value} {d : Directive} (directive : directive? v = some body)
    (reads : Directive.read field body = .ok d)
    (reads_date : resolveReference record field d.date = .ok date)
    (reads_number : resolveReference record field d.number = .ok number)
    (isThere : (date.isNull || number.isNull) = false)
    (starts : coerce (some .datetime) date = .ok start)
    (adds : addUnits start d.unit number = .ok sum)
    (takes : coerce (Entries.get? types field) sum = .ok w) : Assigns types record field v w

/-- Why an update makes nothing of a field of a record: the field does not take a literal, a directive
is malformed or names no unit, a reference finds nothing, what should be a date is none, or the number
of units cannot be added to it. -/
inductive CannotAssign (types : Entries AttributeType) (record : Record) (field : String) (v : Value) :
    Prop
  | literal (plain : directive? v = none)
    (refused : ¬ ∃ w, coerce (Entries.get? types field) v = .ok w)
  | notAnObject {body : Value} (directive : directive? v = some body) (refused : body.isMap = false)
  | missingPart {entries : Entries Value} {part : String} (directive : directive? v = some (.map entries))
    (isPart : part ∈ ["date", "number", "unit"]) (missing : part ∉ Entries.keys entries)
  | unit {entries : Entries Value} {name : Value} (directive : directive? v = some (.map entries))
    (names : Entries.get? entries "unit" = some name) (unknown : ¬ ∃ u, DateUnit.parse name = .ok u)
  | reference {body : Value} {d : Directive} {name : String} (directive : directive? v = some body)
    (reads : Directive.read field body = .ok d) (refers : d.date = .text name ∨ d.number = .text name)
    (missing : name ∉ Entries.keys record)
  | date {body date number : Value} {d : Directive} (directive : directive? v = some body)
    (reads : Directive.read field body = .ok d)
    (reads_date : resolveReference record field d.date = .ok date)
    (reads_number : resolveReference record field d.number = .ok number)
    (isThere : (date.isNull || number.isNull) = false)
    (refused : ¬ ∃ start, coerce (some .datetime) date = .ok start)
  | sum {body date number start : Value} {d : Directive} (directive : directive? v = some body)
    (reads : Directive.read field body = .ok d)
    (reads_date : resolveReference record field d.date = .ok date)
    (reads_number : resolveReference record field d.number = .ok number)
    (isThere : (date.isNull || number.isNull) = false)
    (starts : coerce (some .datetime) date = .ok start)
    (impossible : ¬ ∃ sum, addUnits start d.unit number = .ok sum)

section

variable {types : Entries AttributeType} {record : Record} {field : String} {v w : Value}

/-- A directive is read from an object that has all parts and names a unit. -/
theorem Directive.exists_read {entries : Entries Value} {u : DateUnit}
    (hparts : ∀ part ∈ ["date", "number", "unit"], part ∈ Entries.keys entries)
    (hunit : DateUnit.parse ((Entries.get? entries "unit").getD .null) = .ok u) :
    ∃ d, Directive.read field (.map entries) = .ok d := by
  have hmissing : ["date", "number", "unit"].filter (!Entries.has entries ·) = [] :=
    List.filter_eq_nil_iff.mpr fun part hpart => by simp [Entries.has_iff.mpr (hparts part hpart)]
  exact ⟨⟨_, _, u⟩, by simp only [Directive.read, hmissing, hunit]; rfl⟩

/-- A directive that is read stands in an object that has all parts and names a unit. -/
theorem Directive.of_read {body : Value} {d : Directive} (h : Directive.read field body = .ok d) :
    ∃ entries, body = .map entries ∧ (∀ part ∈ ["date", "number", "unit"], part ∈ Entries.keys entries) ∧
      DateUnit.parse ((Entries.get? entries "unit").getD .null) = .ok d.unit := by
  cases body with
  | map entries =>
    simp only [Directive.read] at h
    split at h
    · next hmissing =>
      refine ⟨entries, rfl, fun part hpart => ?_, ?_⟩
      · have hhas := List.filter_eq_nil_iff.mp hmissing part hpart
        exact Entries.has_iff.mp (by simpa using hhas)
      · cases hunit : DateUnit.parse ((Entries.get? entries "unit").getD .null) with
        | error e =>
          rw [hunit] at h
          cases h
        | ok u =>
          rw [hunit] at h
          rw [← Except.ok.inj h]
    · cases h
  | _ => cases h

/-- A part of a directive finds a value, unless it is a reference to a missing field. -/
theorem exists_resolveReference (hrefers : ∀ name, v = .text name → name ∈ Entries.keys record) :
    ∃ w, resolveReference record field v = .ok w := by
  cases v with
  | text name =>
    obtain ⟨w, hw⟩ := Entries.exists_get? (hrefers name rfl)
    exact ⟨w, by simp only [resolveReference, hw]⟩
  | _ => exact ⟨_, rfl⟩

/-- A reference that finds a value is one to a field of the record. -/
theorem mem_keys_of_resolveReference {name : String}
    (h : resolveReference record field (.text name) = .ok w) : name ∈ Entries.keys record := by
  simp only [resolveReference] at h
  split at h
  · next hvalue => exact Entries.mem_keys_of_mem (Entries.mem_of_get? hvalue)
  · cases h

/-- Every field takes a naive point of time. -/
theorem exists_coerce_of_naive (type : Option AttributeType) {t : DateTime} (h : t.offset = none) :
    ∃ w, coerce type (.instant t) = .ok w := by
  have hinstant : coerceInstant (.instant t) = .ok (.instant t) := by
    rw [coerceInstant, universal_of_naive h]
    rfl
  rcases type with _ | type
  · exact ⟨_, rfl⟩
  · cases type with
    | datetime => exact ⟨_, hinstant⟩
    | date =>
      refine ⟨.date t.date, ?_⟩
      rw [coerce, coerceDate, hinstant]
      rfl
    | _ => exact ⟨_, rfl⟩

/-- Every field takes the sum of a coerced date and a number of units. -/
theorem exists_coerce_of_addUnits (type : Option AttributeType) {date start number sum : Value}
    {unit : DateUnit} (hstart : coerce (some .datetime) date = .ok start)
    (hsum : addUnits start unit number = .ok sum) : ∃ w, coerce type sum = .ok w := by
  cases start with
  | instant t =>
    obtain ⟨u, rfl, -, hoffset⟩ := isValid_of_addUnits hsum
    exact exists_coerce_of_naive type (hoffset.trans (offset_of_coerceInstant hstart))
  | _ =>
    exfalso
    unfold addUnits at hsum
    cases hshift : Shift.ofUnits unit number <;> rw [hshift] at hsum <;> cases hsum

/-- A sum of dates that are there is a sum of units. -/
theorem sumDate_of_isThere {date number start sum : Value} {unit : DateUnit}
    (hthere : (date.isNull || number.isNull) = false) (hstart : coerce (some .datetime) date = .ok start)
    (hsum : addUnits start unit number = .ok sum) : sumDate field date number unit = .ok sum := by
  rw [sumDate, if_neg (Bool.eq_false_iff.mp hthere), coerceFor_eq_ok.mpr hstart, Outcome.ok_bind, hsum]
  rfl

/-- The computation makes what is assigned. -/
theorem revised_eq_ok_iff : revised types record field v = .ok w ↔ Assigns types record field v w := by
  constructor
  · intro h
    obtain ⟨value, hvalue, htakes⟩ := Outcome.bind_eq_ok.mp h
    rw [coerceFor_eq_ok] at htakes
    unfold newValue at hvalue
    cases hbody : directive? v with
    | none =>
      rw [hbody] at hvalue
      obtain rfl := Except.ok.inj hvalue
      exact .literal hbody htakes
    | some body =>
      rw [hbody] at hvalue
      obtain ⟨d, hd, hvalue⟩ := Outcome.bind_eq_ok.mp hvalue
      obtain ⟨date, hdate, hvalue⟩ := Outcome.bind_eq_ok.mp hvalue
      obtain ⟨number, hnumber, hvalue⟩ := Outcome.bind_eq_ok.mp hvalue
      unfold sumDate at hvalue
      split_ifs at hvalue with hnull
      · obtain rfl := Except.ok.inj hvalue
        rw [coerce_null] at htakes
        obtain rfl := Except.ok.inj htakes
        exact .null hbody (ofUpdate_eq_ok hd) hdate hnumber hnull
      · obtain ⟨start, hstart, hvalue⟩ := Outcome.bind_eq_ok.mp hvalue
        split at hvalue
        · next sum hsum =>
          obtain rfl := Except.ok.inj hvalue
          exact .sum hbody (ofUpdate_eq_ok hd) hdate hnumber (Bool.eq_false_iff.mpr hnull)
            (coerceFor_eq_ok.mp hstart) hsum htakes
        · cases hvalue
        · cases hvalue
  · intro h
    refine Outcome.bind_eq_ok.mpr ?_
    cases h with
    | literal hplain htakes =>
      exact ⟨v, by simp only [newValue, hplain], coerceFor_eq_ok.mpr htakes⟩
    | null hbody hd hdate hnumber hnull =>
      refine ⟨.null, ?_, coerceFor_eq_ok.mpr (coerce_null _)⟩
      rw [newValue_eq_sumDate hbody hd hdate hnumber, sumDate, if_pos hnull]
    | sum hbody hd hdate hnumber hthere hstart hsum htakes =>
      refine ⟨_, ?_, coerceFor_eq_ok.mpr htakes⟩
      rw [newValue_eq_sumDate hbody hd hdate hnumber, sumDate_of_isThere hthere hstart hsum]

/-- What is assigned is unique. -/
theorem Assigns.unique {w' : Value} (h : Assigns types record field v w)
    (h' : Assigns types record field v w') : w = w' :=
  Except.ok.inj ((revised_eq_ok_iff.mpr h).symm.trans (revised_eq_ok_iff.mpr h'))

/-- Nothing is assigned where that is impossible. -/
theorem CannotAssign.not_assigns (h : CannotAssign types record field v) :
    ¬ Assigns types record field v w := by
  intro hassigns
  -- The parts that a directive names, and what they find, are the same on both sides.
  have hsame {body body' : Value} (hbody : directive? v = some body) (hbody' : directive? v = some body') :
      body = body' := Option.some.inj (hbody.symm.trans hbody')
  have hagain {α : Type} {x : Outcome α} {a b : α} (ha : x = .ok a) (hb : x = .ok b) : a = b :=
    Except.ok.inj (ha.symm.trans hb)
  have hread : ∀ body, directive? v = some body → ∃ d date number,
      Directive.read field body = .ok d ∧ resolveReference record field d.date = .ok date ∧
      resolveReference record field d.number = .ok number ∧
      ((date.isNull || number.isNull) = false → ∃ start sum, coerce (some .datetime) date = .ok start ∧
        addUnits start d.unit number = .ok sum) := by
    intro body hbody
    cases hassigns with
    | literal hplain =>
      rw [hplain] at hbody
      cases hbody
    | null hbody' hd hdate hnumber hnull =>
      obtain rfl := hsame hbody hbody'
      exact ⟨_, _, _, hd, hdate, hnumber, fun hthere => absurd (hnull.symm.trans hthere) (by decide)⟩
    | sum hbody' hd hdate hnumber _ hstart hsum =>
      obtain rfl := hsame hbody hbody'
      exact ⟨_, _, _, hd, hdate, hnumber, fun _ => ⟨_, _, hstart, hsum⟩⟩
  cases h with
  | literal hplain hrefused =>
    cases hassigns with
    | literal _ htakes => exact hrefused ⟨w, htakes⟩
    | null hbody | sum hbody =>
      rw [hplain] at hbody
      cases hbody
  | notAnObject hbody hrefused =>
    obtain ⟨d, -, -, hd, -⟩ := hread _ hbody
    obtain ⟨entries, rfl, -⟩ := Directive.of_read hd
    cases hrefused
  | missingPart hbody hpart hmissing =>
    obtain ⟨d, -, -, hd, -⟩ := hread _ hbody
    obtain ⟨entries, heq, hparts, -⟩ := Directive.of_read hd
    cases heq
    exact hmissing (hparts _ hpart)
  | unit hbody hname hunknown =>
    obtain ⟨d, -, -, hd, -⟩ := hread _ hbody
    obtain ⟨entries, heq, -, hunit⟩ := Directive.of_read hd
    cases heq
    rw [hname] at hunit
    exact hunknown ⟨_, hunit⟩
  | reference hbody hd hrefers hmissing =>
    obtain ⟨d', date, number, hd', hdate, hnumber, -⟩ := hread _ hbody
    obtain rfl := Except.ok.inj (hd.symm.trans hd')
    rcases hrefers with hname | hname
    · rw [hname] at hdate
      exact hmissing (mem_keys_of_resolveReference hdate)
    · rw [hname] at hnumber
      exact hmissing (mem_keys_of_resolveReference hnumber)
  | date hbody hd hdate hnumber hthere hrefused =>
    obtain ⟨d', date', number', hd', hdate', hnumber', hsum⟩ := hread _ hbody
    obtain rfl := Except.ok.inj (hd.symm.trans hd')
    obtain rfl := hagain hdate hdate'
    obtain rfl := hagain hnumber hnumber'
    obtain ⟨start, _, hstart, -⟩ := hsum hthere
    exact hrefused ⟨start, hstart⟩
  | sum hbody hd hdate hnumber hthere hstart himpossible =>
    obtain ⟨d', date', number', hd', hdate', hnumber', hsum⟩ := hread _ hbody
    obtain rfl := Except.ok.inj (hd.symm.trans hd')
    obtain rfl := hagain hdate hdate'
    obtain rfl := hagain hnumber hnumber'
    obtain ⟨start', sum, hstart', hsum⟩ := hsum hthere
    obtain rfl := hagain hstart hstart'
    exact himpossible ⟨sum, hsum⟩

/-- Something is assigned, or that is impossible. -/
theorem exists_assigns_or_cannotAssign (types : Entries AttributeType) (record : Record) (field : String)
    (v : Value) : (∃ w, Assigns types record field v w) ∨ CannotAssign types record field v := by
  cases hbody : directive? v with
  | none =>
    by_cases htakes : ∃ w, coerce (Entries.get? types field) v = .ok w
    · exact .inl (htakes.imp fun _ => .literal hbody)
    · exact .inr (.literal hbody htakes)
  | some body =>
    by_cases hobject : body.isMap = false
    · exact .inr (.notAnObject hbody hobject)
    obtain ⟨entries, rfl⟩ : ∃ entries, body = .map entries := by
      cases body with
      | map entries => exact ⟨entries, rfl⟩
      | _ => exact absurd rfl hobject
    by_cases hparts : ∀ part ∈ ["date", "number", "unit"], part ∈ Entries.keys entries
    swap
    · push Not at hparts
      obtain ⟨part, hpart, hmissing⟩ := hparts
      exact .inr (.missingPart hbody hpart hmissing)
    obtain ⟨name, hname⟩ := Entries.exists_get? (hparts "unit" (by simp))
    by_cases hunit : ∃ u, DateUnit.parse name = .ok u
    swap
    · exact .inr (.unit hbody hname hunit)
    obtain ⟨u, hunit⟩ := hunit
    obtain ⟨d, hd⟩ : ∃ d, Directive.read field (.map entries) = .ok d :=
      Directive.exists_read hparts (by rw [hname]; exact hunit)
    by_cases hrefers : ∀ name, d.date = .text name ∨ d.number = .text name → name ∈ Entries.keys record
    swap
    · push Not at hrefers
      obtain ⟨name, hname, hmissing⟩ := hrefers
      exact .inr (.reference hbody hd hname hmissing)
    obtain ⟨date, hdate⟩ : ∃ date, resolveReference record field d.date = .ok date :=
      exists_resolveReference fun name hname => hrefers name (.inl hname)
    obtain ⟨number, hnumber⟩ : ∃ number, resolveReference record field d.number = .ok number :=
      exists_resolveReference fun name hname => hrefers name (.inr hname)
    cases hthere : date.isNull || number.isNull with
    | true => exact .inl ⟨.null, .null hbody hd hdate hnumber hthere⟩
    | false =>
      by_cases hstart : ∃ start, coerce (some .datetime) date = .ok start
      swap
      · exact .inr (.date hbody hd hdate hnumber hthere hstart)
      obtain ⟨start, hstart⟩ := hstart
      by_cases hsum : ∃ sum, addUnits start d.unit number = .ok sum
      swap
      · exact .inr (.sum hbody hd hdate hnumber hthere hstart hsum)
      obtain ⟨sum, hsum⟩ := hsum
      obtain ⟨w, hw⟩ := exists_coerce_of_addUnits (Entries.get? types field) hstart hsum
      exact .inl ⟨w, .sum hbody hd hdate hnumber hthere hstart hsum hw⟩

end

/-! ## Setting several fields -/

/-- What is set is found, and other entries are found as before. -/
theorem Entries.get?_merge {α : Type} {new : Entries α} (hnew : (keys new).Nodup) (es : Entries α)
    (key : String) : get? (merge es new) key = (get? new key).or (get? es key) := by
  induction new generalizing es with
  | nil => rfl
  | cons e new ih =>
    obtain ⟨k, a⟩ := e
    rw [keys_cons, List.nodup_cons] at hnew
    rw [merge, List.foldl_cons, ← merge, ih hnew.2, get?_cons]
    by_cases hk : k = key
    · subst hk
      rw [if_pos rfl, get?_eq_none_iff.mpr hnew.1, get?_set_self]
      rfl
    · rw [if_neg hk, get?_set_of_ne _ _ (Ne.symm hk)]

/-! ## Whole updates -/

section

variable {spec : Entries Value} {record updated : Record} {types : Entries AttributeType}

/-- An update computes all assignments by the record as it was, and then sets them. -/
theorem revise_eq (spec : Entries Value) (record : Record) (types : Entries AttributeType) :
    revise spec record types =
      (spec.mapM fun e => (revised types record e.1 e.2).map (Prod.mk e.1)).map
        (Entries.merge record) := by
  rw [revise_eq_foldlM]
  -- The record that is read stays the same while the fields of the other one are set.
  suffices hfold : ∀ before : Record, spec.foldlM (fun before e =>
      (revised types record e.1 e.2).map (Entries.set before e.1)) before =
      (spec.mapM fun e => (revised types record e.1 e.2).map (Prod.mk e.1)).map
        (Entries.merge before) from hfold record
  induction spec with
  | nil => exact fun _ => rfl
  | cons e spec ih =>
    intro before
    rw [List.foldlM_cons, Outcome.mapM_cons]
    cases revised types record e.1 e.2 with
    | error fault => rfl
    | ok w =>
      refine (ih _).trans ?_
      cases spec.mapM fun e => (revised types record e.1 e.2).map (Prod.mk e.1) <;> rfl

/-- An update succeeds if every field is assigned something. -/
theorem exists_revise_iff : (∃ updated, revise spec record types = .ok updated) ↔
    ¬ ∃ field v, (field, v) ∈ spec ∧ CannotAssign types record field v := by
  rw [revise_eq]
  constructor
  · rintro ⟨updated, h⟩ ⟨field, v, hmem, hcannot⟩
    obtain ⟨values, hvalues, -⟩ := Outcome.map_eq_ok.mp h
    obtain ⟨e, -, he⟩ := Outcome.exists_result_of_mem hvalues hmem
    obtain ⟨w, hw, -⟩ := Outcome.map_eq_ok.mp he
    exact hcannot.not_assigns (revised_eq_ok_iff.mp hw)
  · intro h
    obtain ⟨values, hvalues, -⟩ := Outcome.exists_mapM (R := fun _ _ => True)
      (f := fun e : String × Value => (revised types record e.1 e.2).map (Prod.mk e.1))
      fun e (he : e ∈ spec) => by
        obtain ⟨w, hw⟩ := (exists_assigns_or_cannotAssign types record e.1 e.2).resolve_right
          fun hcannot => h ⟨e.1, e.2, he, hcannot⟩
        exact ⟨(e.1, w), Outcome.map_eq_ok.mpr ⟨w, revised_eq_ok_iff.mpr hw, rfl⟩, trivial⟩
    exact ⟨_, Outcome.map_eq_ok.mpr ⟨values, hvalues, rfl⟩⟩

/-- After an update each of its fields holds what is assigned to it, and each other field what it
held. -/
theorem get?_revise (hspec : (Entries.keys spec).Nodup) (h : revise spec record types = .ok updated) :
    (∀ field v, (field, v) ∈ spec →
      ∃ w, Entries.get? updated field = some w ∧ Assigns types record field v w) ∧
    ∀ field, field ∉ Entries.keys spec → Entries.get? updated field = Entries.get? record field := by
  rw [revise_eq] at h
  obtain ⟨values, hvalues, rfl⟩ := Outcome.map_eq_ok.mp h
  have hkeys : Entries.keys values = Entries.keys spec :=
    Outcome.map_eq_of_mapM hvalues fun e f hf => by
      obtain ⟨w, -, rfl⟩ := Outcome.map_eq_ok.mp hf
      rfl
  have hnew : (Entries.keys values).Nodup := hkeys ▸ hspec
  refine ⟨fun field v hmem => ?_, fun field hfield => ?_⟩
  · obtain ⟨e, he, hf⟩ := Outcome.exists_result_of_mem hvalues hmem
    obtain ⟨w, hw, rfl⟩ := Outcome.map_eq_ok.mp hf
    exact ⟨w, by rw [Entries.get?_merge hnew, Entries.get?_of_mem hnew he]; rfl,
      revised_eq_ok_iff.mp hw⟩
  · rw [Entries.get?_merge hnew, Entries.get?_eq_none_iff.mpr (hkeys ▸ hfield)]
    rfl

end

/-- An update is a simultaneous assignment: it fails exactly if the assignment to some field fails by
itself; otherwise every field of the update holds what is assigned to it by the record as it was, null
where a directive finds null, and every other field what it held; and the same fields in another order
succeed together, with the same record. -/
theorem update_is_simultaneous (spec : Entries Value) (record : Record) (types : Entries AttributeType)
    (hspec : (Entries.keys spec).Nodup) :
    ((∃ updated, revise spec record types = .ok updated) ↔
      ¬ ∃ field v, (field, v) ∈ spec ∧ CannotAssign types record field v) ∧
    (∀ updated, revise spec record types = .ok updated →
      (∀ field v, (field, v) ∈ spec →
        ∃ w, Entries.get? updated field = some w ∧ Assigns types record field v w) ∧
      (∀ field, field ∉ Entries.keys spec →
        Entries.get? updated field = Entries.get? record field) ∧
      ∀ field v body d date number, (field, v) ∈ spec → directive? v = some body →
        Directive.read field body = .ok d → resolveReference record field d.date = .ok date →
        resolveReference record field d.number = .ok number → (date.isNull || number.isNull) = true →
        Entries.get? updated field = some .null) ∧
    ∀ spec' : Entries Value, spec'.Perm spec →
      ((∃ updated', revise spec' record types = .ok updated') ↔
        ∃ updated, revise spec record types = .ok updated) ∧
      ∀ updated updated', revise spec record types = .ok updated →
        revise spec' record types = .ok updated' →
        ∀ field, Entries.get? updated' field = Entries.get? updated field := by
  refine ⟨exists_revise_iff, fun updated h => ?_,
    fun spec' hperm => ⟨?_, fun updated updated' h h' field => ?_⟩⟩
  · obtain ⟨hassigned, hkept⟩ := get?_revise hspec h
    refine ⟨hassigned, hkept, fun field v body d date number hmem hbody hd hdate hnumber hnull => ?_⟩
    obtain ⟨w, hw, hassigns⟩ := hassigned field v hmem
    rw [hw, hassigns.unique (.null hbody hd hdate hnumber hnull)]
  · rw [exists_revise_iff, exists_revise_iff]
    simp only [hperm.mem_iff]
  · have hkeys := hperm.map Prod.fst
    obtain ⟨hassigned, hkept⟩ := get?_revise hspec h
    obtain ⟨hassigned', hkept'⟩ := get?_revise (hkeys.nodup_iff.mpr hspec) h'
    by_cases hfield : field ∈ Entries.keys spec
    · obtain ⟨⟨_, v⟩, hmem, rfl⟩ := List.mem_map.mp hfield
      obtain ⟨w, hw, hassigns⟩ := hassigned _ v hmem
      obtain ⟨w', hw', hassigns'⟩ := hassigned' _ v (hperm.mem_iff.mpr hmem)
      rw [hw, hw', hassigns.unique hassigns']
    · rw [hkept field hfield, hkept' field fun h => hfield (hkeys.mem_iff.mp h)]

/-- Two fields that each become the day after the other. -/
def crossedDays : Entries Value :=
  let dayAfter (field : String) : Value :=
    .map [(sumDateKey, .map [("date", .text field), ("number", .int 1), ("unit", .text "day")])]
  [("start", dayAfter "stop"), ("stop", dayAfter "start")]

/-- A record with a start and a stop in January 2024. -/
def startAndStop : Record :=
  [("start", .instant ⟨⟨2024, 1, 1⟩, 0, 0, 0, 0, none⟩), ("label", .text "a"),
    ("stop", .instant ⟨⟨2024, 1, 5⟩, 0, 0, 0, 0, none⟩)]

/-- The types of the start and the stop. -/
def startAndStopTypes : Entries AttributeType := [("start", .datetime), ("stop", .datetime)]

/-- The days cross over, in either order of the two fields, and the third field stays. -/
theorem crossed_days_in_either_order :
    (Entries.keys crossedDays).Nodup ∧ ∃ updated updated',
      revise crossedDays startAndStop startAndStopTypes = .ok updated ∧
      revise crossedDays.reverse startAndStop startAndStopTypes = .ok updated' ∧
      (∀ field, Entries.get? updated' field = Entries.get? updated field) ∧
      Entries.get? updated "label" = some (.text "a") := by
  obtain ⟨-, hassigns, hperm⟩ :=
    update_is_simultaneous crossedDays startAndStop startAndStopTypes (by decide)
  obtain ⟨hiff, hsame⟩ := hperm crossedDays.reverse (List.reverse_perm _)
  obtain ⟨updated, h⟩ : ∃ updated, revise crossedDays startAndStop startAndStopTypes = .ok updated := by
    have hok : (revise crossedDays startAndStop startAndStopTypes).isOk = true := by decide +kernel
    cases h : revise crossedDays startAndStop startAndStopTypes with
    | ok updated => exact ⟨updated, rfl⟩
    | error fault =>
      rw [h] at hok
      cases hok
  obtain ⟨updated', h'⟩ := hiff.mpr ⟨updated, h⟩
  exact ⟨by decide, updated, updated', h, h', hsame updated updated' h h',
    (hassigns updated h).2.1 "label" (by decide)⟩

end TwinStore
