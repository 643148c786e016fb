import TwinStore.Primary.Query
import TwinStore.Proofs.ClauseTruth
import TwinStore.Proofs.QuietFilters

/-!
# Filters that the primary store answers for

The primary store answers for a failure that is a mistake in a filter or an update, or a refusal by the
database; any other failure ends the operation.  Whether a filter can fail in such a way is decided by
its operands, each by itself.

Main definitions:

- `Primary.IsAnswered`: the failures that the primary store answers for.
- `Filter.IsAskable`: the operands that can stand for a field of a type.
- `Filter.Asks`: the filters with such operands.
- `Comparison.IsSafe`: the conditions on columns that are put into statements or answered for.

Main results:

- Theorem `either_toClause`: such a filter is read as a clause of safe conditions.
- Theorem `either_select`: a safe clause selects records, or the selection is answered for.
-/

namespace TwinStore

open Filter Primary

/-! ## Failures -/

/-- Whether the primary store answers for a failure. -/
def Primary.IsAnswered (fault : Fault) : Prop := (failureText? fault).isSome

/-! ## Operands -/

/-- Whether a value is no integer that is too long for a column. -/
def Value.FitsColumn (v : Value) : Prop := ∀ n, v = .int n → fitsWord n = true

namespace Filter

/-- Whether a value can be compared with the fields of a type in both stores, or is refused as a
mistake. -/
structure IsAskable (type : AttributeType) (v : Value) : Prop where
  compares : IsTestable type v
  fits : ∀ w, coerce (some type) v = .ok w → w.FitsColumn

/-- Whether a filter is a map or empty, and compares the fields that it knows with values that can be
compared. -/
structure Asks (types : Entries AttributeType) (where_ : Value) : Prop where
  shape : ∀ fault, withoutTransform where_ ≠ .error fault
  operands : ∀ c ∈ mentions where_, ∀ type, Entries.get? types c.field = some type →
    ∀ v ∈ c.operands, IsAskable type v

/-- A value that can be compared is coerced, or refused as a mistake. -/
theorem IsAskable.either_coerce {type : AttributeType} {v : Value} (h : IsAskable type v) :
    Either Value.FitsColumn IsMistake (coerce (some type) v) := by
  cases hcoerce : coerce (some type) v with
  | ok w => exact h.fits w hcoerce
  | error fault =>
    have hcompares := h.compares
    rw [IsTestable, comparable, hcoerce] at hcompares
    exact hcompares

end Filter

namespace Primary

variable {binding : Binding} {v p : Value}

/-- A value takes no form that is too long for a column. -/
theorem fitsColumn_of_prepare (hv : v.FitsColumn) (h : binding.prepare v = .ok p) :
    p.FitsColumn := by
  rintro n rfl
  unfold Binding.prepare at h
  split at h
  · next w hform =>
    obtain rfl := Except.ok.inj h
    unfold Binding.form? at hform
    split at hform
    · obtain ⟨s, -, hs⟩ := Option.map_eq_some_iff.mp hform
      cases hs
    · cases hform
    · exact hv n (Option.some.inj hform)
    · obtain ⟨x, -, hx⟩ := Option.map_eq_some_iff.mp hform
      cases hx
    · obtain ⟨b, -, hb⟩ := Option.map_eq_some_iff.mp hform
      obtain rfl := Value.int.inj hb
      cases b <;> rfl
    all_goals cases hform
  · cases h

/-- A form that is not too long is a cell, or refused. -/
theorem either_cellOf (hp : p.FitsColumn) : Either (fun _ => True) IsAnswered (cellOf p) := by
  unfold cellOf
  split
  · trivial
  · trivial
  · next n =>
    rw [if_pos (hp n rfl)]
    trivial
  all_goals trivial

/-- A value that is not too long is put into a statement, or refused. -/
theorem either_prepare (binding : Binding) (hv : v.FitsColumn) :
    Either (fun p => Either (fun _ => True) IsAnswered (cellOf p)) IsAnswered (binding.prepare v) := by
  cases hprepare : binding.prepare v with
  | ok p => exact either_cellOf (fitsColumn_of_prepare hv hprepare)
  | error fault =>
    unfold Binding.prepare at hprepare
    split at hprepare
    · cases hprepare
    · obtain rfl := Except.error.inj hprepare
      rfl

end Primary

/-! ## Conditions on columns -/

/-- Whether a condition on a column is put into statements, or answered for. -/
def Filter.Comparison.IsSafe (c : Comparison) : Prop :=
  Either (fun k : Condition Value => Either (fun _ => True) IsAnswered (k.mapOutcome cellOf)) IsAnswered
    (Condition.ofComparison c)

/-- A condition is safe if its operands are not too long. -/
theorem Filter.Comparison.isSafe_of_fits {c : Comparison}
    (h : ∀ v ∈ Requirement.operands ⟨c.column, c.operator, c.operand⟩, v.FitsColumn) : c.IsSafe := by
  have hmember (vs : List Value) (binding : Binding) (column : String) (affinity : Affinity)
      (negated : Bool) (hvs : ∀ v ∈ vs, v.FitsColumn) :
      Either (fun k : Condition Value => Either (fun _ => True) IsAnswered (k.mapOutcome cellOf))
        IsAnswered (do return .member column affinity negated (← vs.mapM binding.prepare)) := by
    apply (Either.mapM fun v hv => either_prepare binding (hvs v hv)).bind
    intro ps hps
    apply (Either.mapM hps).bind
    intro cells _
    trivial
  have hcompare (operator : Operator) (hlist : operator.takesList = false)
      (hpresent : operator ≠ .present) (hoperator : c.operator = operator) : c.operand.FitsColumn := by
    apply h
    rw [Requirement.operands, hoperator, hlist, if_neg Bool.false_ne_true, if_neg hpresent]
    exact List.mem_singleton_self _
  have hcandidates (hlist : c.operator.takesList = true) :
      ∀ v ∈ Operator.candidates c.operand, v.FitsColumn := by
    intro v hv
    apply h
    rwa [Requirement.operands, if_pos hlist]
  unfold IsSafe Condition.ofComparison
  cases hoperator : c.operator with
  | present => trivial
  | isIn => exact hmember _ _ _ _ _ (hcandidates (by rw [hoperator]; rfl))
  | notIn => exact hmember _ _ _ _ _ (hcandidates (by rw [hoperator]; rfl))
  | _ =>
    have hfits := hcompare _ (by rfl) (by decide) hoperator
    dsimp only
    split
    · trivial
    · next b _ => cases b <;> trivial
    · apply (either_prepare _ hfits).bind
      intro p hp
      apply hp.bind
      intro cell _
      trivial

/-! ## Clauses -/

namespace Filter

/-- Operands that can be compared make safe conditions; `E` are the failures that are allowed, and
orders without a place for their operand are among them. -/
theorem storeReading_reads {m : Model} {E : Fault → Prop} (hmistake : ∀ e, E (.filter e))
    {cs : List Requirement}
    (h : ∀ c ∈ cs, ∀ type, Entries.get? m.attributeTypes c.field = some type →
      ∀ v ∈ c.operands, IsAskable type v)
    (horder : ∀ c ∈ cs, c.operator.isOrdering = true → ∀ type,
      Entries.get? m.attributeTypes c.field = some type → ∀ w, coerce (some type) c.operand = .ok w →
      isUnordered w = true → E (.statement .unordered)) :
    (storeReading m).Reads Comparison.IsSafe E cs := by
  intro c hc
  have hcoerced {type : AttributeType} {v : Value} (hv : IsAskable type v) :
      Either Value.FitsColumn E (coerce (some type) v) := by
    apply hv.either_coerce.imp (fun _ => id)
    rintro _ ⟨e, rfl⟩
    exact hmistake e
  cases hget : Entries.get? m.attributeTypes c.field with
  | none =>
    simp only [Reading.leaf, storeReading, hget]
    exact hmistake _
  | some type =>
    have hoperands := h c hc type hget
    simp only [Reading.leaf, storeReading, hget, Outcome.ok_bind]
    unfold Requirement.operands at hoperands
    split_ifs at hoperands ⊢ with hlist hpresent
    · apply (Either.mapM fun v hv => hcoerced (hoperands v hv)).bind
      intro vs hvs
      have hordered : isUnordered (.list vs) = false := rfl
      rw [Outcome.pure_eq_ok, Outcome.ok_bind, hordered, Bool.and_false, if_neg Bool.false_ne_true]
      apply Comparison.isSafe_of_fits
      rwa [Requirement.operands, if_pos hlist]
    · have hordering : c.operator.isOrdering = false := by rw [hpresent]; rfl
      rw [Outcome.pure_eq_ok, Outcome.ok_bind, hordering, Bool.false_and, if_neg Bool.false_ne_true]
      apply Comparison.isSafe_of_fits
      rw [Requirement.operands, if_neg hlist, if_pos hpresent]
      exact List.forall_mem_nil _
    · cases hform : coerce (some type) c.operand with
      | error fault =>
        have hfails := hcoerced (hoperands _ (List.mem_singleton_self _))
        rwa [hform] at hfails
      | ok form =>
        have hfits := hcoerced (hoperands _ (List.mem_singleton_self _))
        rw [hform] at hfits
        rw [Outcome.ok_bind]
        split_ifs with hunordered
        · rw [Bool.and_eq_true] at hunordered
          exact horder c hc hunordered.1 type hget form hform hunordered.2
        · apply Comparison.isSafe_of_fits
          rw [Requirement.operands, if_neg hlist, if_neg hpresent]
          exact List.forall_mem_singleton.mpr hfits

/-- A filter is read as a clause of safe conditions, up to the failures that are allowed. -/
theorem toClause_ends {m : Model} {E : Fault → Prop} (hmistake : ∀ e, E (.filter e)) {where_ : Value}
    (h : Asks m.attributeTypes where_)
    (horder : ∀ c ∈ mentions where_, c.operator.isOrdering = true → ∀ type,
      Entries.get? m.attributeTypes c.field = some type → ∀ w, coerce (some type) c.operand = .ok w →
      isUnordered w = true → E (.statement .unordered)) :
    (toClause where_ m).Ends (Either (fun clause => ∀ c ∈ clause.leaves, c.IsSafe) E) := by
  have hfields : ∀ field fault, (storeReading m).fieldType field = .error fault → E fault := by
    intro field fault hfault
    simp only [storeReading] at hfault
    split at hfault
    · cases hfault
    · exact Except.error.inj hfault ▸ hmistake _
  refine Reported.Ends.bind (Reading.filter_ends hfields hmistake
    (fun fault hfault => absurd hfault (h.shape fault))
    (storeReading_reads hmistake h.operands horder)) (fun f hf => ?_) fun _ => id
  exact Reported.Ends.pure fun c hc => hf c (Clause.leaves_ofFormula hc)

theorem either_toClause {m : Model} {where_ : Value} (h : Asks m.attributeTypes where_) :
    Either (fun clause => ∀ c ∈ clause.leaves, c.IsSafe) IsAnswered (toClause where_ m).run.2 := by
  have hends : (toClause where_ m).Ends
      (Either (fun clause => ∀ c ∈ clause.leaves, c.IsSafe) IsAnswered) :=
    toClause_ends (fun _ => rfl) h fun _ _ _ _ _ _ _ _ => rfl
  exact hends []

namespace Clause

variable {α β : Type} {f : α → Outcome β} {L : β → Prop} {E : Fault → Prop}

mutual

/-- The conditions of a clause are replaced one after another. -/
theorem either_mapOutcome : ∀ {clause : Clause α}, (∀ a ∈ clause.leaves, Either L E (f a)) →
    Either (fun clause' => ∀ b ∈ clause'.leaves, L b) E (clause.mapOutcome f)
  | always, _ => List.forall_mem_nil _
  | truth, _ => List.forall_mem_nil _
  | compare c, h =>
    ((h c (List.mem_singleton_self c)).imp (fun _ => List.forall_mem_singleton.mpr) fun _ => id).map
  | and _, h => (either_mapOutcomes h).map
  | or _, h => (either_mapOutcomes h).map

theorem either_mapOutcomes : ∀ {parts : List (Clause α)}, (∀ a ∈ leavesOf parts, Either L E (f a)) →
    Either (fun parts' => ∀ b ∈ leavesOf parts', L b) E (mapOutcomes f parts)
  | [], _ => List.forall_mem_nil _
  | part :: rest, h => by
    rw [leavesOf, List.forall_mem_append] at h
    apply (either_mapOutcome h.1).bind
    intro part' hpart
    apply (either_mapOutcomes h.2).bind
    intro rest' hrest
    exact List.forall_mem_append.mpr ⟨hpart, hrest⟩

end

end Clause

end Filter

/-! ## Selections -/

namespace Primary.Database

variable {db : Database} {m : Model} {clause : Clause Comparison}

/-- A clause of safe conditions is a test on the rows of its table. -/
theorem either_tableAndTest (h : ∀ c ∈ clause.leaves, c.IsSafe) :
    Either (fun found => db.table m = .ok found.1) IsAnswered (db.tableAndTest m clause) := by
  apply (Clause.either_mapOutcome h).bind
  intro prepared hprepared
  cases htable : db.table m with
  | error fault =>
    unfold Database.table at htable
    split at htable
    · cases htable
    · exact Except.error.inj htable ▸ rfl
  | ok t =>
    rw [Outcome.ok_bind]
    apply (Clause.either_mapOutcome hprepared).bind
    intro test _
    rfl

/-- A clause of safe conditions selects records of rows that can be read, or is answered for. -/
theorem either_select {P : Record → Prop} (h : ∀ c ∈ clause.leaves, c.IsSafe)
    (hrows : ∀ t, db.table m = .ok t → ∀ row ∈ t.rows, ∃ record, recordOf m row = .ok record ∧ P record) :
    Either (fun records => ∀ record ∈ records, P record) IsAnswered (db.select m clause) := by
  apply (either_tableAndTest h).bind
  intro found htable
  apply Either.mapM
  intro row hrow
  have hmem : row ∈ found.1.rows := by
    apply List.mem_of_mem_filter
    exact (List.mergeSort_perm _ _).mem_iff.mp hrow
  obtain ⟨record, hrecord, hP⟩ := hrows found.1 htable row hmem
  rw [hrecord]
  exact hP

end Primary.Database

end TwinStore
