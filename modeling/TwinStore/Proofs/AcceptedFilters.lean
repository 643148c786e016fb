import TwinStore.Proofs.FilterAgreement
import TwinStore.Proofs.LegibleValues

/-!
# Filters that both stores accept

A filter is refused for an unknown field, a malformed group or a condition that its reader cannot read.
The readers of both stores know the same fields and read the same groups, so they refuse the same
filters, except for operands that only one of them takes: the cache has an answer to the order with
null or a truth value, the primary store has none; and the primary store takes operands of any kind for
a temporal attribute, the cache only what names a point of time.

Main definitions:

- `Reading.KnowsOnly`: the readings that refuse the fields that a model does not have.
- `IsWritten`: the filters that can be read at all, as the formula of their conditions.
- `Operator.TreatsAlike`: the operands that both readers take, or both refuse.

Main results:

- Theorem `Reading.accepts_iff`: a reading accepts a filter if it reads each of its conditions.
- Theorem `Operator.treatsAlike_iff`: exactly these operands are treated alike.
- Theorem `filters_are_accepted_alike`: filters of such operands are accepted by both stores or by
  neither.
-/

namespace TwinStore

namespace Filter

/-! ## Readings that know the same fields -/

namespace Reading

variable {α : Type}

/-- Whether a reading refuses the fields that a model does not have. -/
def KnowsOnly (reading : Reading α) (m : Model) : Prop :=
  ∀ field type, reading.fieldType field = .ok type →
    ∃ t, Entries.get? m.attributeTypes field = some t ∧ type = some t

/-- Whether a reading reads each of some requirements on a model. -/
def ReadsAll (reading : Reading α) (m : Model) (cs : List Requirement) : Prop :=
  ∀ c ∈ cs, ∃ a, reading.condition c.field (Entries.get? m.attributeTypes c.field) c.operator c.operand =
    .ok a

variable {m : Model} {reading : Reading α}

/-- Conditions that are read one after another are all read, without warnings. -/
theorem reads_of_mapM {field : String} {type : Option AttributeType}
    {conditions : List (Operator × Value)} {lines lines' : List LogLine} {parts : List (Formula α)}
    (h : runFrom (conditions.mapM fun c => do
      return Formula.leaf (← Reported.ofOutcome (reading.condition field type c.1 c.2))) lines =
      (.ok parts, lines')) :
    lines' = lines ∧ ∀ c ∈ conditions, ∃ a, reading.condition field type c.1 c.2 = .ok a := by
  induction conditions generalizing lines parts with
  | nil =>
    cases h
    exact ⟨rfl, by simp⟩
  | cons c conditions ih =>
    rw [List.mapM_cons] at h
    obtain ⟨leaf, s₁, hleaf, h⟩ := runFrom_bind_eq_ok.mp h
    obtain ⟨a, s₂, ha, hleaf⟩ := runFrom_bind_eq_ok.mp hleaf
    cases hleaf
    rw [Reported.runFrom_ofOutcome, Prod.mk.injEq] at ha
    obtain ⟨ha, rfl⟩ := ha
    obtain ⟨leaves, s₃, hleaves, h⟩ := runFrom_bind_eq_ok.mp h
    cases h
    obtain ⟨rfl, hothers⟩ := ih hleaves
    refine ⟨rfl, fun c' hc' => ?_⟩
    rcases List.mem_cons.mp hc' with rfl | hc'
    · exact ⟨a, ha⟩
    · exact hothers c' hc'

/-- If the conditions of one field are read, the field is known and all requirements on it are read. -/
theorem plain_of_field (honly : reading.KnowsOnly m) {key : String} {value : Value}
    {lines lines' : List LogLine} {parts : List (Formula α)}
    (h : runFrom (reading.field key value) lines = (.ok parts, lines')) :
    ∃ required, runFrom ((plainReading m).field key value) lines = (.ok required, lines') ∧
      reading.ReadsAll m (Formula.leavesOf required) := by
  obtain ⟨type, s₁, htype, h⟩ := runFrom_bind_eq_ok.mp h
  rw [Reported.runFrom_ofOutcome, Prod.mk.injEq] at htype
  obtain ⟨htype, rfl⟩ := htype
  obtain ⟨t, ht, rfl⟩ := honly key type htype
  obtain ⟨conditions, s₂, hconditions, h⟩ := runFrom_bind_eq_ok.mp h
  obtain ⟨rfl, hreads⟩ := reads_of_mapM h
  have hfield : runFrom (Reported.ofOutcome ((plainReading m).fieldType key)) lines =
      (.ok (some t), lines) := by
    rw [Reported.runFrom_ofOutcome]
    simp only [plainReading, ht]
  refine ⟨(conditions.map fun c => (⟨key, c.1, c.2⟩ : Requirement)).map .leaf, ?_, ?_⟩
  · rw [field, runFrom_bind_of_ok hfield, runFrom_bind_of_ok hconditions,
      runFrom_mapM (g := fun c => Formula.leaf (⟨key, c.1, c.2⟩ : Requirement)), List.map_map]
    · rfl
    · exact fun c _ => rfl
  · rw [Formula.leavesOf_leaves]
    intro c hc
    obtain ⟨written, hwritten, rfl⟩ := List.mem_map.mp hc
    rw [ht]
    exact hreads written hwritten

/-- If the parts under one key are read, all requirements under it are, if that is so for groups. -/
theorem plain_of_part (honly : reading.KnowsOnly m) {key : String} {value : Value}
    {lines lines' : List LogLine} {parts : List (Formula α)}
    (hgroup : runFrom (reading.group key value) lines = (.ok parts, lines') →
      ∃ required, runFrom ((plainReading m).group key value) lines = (.ok required, lines') ∧
        reading.ReadsAll m (Formula.leavesOf required))
    (h : runFrom (reading.part key value) lines = (.ok parts, lines')) :
    ∃ required, runFrom ((plainReading m).part key value) lines = (.ok required, lines') ∧
      reading.ReadsAll m (Formula.leavesOf required) := by
  unfold part at h ⊢
  split_ifs at h ⊢ with htransform hdollar
  · cases h
    exact ⟨[], rfl, by simp [ReadsAll, Formula.leavesOf]⟩
  · exact hgroup h
  · exact plain_of_field honly h

mutual

/-- If the parts of a filter are read, all that it requires is. -/
theorem plain_of_entries (honly : reading.KnowsOnly m) : ∀ {es : List (String × Value)}
    {lines lines' : List LogLine} {parts : List (Formula α)},
    runFrom (reading.entries es) lines = (.ok parts, lines') →
    ∃ required, runFrom ((plainReading m).entries es) lines = (.ok required, lines') ∧
      reading.ReadsAll m (Formula.leavesOf required)
  | [], _, _, _, h => by
    cases h
    exact ⟨[], rfl, by simp [ReadsAll, Formula.leavesOf]⟩
  | (key, value) :: rest, lines, lines', parts, h => by
    rw [entries_cons] at h
    obtain ⟨here, s₁, hhere, h⟩ := runFrom_bind_eq_ok.mp h
    obtain ⟨others, s₂, hothers, h⟩ := runFrom_bind_eq_ok.mp h
    cases h
    have hgroup (h : runFrom (reading.group key value) lines = (.ok here, s₁)) :=
      plain_of_group honly h
    obtain ⟨first, hfirst, hreads⟩ := plain_of_part honly hgroup hhere
    obtain ⟨later, hlater, hreads'⟩ := plain_of_entries honly hothers
    refine ⟨first ++ later, ?_, ?_⟩
    · rw [entries_cons, runFrom_bind_of_ok hfirst, runFrom_bind_of_ok hlater]
      rfl
    · rw [Formula.leavesOf_append]
      exact fun c hc => (List.mem_append.mp hc).elim (hreads c) (hreads' c)
termination_by structural es => es

/-- If the part under a connective is read, all that it requires is. -/
theorem plain_of_group (honly : reading.KnowsOnly m) : ∀ {key : String} {value : Value}
    {lines lines' : List LogLine} {parts : List (Formula α)},
    runFrom (reading.group key value) lines = (.ok parts, lines') →
    ∃ required, runFrom ((plainReading m).group key value) lines = (.ok required, lines') ∧
      reading.ReadsAll m (Formula.leavesOf required)
  | key, value, lines, lines', parts, h => by
    rw [Reading.group] at h ⊢
    split at h
    · obtain ⟨_, s₁, hwarn, h⟩ := runFrom_bind_eq_ok.mp h
      cases h
      exact ⟨[], (runFrom_bind_of_ok hwarn).trans rfl, by simp [ReadsAll, Formula.leavesOf]⟩
    · next connective _ =>
      obtain ⟨_, s₁, hmembers, h⟩ := runFrom_bind_eq_ok.mp h
      simp only [runFrom_bind_of_ok hmembers]
      cases value with
      | map inner =>
        obtain ⟨here, s₂, hhere, h⟩ := runFrom_bind_eq_ok.mp h
        cases h
        obtain ⟨required, hrequired, hreads⟩ := plain_of_entries honly hhere
        refine ⟨_, (runFrom_bind_of_ok hrequired).trans rfl, fun c hc => hreads c ?_⟩
        cases connective <;> simpa [Connective.combine, Formula.leavesOf, Formula.leaves] using hc
      | list items =>
        obtain ⟨here, s₂, hhere, h⟩ := runFrom_bind_eq_ok.mp h
        cases h
        obtain ⟨required, hrequired, hreads⟩ := plain_of_groups honly hhere
        refine ⟨_, (runFrom_bind_of_ok hrequired).trans rfl, fun c hc => hreads c ?_⟩
        rwa [leavesOf_grouped] at hc
      | tuple items =>
        obtain ⟨here, s₂, hhere, h⟩ := runFrom_bind_eq_ok.mp h
        cases h
        obtain ⟨required, hrequired, hreads⟩ := plain_of_groups honly hhere
        refine ⟨_, (runFrom_bind_of_ok hrequired).trans rfl, fun c hc => hreads c ?_⟩
        rwa [leavesOf_grouped] at hc
      | _ =>
        cases h
        exact ⟨[], rfl, by simp [ReadsAll, Formula.leavesOf]⟩
termination_by structural _ value => value

/-- If the filters of a list are read, all that they require is. -/
theorem plain_of_groups (honly : reading.KnowsOnly m) : ∀ {items : List Value}
    {lines lines' : List LogLine} {parts : List (Formula α)},
    runFrom (reading.groups items) lines = (.ok parts, lines') →
    ∃ required, runFrom ((plainReading m).groups items) lines = (.ok required, lines') ∧
      reading.ReadsAll m (Formula.leavesOf required)
  | [], _, _, _, h => by
    cases h
    exact ⟨[], rfl, by simp [ReadsAll, Formula.leavesOf]⟩
  | item :: rest, lines, lines', parts, h => by
    cases item with
    | map inner =>
      rw [Reading.groups] at h
      obtain ⟨first, s₁, hfirst, h⟩ := runFrom_bind_eq_ok.mp h
      obtain ⟨others, s₂, hothers, h⟩ := runFrom_bind_eq_ok.mp h
      cases h
      obtain ⟨required, hrequired, hreads⟩ := plain_of_entries honly hfirst
      obtain ⟨later, hlater, hreads'⟩ := plain_of_groups honly hothers
      refine ⟨.conj required :: later, ?_, ?_⟩
      · rw [Reading.groups, runFrom_bind_of_ok hrequired, runFrom_bind_of_ok hlater]
        rfl
      · exact fun c hc => (List.mem_append.mp hc).elim (hreads c) (hreads' c)
    | _ => exact @plain_of_groups honly rest _ _ _ h
termination_by structural items => items

end

/-- A reading that knows the fields of a model, and no others, accepts a filter exactly if the filter
can be read at all and each of its conditions is read. -/
theorem accepts_iff [Inhabited α] (hknows : reading.Knows m) (honly : reading.KnowsOnly m)
    {where_ : Value} :
    (∃ g lines, runFrom (reading.filter where_) [] = (.ok g, lines)) ↔
      ∃ f lines, runFrom ((plainReading m).filter where_) [] = (.ok f, lines) ∧
        reading.ReadsAll m f.leaves := by
  constructor
  · rintro ⟨g, lines, h⟩
    obtain ⟨stripped, s₁, hstripped, h⟩ := runFrom_bind_eq_ok.mp h
    obtain ⟨parts, s₂, hparts, h⟩ := runFrom_bind_eq_ok.mp h
    cases h
    obtain ⟨required, hrequired, hreads⟩ := plain_of_entries honly hparts
    refine ⟨.conj required, lines, ?_, hreads⟩
    rw [Reading.filter, runFrom_bind_of_ok hstripped, runFrom_bind_of_ok hrequired]
    rfl
  · rintro ⟨f, lines, h, hreads⟩
    refine ⟨_, lines, filter_of_plain hknows h fun c hc => ?_⟩
    obtain ⟨a, ha⟩ := hreads c hc
    rw [leafOf, ha]
    rfl

end Reading

/-! ## Conditions that are read -/

/-- The reading for the table of a model refuses unknown fields. -/
theorem knowsOnly_storeReading (m : Model) : (storeReading m).KnowsOnly m := by
  intro field type h
  simp only [storeReading] at h
  split at h
  · next t ht => exact ⟨t, ht, (Except.ok.inj h).symm⟩
  · cases h

/-- The reading for records of a model refuses unknown fields. -/
theorem knowsOnly_recordReading (m : Model) :
    (recordReading (some m.attributeTypes)).KnowsOnly m := by
  intro field type h
  simp only [recordReading] at h
  split at h
  · next t ht => exact ⟨t, ht, (Except.ok.inj h).symm⟩
  · cases h

/-- A list has results if each of its items has one. -/
theorem exists_mapM_iff {α β : Type} {f : α → Outcome β} {as : List α} :
    (∃ bs, as.mapM f = .ok bs) ↔ ∀ a ∈ as, ∃ b, f a = .ok b := by
  constructor
  · rintro ⟨bs, h⟩ a ha
    obtain ⟨b, -, hb⟩ := Outcome.exists_result_of_mem h ha
    exact ⟨b, hb⟩
  · intro h
    obtain ⟨bs, hbs, -⟩ := Outcome.exists_mapM (R := fun _ _ => True) fun a ha =>
      (h a ha).imp fun _ hb => ⟨hb, trivial⟩
    exact ⟨bs, hbs⟩

/-- A condition is read for records if each of its operands can be compared. -/
theorem exists_check_iff {types : Option (Entries AttributeType)} {type : Option AttributeType}
    {c : Requirement} :
    (∃ check, (recordReading types).condition c.field type c.operator c.operand = .ok check) ↔
      ∀ v ∈ c.operands, ∃ w, comparable type v = .ok w := by
  obtain ⟨field, op, operand⟩ := c
  cases op with
  | present => simp [recordReading, Requirement.operands, Operator.takesList]
  | isIn | notIn =>
    simp only [recordReading, Requirement.operands, Operator.takesList, if_true]
    rw [← exists_mapM_iff]
    cases (Operator.candidates operand).mapM (comparable type) <;> simp
  | _ =>
    simp only [recordReading, Requirement.operands, Operator.takesList, reduceCtorEq, if_false,
      List.mem_singleton, forall_eq, Bool.false_eq_true]
    cases comparable type operand <;> simp

/-- A condition is read for a table if each of its operands takes the form of the column, and has an
order there if it is asked for by order. -/
theorem exists_comparison_iff {m : Model} {type : Option AttributeType} {c : Requirement} :
    (∃ comparison, (storeReading m).condition c.field type c.operator c.operand = .ok comparison) ↔
      ∀ v ∈ c.operands, ∃ w, coerce type v = .ok w ∧
        (c.operator.isOrdering = true → isUnordered w = false) := by
  obtain ⟨field, op, operand⟩ := c
  cases op with
  | present => simp [storeReading, Requirement.operands, Operator.takesList, Operator.isOrdering]
  | eq =>
    simp only [storeReading, Requirement.operands, Operator.takesList, Operator.isOrdering,
      reduceCtorEq, if_false, List.mem_singleton, forall_eq, Bool.false_eq_true, false_implies, and_true,
      Bool.false_and]
    cases coerce type operand <;> simp
  | isIn | notIn =>
    simp only [storeReading, Requirement.operands, Operator.takesList, Operator.isOrdering, if_true,
      Bool.false_eq_true, false_implies, and_true, Bool.false_and, if_false]
    rw [← exists_mapM_iff]
    cases (Operator.candidates operand).mapM (coerce type) <;> simp
  | _ =>
    simp only [storeReading, Requirement.operands, Operator.takesList, Operator.isOrdering,
      reduceCtorEq, if_false, List.mem_singleton, forall_eq, Bool.false_eq_true, Bool.true_and,
      true_implies]
    cases coerce type operand with
    | error fault => simp
    | ok w =>
      cases hw : isUnordered w with
      | false => simp [hw]
      | true =>
        refine iff_of_false ?_ (by simp [hw])
        rintro ⟨_, h⟩
        simp only [Outcome.ok_bind, hw, if_true] at h
        cases h

/-! ## Operands that both readings treat alike -/

/-- Coercion makes values without an order of such values only. -/
theorem isUnordered_coerce {type : Option AttributeType} {v w : Value} (h : coerce type v = .ok w) :
    isUnordered w = isUnordered v := by
  rcases type with _ | type
  · rw [Except.ok.inj h]
  cases type with
  | int | str | text | bool | datetime | date | uuid => exact isUnordered_of_coerce rfl h
  | float | json => rw [Except.ok.inj h]
  | decimal =>
    cases v with
    | float x =>
      simp only [coerce, coerceDecimal] at h
      split at h
      · rw [← Except.ok.inj h]
        rfl
      · cases h
    | text s =>
      simp only [coerce, coerceDecimal] at h
      split at h
      · rw [← Except.ok.inj h]
        rfl
      · cases h
    | _ => rw [← Except.ok.inj h] <;> rfl

/-- Coercion to a type leaves null and truth values alone. -/
theorem coerce_of_isUnordered (type : AttributeType) {v : Value} (h : isUnordered v = true) :
    coerce (some type) v = .ok v := by
  cases v with
  | null | bool => cases type <;> rfl
  | _ => cases h

/-- Coercion to a temporal type leaves alone what names no point of time. -/
theorem coerce_of_not_namesTime {type : AttributeType} (htype : type.isTemporal = true) {v : Value}
    (h : v.namesTime = false) : coerce (some type) v = .ok v := by
  cases type with
  | datetime | date =>
    cases v with
    | int | float | text | instant | date => cases h
    | _ => rfl
  | _ => cases htype

/-- What is coerced of a name of a point of time can be compared. -/
theorem exists_epochMicros {type : AttributeType} (htype : type.isTemporal = true) {v w : Value}
    (hv : v.namesTime = true) (h : coerce (some type) v = .ok w) : ∃ u, epochMicros w = .ok u := by
  cases type with
  | datetime =>
    obtain ⟨t, rfl, hnaive⟩ := Cache.exists_naive hv h
    exact ⟨_, by rw [epochMicros, universal_of_naive hnaive]; rfl⟩
  | date =>
    obtain ⟨u, hu, rfl⟩ := Outcome.map_eq_ok.mp ((coerceDate_eq v).symm.trans h)
    obtain ⟨t, rfl, -⟩ := Cache.exists_naive hv hu
    exact ⟨_, rfl⟩
  | _ => cases htype

/-- Whether an operand of an attribute is one that both readings take, or both refuse: null where no
order is asked for; a truth value where no order is asked for, or of a temporal attribute, whose order
with it both refuse; anything else, except for what names no point of time where the attribute does. -/
def Operator.TreatsAlike (op : Operator) (type : AttributeType) : Value → Prop
  | .null => op.isOrdering = false
  | .bool _ => op.isOrdering = type.isTemporal
  | v => type.isTemporal = true → v.namesTime = true

/-- Exactly these operands are treated alike. -/
theorem Operator.treatsAlike_iff {op : Operator} {type : AttributeType} {v : Value} :
    op.TreatsAlike type v ↔
      ((∃ w, comparable (some type) v = .ok w) ↔
        ∃ w, coerce (some type) v = .ok w ∧ (op.isOrdering = true → isUnordered w = false)) := by
  cases hv : isUnordered v with
  | true =>
    have hcoerce := coerce_of_isUnordered type hv
    have hordered : (∃ w, coerce (some type) v = .ok w ∧
        (op.isOrdering = true → isUnordered w = false)) ↔ op.isOrdering = false := by
      simp [hcoerce, hv]
    rw [hordered]
    cases v with
    | null =>
      exact (iff_true_left ⟨.null, by rw [comparable, hcoerce]; cases type <;> rfl⟩).symm
    | bool b =>
      have hcomparable : (∃ w, comparable (some type) (.bool b) = .ok w) ↔ type.isTemporal = false := by
        rw [comparable, hcoerce, Outcome.ok_bind, Option.any_some]
        cases type.isTemporal <;> simp [epochMicros, Outcome.filterError]
      rw [hcomparable, Operator.TreatsAlike]
      cases op.isOrdering <;> cases type.isTemporal <;> decide
    | _ => cases hv
  | false =>
    have hordered : (∃ w, coerce (some type) v = .ok w ∧
        (op.isOrdering = true → isUnordered w = false)) ↔ ∃ w, coerce (some type) v = .ok w :=
      exists_congr fun w => and_iff_left_of_imp fun h _ => (isUnordered_coerce h).trans hv
    have halike : op.TreatsAlike type v ↔ (type.isTemporal = true → v.namesTime = true) := by
      cases v with
      | null | bool => cases hv
      | _ => rfl
    rw [hordered, halike]
    cases htype : type.isTemporal with
    | false =>
      have hcomparable : comparable (some type) v = coerce (some type) v := by
        rw [comparable, Option.any_some, htype]
        cases coerce (some type) v <;> rfl
      rw [hcomparable]
      exact iff_of_true (fun h => absurd h Bool.false_ne_true) Iff.rfl
    | true =>
      cases hname : v.namesTime with
      | true =>
        refine iff_of_true (fun _ => rfl) ⟨?_, ?_⟩
        · rintro ⟨u, h⟩
          obtain ⟨w, hw, -⟩ := Outcome.bind_eq_ok.mp h
          exact ⟨w, hw⟩
        · rintro ⟨w, h⟩
          rw [comparable, h, Outcome.ok_bind, Option.any_some, if_pos htype]
          exact exists_epochMicros htype hname h
      | false =>
        have hcoerce := coerce_of_not_namesTime htype hname
        have hcomparable : ¬ ∃ w, comparable (some type) v = .ok w := by
          rw [comparable, hcoerce, Outcome.ok_bind, Option.any_some, if_pos htype]
          cases v with
          | null | bool => cases hv
          | int | float | text | instant | date => cases hname
          | _ =>
            rintro ⟨_, h⟩
            cases h
        exact iff_of_false (fun h => Bool.false_ne_true (h rfl))
          fun h => hcomparable (h.mpr ⟨v, hcoerce⟩)

/-! ## Whole filters -/

/-- Whether a filter over a model is a formula of conditions on attributes of the model: all its fields
are known and all its groups are well formed. -/
def IsWritten (m : Model) (where_ : Value) (f : Formula Requirement) : Prop :=
  ∃ lines, runFrom ((plainReading m).filter where_) [] = (.ok f, lines)

/-- Whether the operands of a filter over a model are all treated alike. -/
def IsTreatedAlike (m : Model) (where_ : Value) : Prop :=
  ∀ f, IsWritten m where_ f → ∀ c ∈ f.leaves, ∀ type,
    Entries.get? m.attributeTypes c.field = some type → ∀ v ∈ c.operands, c.operator.TreatsAlike type v

section

variable {m : Model} {where_ : Value}

/-- The conditions of a written filter are on attributes of the model. -/
theorem IsWritten.exists_type {f : Formula Requirement} (h : IsWritten m where_ f) {c : Requirement}
    (hc : c ∈ f.leaves) : ∃ type, Entries.get? m.attributeTypes c.field = some type := by
  have hreads : (plainReading m).Reads
      (fun c => ∃ type, Entries.get? m.attributeTypes c.field = some type) (fun _ => True)
      (mentions where_) := by
    intro c _
    simp only [Reading.leaf, plainReading]
    split
    · next type htype => exact ⟨type, htype⟩
    · trivial
  obtain ⟨lines, hf⟩ := h
  have hends := Reading.filter_ends (fun _ _ _ => trivial) (fun _ => trivial) (fun _ _ => trivial) hreads []
  rw [hf] at hends
  exact hends c hc

/-- A filter is one formula. -/
theorem IsWritten.unique {f g : Formula Requirement} (h : IsWritten m where_ f)
    (h' : IsWritten m where_ g) : f = g := by
  obtain ⟨lines, hf⟩ := h
  obtain ⟨lines', hg⟩ := h'
  exact Except.ok.inj (Prod.mk.inj (hf.symm.trans hg)).1

/-- A computation that is followed by another one succeeds if both do. -/
theorem exists_run_iff {α β : Type} {x : Reported α} {g : α → β} :
    (∃ b, (do return g (← x) : Reported β).run.2 = .ok b) ↔
      ∃ a lines, runFrom x [] = (.ok a, lines) := by
  constructor
  · rintro ⟨b, h⟩
    obtain ⟨a, lines, hx, -⟩ := runFrom_bind_eq_ok.mp (runFrom_eq h)
    exact ⟨a, lines, hx⟩
  · rintro ⟨a, lines, hx⟩
    exact ⟨g a, congrArg Prod.fst (runFrom_bind_of_ok hx)⟩

/-- A filter is accepted for records if it is written well and its operands can be compared. -/
theorem exists_predicate_iff :
    (∃ predicate, (Predicate.ofFilter where_ (some m.attributeTypes)).run.2 = .ok predicate) ↔
      ∃ f, IsWritten m where_ f ∧ ∀ c ∈ f.leaves, ∀ v ∈ c.operands,
        ∃ w, comparable (Entries.get? m.attributeTypes c.field) v = .ok w := by
  refine exists_run_iff.trans ((Reading.accepts_iff (knows_recordReading m)
    (knowsOnly_recordReading m)).trans (exists_congr fun f => ?_))
  rw [exists_and_right]
  exact and_congr_right fun _ => forall₂_congr fun c _ => exists_check_iff

/-- A filter is accepted for a table if it is written well, its operands take the form of their columns
and those asked for by order have one there. -/
theorem exists_clause_iff :
    (∃ clause, (toClause where_ m).run.2 = .ok clause) ↔
      ∃ f, IsWritten m where_ f ∧ ∀ c ∈ f.leaves, ∀ v ∈ c.operands,
        ∃ w, coerce (Entries.get? m.attributeTypes c.field) v = .ok w ∧
          (c.operator.isOrdering = true → isUnordered w = false) := by
  refine exists_run_iff.trans ((Reading.accepts_iff (knows_storeReading m)
    (knowsOnly_storeReading m)).trans (exists_congr fun f => ?_))
  rw [exists_and_right]
  exact and_congr_right fun _ => forall₂_congr fun c _ => exists_comparison_iff

/-- A filter of operands that both readings treat alike is accepted by both stores or by neither; an
unknown field, a malformed group or an operand that cannot take the form of its attribute is refused by
both in any case. -/
theorem filters_are_accepted_alike (m : Model) (where_ : Value) (halike : IsTreatedAlike m where_) :
    ((∃ predicate, (Predicate.ofFilter where_ (some m.attributeTypes)).run.2 = .ok predicate) ↔
      ∃ clause, (toClause where_ m).run.2 = .ok clause) ∧
    ((∀ f, IsWritten m where_ f → ∃ c ∈ f.leaves, ∃ v ∈ c.operands,
        ¬ ∃ w, coerce (Entries.get? m.attributeTypes c.field) v = .ok w) →
      (¬ ∃ predicate, (Predicate.ofFilter where_ (some m.attributeTypes)).run.2 = .ok predicate) ∧
      ¬ ∃ clause, (toClause where_ m).run.2 = .ok clause) := by
  rw [exists_predicate_iff, exists_clause_iff]
  refine ⟨exists_congr fun f => and_congr_right fun hf => ?_, fun hrefused => ⟨?_, ?_⟩⟩
  · refine forall₂_congr fun c hc => forall₂_congr fun v hv => ?_
    obtain ⟨type, htype⟩ := hf.exists_type hc
    rw [htype]
    exact Operator.treatsAlike_iff.mp (halike f hf c hc type htype v hv)
  · rintro ⟨f, hf, hcompares⟩
    obtain ⟨c, hc, v, hv, hrefused⟩ := hrefused f hf
    obtain ⟨w, hw⟩ := hcompares c hc v hv
    obtain ⟨u, hu, -⟩ := Outcome.bind_eq_ok.mp hw
    exact hrefused ⟨u, hu⟩
  · rintro ⟨f, hf, hcoerces⟩
    obtain ⟨c, hc, v, hv, hrefused⟩ := hrefused f hf
    obtain ⟨w, hw, -⟩ := hcoerces c hc v hv
    exact hrefused ⟨w, hw⟩

end

/-- A model with an integer and a point of time. -/
def appointment : Model :=
  ⟨"appointment", [{ name := "n", type := .int }, { name := "at", type := .datetime }], []⟩

/-- The filter for integers above five at no time or at a given one. -/
def aboveFiveAtTime : Value :=
  .map [("n", .map [("$gt", .int 5)]),
    ("$or", .list [.map [("at", .null)], .map [("at", .map [("$in", .list [.date ⟨2024, 1, 1⟩])])]])]

/-- That filter as a formula. -/
def isAboveFiveAtTime : Formula Requirement :=
  .conj [.leaf ⟨"n", .gt, .int 5⟩,
    .disj [.conj [.leaf ⟨"at", .eq, .null⟩],
      .conj [.leaf ⟨"at", .isIn, .list [.date ⟨2024, 1, 1⟩]⟩]]]

theorem isWritten_aboveFiveAtTime : IsWritten appointment aboveFiveAtTime isAboveFiveAtTime :=
  ⟨[], by cbv⟩

/-- Both stores accept that filter. -/
theorem both_accept_aboveFiveAtTime : IsTreatedAlike appointment aboveFiveAtTime ∧
    (∃ predicate,
      (Predicate.ofFilter aboveFiveAtTime (some appointment.attributeTypes)).run.2 = .ok predicate) ∧
    ∃ clause, (toClause aboveFiveAtTime appointment).run.2 = .ok clause := by
  have halike : IsTreatedAlike appointment aboveFiveAtTime := by
    intro f hf
    obtain rfl := hf.unique isWritten_aboveFiveAtTime
    intro c hc type htype v hv
    simp only [isAboveFiveAtTime, Formula.leaves, Formula.leavesOf, List.append_nil, List.cons_append,
      List.nil_append, List.mem_cons, List.not_mem_nil, or_false] at hc
    rcases hc with rfl | rfl | rfl
    · obtain rfl := List.mem_singleton.mp hv
      cases htype
      exact nofun
    · obtain rfl := List.mem_singleton.mp hv
      rfl
    · obtain rfl := List.mem_singleton.mp hv
      exact fun _ => rfl
  have haccepts := (filters_are_accepted_alike appointment aboveFiveAtTime halike).1
  have hclause : ∃ clause, (toClause aboveFiveAtTime appointment).run.2 = .ok clause :=
    ⟨_, by cbv⟩
  exact ⟨halike, haccepts.mpr hclause, hclause⟩

/-- The order with null is refused by the primary store only, an identifier for a point of time by the
cache only. -/
theorem null_order_and_timeless_operand_are_refused_by_one :
    ((∃ predicate, (Predicate.ofFilter (.map [("n", .map [("$gt", .null)])])
        (some appointment.attributeTypes)).run.2 = .ok predicate) ∧
      ¬ ∃ clause, (toClause (.map [("n", .map [("$gt", .null)])]) appointment).run.2 = .ok clause) ∧
    (¬ ∃ predicate, (Predicate.ofFilter (.map [("at", .decimal (.ofInt 5))])
        (some appointment.attributeTypes)).run.2 = .ok predicate) ∧
      ∃ clause, (toClause (.map [("at", .decimal (.ofInt 5))]) appointment).run.2 = .ok clause := by
  have hrefused {α : Type} {o : Outcome α} {fault : Fault} (h : o = .error fault) : ¬ ∃ a, o = .ok a := by
    rintro ⟨a, ha⟩
    cases h.symm.trans ha
  refine ⟨⟨⟨_, by cbv⟩, hrefused (by cbv)⟩,
    hrefused (by cbv), ⟨_, by cbv⟩⟩

end Filter

end TwinStore
