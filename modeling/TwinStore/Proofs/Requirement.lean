import TwinStore.Filter.Clause
import TwinStore.Proofs.Running

/-!
# What a filter requires

A filter over a model is a formula of requirements on fields.  Every reading of the filter that
knows the same fields is that formula, with its own leaf for each requirement.

Main definitions:

- `Requirement`: one condition of a filter as it is written.
- `plainReading`: the reading that keeps conditions as they are written.
- `Formula.leaves`, `Formula.map`, `Formula.eval`: the conditions of a formula, their replacement
  and the truth of the formula.

Main results:

- Theorem `Reading.filter_of_plain`: any reading of a filter is the plain formula with its leaves
  read.
-/

namespace TwinStore

namespace Filter

/-! ## Formulas -/

namespace Formula

variable {α β γ : Type}

mutual

/-- The conditions of a formula. -/
def leaves : Formula α → List α
  | leaf c => [c]
  | conj parts => leavesOf parts
  | disj parts => leavesOf parts

/-- The conditions of several formulas. -/
def leavesOf : List (Formula α) → List α
  | [] => []
  | part :: rest => leaves part ++ leavesOf rest

end

mutual

/-- The formula with every condition replaced. -/
def map (g : α → β) : Formula α → Formula β
  | leaf c => leaf (g c)
  | conj parts => conj (mapAll g parts)
  | disj parts => disj (mapAll g parts)

/-- Several formulas with every condition replaced. -/
def mapAll (g : α → β) : List (Formula α) → List (Formula β)
  | [] => []
  | part :: rest => map g part :: mapAll g rest

end

mutual

/-- Whether a formula is true, given the conditions that are. -/
def eval (p : α → Bool) : Formula α → Bool
  | leaf c => p c
  | conj parts => evalAll p parts
  | disj parts => evalAny p parts

/-- Whether all formulas are true. -/
def evalAll (p : α → Bool) : List (Formula α) → Bool
  | [] => true
  | part :: rest => eval p part && evalAll p rest

/-- Whether some formula is true. -/
def evalAny (p : α → Bool) : List (Formula α) → Bool
  | [] => false
  | part :: rest => eval p part || evalAny p rest

end

@[simp]
theorem leavesOf_append (xs ys : List (Formula α)) :
    leavesOf (xs ++ ys) = leavesOf xs ++ leavesOf ys := by
  induction xs with
  | nil => rfl
  | cons x xs ih => rw [List.cons_append, leavesOf, leavesOf, ih, List.append_assoc]

@[simp]
theorem mapAll_append (g : α → β) (xs ys : List (Formula α)) :
    mapAll g (xs ++ ys) = mapAll g xs ++ mapAll g ys := by
  induction xs with
  | nil => rfl
  | cons x xs ih => rw [List.cons_append, mapAll, mapAll, ih, List.cons_append]

theorem mapAll_leaves (g : α → β) (cs : List α) :
    mapAll g (cs.map leaf) = (cs.map g).map leaf := by
  induction cs with
  | nil => rfl
  | cons c cs ih => simp [mapAll, map, ih]

theorem mem_leavesOf {a : α} {parts : List (Formula α)} :
    a ∈ leavesOf parts ↔ ∃ part ∈ parts, a ∈ part.leaves := by
  induction parts with
  | nil => simp [leavesOf]
  | cons part parts ih => simp [leavesOf, ih]

theorem leavesOf_leaves (cs : List α) : leavesOf (cs.map leaf) = cs := by
  induction cs with
  | nil => rfl
  | cons c cs ih => simp [leavesOf, leaves, ih]

mutual

/-- A formula with replaced conditions is true if the conditions that came from are. -/
theorem eval_map (p : β → Bool) (g : α → β) : ∀ f : Formula α, (f.map g).eval p = f.eval (p ∘ g)
  | leaf c => by rw [map, eval, eval]; rfl
  | conj parts => by rw [map, eval, eval, evalAll_mapAll p g parts]
  | disj parts => by rw [map, eval, eval, evalAny_mapAll p g parts]

theorem evalAll_mapAll (p : β → Bool) (g : α → β) :
    ∀ parts : List (Formula α), evalAll p (mapAll g parts) = evalAll (p ∘ g) parts
  | [] => rfl
  | part :: rest => by rw [mapAll, evalAll, evalAll, eval_map p g part, evalAll_mapAll p g rest]

theorem evalAny_mapAll (p : β → Bool) (g : α → β) :
    ∀ parts : List (Formula α), evalAny p (mapAll g parts) = evalAny (p ∘ g) parts
  | [] => rfl
  | part :: rest => by rw [mapAll, evalAny, evalAny, eval_map p g part, evalAny_mapAll p g rest]

end

mutual

/-- The truth of a formula depends on its own conditions only. -/
theorem eval_congr {p q : α → Bool} : ∀ {f : Formula α}, (∀ c ∈ f.leaves, p c = q c) →
    f.eval p = f.eval q
  | leaf c, h => by
    rw [eval, eval]
    exact h c (by simp [leaves])
  | conj parts, h => by rw [eval, eval, evalAll_congr h]
  | disj parts, h => by rw [eval, eval, evalAny_congr h]

theorem evalAll_congr {p q : α → Bool} : ∀ {parts : List (Formula α)},
    (∀ c ∈ leavesOf parts, p c = q c) → evalAll p parts = evalAll q parts
  | [], _ => rfl
  | part :: rest, h => by
    simp only [leavesOf, List.mem_append] at h
    rw [evalAll, evalAll, eval_congr fun c hc => h c (Or.inl hc),
      evalAll_congr fun c hc => h c (Or.inr hc)]

theorem evalAny_congr {p q : α → Bool} : ∀ {parts : List (Formula α)},
    (∀ c ∈ leavesOf parts, p c = q c) → evalAny p parts = evalAny q parts
  | [], _ => rfl
  | part :: rest, h => by
    simp only [leavesOf, List.mem_append] at h
    rw [evalAny, evalAny, eval_congr fun c hc => h c (Or.inl hc),
      evalAny_congr fun c hc => h c (Or.inr hc)]

end

mutual

/-- The conditions of a formula with replaced conditions are the replacements. -/
theorem leaves_map (g : α → β) : ∀ f : Formula α, (f.map g).leaves = f.leaves.map g
  | leaf c => rfl
  | conj parts => by rw [map, leaves, leaves, leavesOf_mapAll g parts]
  | disj parts => by rw [map, leaves, leaves, leavesOf_mapAll g parts]

theorem leavesOf_mapAll (g : α → β) :
    ∀ parts : List (Formula α), leavesOf (mapAll g parts) = (leavesOf parts).map g
  | [] => rfl
  | part :: rest => by
    rw [mapAll, leavesOf, leavesOf, List.map_append, leaves_map g part, leavesOf_mapAll g rest]

end

end Formula

/-! ## Readings -/

/-- One condition of a filter as it is written: a field, an operator and an operand. -/
structure Requirement where
  field : String
  operator : Operator
  operand : Value

/-- The reading of a filter over the attributes of a model that keeps conditions as they are
written. -/
def plainReading (m : Model) : Reading Requirement where
  fieldType field :=
    match Entries.get? m.attributeTypes field with
    | some type => .ok (some type)
    | none => Outcome.filterError (.unknownField field (some m.name))
  condition field _ operator operand := .ok ⟨field, operator, operand⟩

namespace Reading

variable {α : Type} [Inhabited α]

/-- What a reading makes of a requirement on an attribute of a model. -/
def leafOf (reading : Reading α) (m : Model) (c : Requirement) : Outcome α :=
  reading.condition c.field (Entries.get? m.attributeTypes c.field) c.operator c.operand

/-- Whether a reading knows the fields of a model with their types. -/
def Knows (reading : Reading α) (m : Model) : Prop :=
  ∀ field type, Entries.get? m.attributeTypes field = some type →
    reading.fieldType field = .ok (some type)

/-- Whether a reading can read each of some requirements on a model. -/
def CanRead (reading : Reading α) (m : Model) (cs : List Requirement) : Prop :=
  ∀ c ∈ cs, reading.leafOf m c = .ok (reading.leafOf m c).get

variable {m : Model} {reading : Reading α}

/-- The conditions of one field are the requirements on it, each read. -/
theorem field_of_plain (hknows : reading.Knows m) {key : String} {value : Value}
    {lines lines' : List LogLine} {parts : List (Formula Requirement)}
    (h : runFrom ((plainReading m).field key value) lines = (.ok parts, lines'))
    (hread : reading.CanRead m (Formula.leavesOf parts)) :
    runFrom (reading.field key value) lines =
      (.ok (Formula.mapAll (fun c => (reading.leafOf m c).get) parts), lines') := by
  obtain ⟨type, s₁, htype, h⟩ := runFrom_bind_eq_ok.mp h
  rw [Reported.runFrom_ofOutcome, Prod.mk.injEq] at htype
  obtain ⟨htype, rfl⟩ := htype
  obtain ⟨t, hget, rfl⟩ : ∃ t, Entries.get? m.attributeTypes key = some t ∧ type = some t := by
    simp only [plainReading] at htype
    split at htype
    · exact ⟨_, ‹_›, (Except.ok.inj htype).symm⟩
    · cases htype
  obtain ⟨conditions, s₂, hconditions, h⟩ := runFrom_bind_eq_ok.mp h
  obtain ⟨hparts, rfl⟩ := Prod.mk.inj (h.symm.trans (runFrom_mapM fun c _ => rfl))
  have hparts : parts = (conditions.map fun c => (⟨key, c.1, c.2⟩ : Requirement)).map .leaf := by
    rw [Except.ok.inj hparts, List.map_map]
    rfl
  subst hparts
  rw [Formula.leavesOf_leaves] at hread
  have hfield : runFrom (Reported.ofOutcome (reading.fieldType key)) lines =
      (.ok (some t), lines) := by
    rw [Reported.runFrom_ofOutcome, hknows key t hget]
  rw [Reading.field, runFrom_bind_of_ok hfield, runFrom_bind_of_ok hconditions,
    runFrom_mapM (g := fun c => .leaf (reading.leafOf m ⟨key, c.1, c.2⟩).get), Formula.mapAll_leaves,
    List.map_map, List.map_map]
  · rfl
  · intro c hc
    have hleaf := hread _ (List.mem_map.mpr ⟨c, hc, rfl⟩)
    rw [leafOf, hget] at hleaf
    refine (runFrom_bind_of_ok ?_).trans (runFrom_pure _ _)
    rw [Reported.runFrom_ofOutcome]
    rw [hleaf, leafOf, hget]

/-- A group has the conditions of its members. -/
theorem leavesOf_grouped {β : Type} (connective : Connective) (parts : List (Formula β)) :
    Formula.leavesOf (connective.grouped parts) = Formula.leavesOf parts := by
  cases parts <;> cases connective <;>
    simp [Connective.grouped, Connective.combine, Formula.leavesOf, Formula.leaves]

/-- A group with replaced conditions is the group of its members with replaced conditions. -/
theorem mapAll_grouped {β γ : Type} (g : β → γ) (connective : Connective)
    (parts : List (Formula β)) :
    Formula.mapAll g (connective.grouped parts) = connective.grouped (Formula.mapAll g parts) := by
  cases parts <;> cases connective <;> rfl

/-- The parts that one key of a filter stands for. -/
def part {α : Type} (reading : Reading α) (key : String) (value : Value) :
    Reported (List (Formula α)) :=
  if key = transformKey then pure []
  else if key.startsWith "$" then group reading key value
  else reading.field key value

/-- A filter is read key by key. -/
theorem entries_cons {α : Type} (reading : Reading α) (key : String) (value : Value)
    (rest : List (String × Value)) :
    reading.entries ((key, value) :: rest) = (do
      let here ← reading.part key value
      return here ++ (← reading.entries rest)) := by
  rw [Reading.entries, part]
  split_ifs <;> rfl

/-- The parts under one key are the required parts, each read, if that is so for groups. -/
theorem part_of_plain (hknows : reading.Knows m) {key : String} {value : Value}
    {lines lines' : List LogLine} {parts : List (Formula Requirement)}
    (hgroup : runFrom ((plainReading m).group key value) lines = (.ok parts, lines') →
      runFrom (reading.group key value) lines =
        (.ok (Formula.mapAll (fun c => (reading.leafOf m c).get) parts), lines'))
    (h : runFrom ((plainReading m).part key value) lines = (.ok parts, lines'))
    (hread : reading.CanRead m (Formula.leavesOf parts)) :
    runFrom (reading.part key value) lines =
      (.ok (Formula.mapAll (fun c => (reading.leafOf m c).get) parts), lines') := by
  rw [part] at h ⊢
  split_ifs at h ⊢ with htransform hdollar
  · cases h
    rfl
  · exact hgroup h
  · exact field_of_plain hknows h hread

mutual

/-- The parts of a filter are the required parts, each read. -/
theorem entries_of_plain (hknows : reading.Knows m) : ∀ {es : List (String × Value)}
    {lines lines' : List LogLine} {parts : List (Formula Requirement)},
    runFrom ((plainReading m).entries es) lines = (.ok parts, lines') →
    reading.CanRead m (Formula.leavesOf parts) →
    runFrom (reading.entries es) lines =
      (.ok (Formula.mapAll (fun c => (reading.leafOf m c).get) parts), lines')
  | [], _, _, _, h, _ => by
    cases h
    rfl
  | (key, value) :: rest, lines, lines', parts, h, hread => by
    rw [entries_cons] at h ⊢
    obtain ⟨here, s₁, hhere, h⟩ := runFrom_bind_eq_ok.mp h
    obtain ⟨others, s₂, hothers, h⟩ := runFrom_bind_eq_ok.mp h
    cases h
    rw [Formula.leavesOf_append] at hread
    have hfirst : reading.CanRead m (Formula.leavesOf here) :=
      fun c hc => hread c (List.mem_append_left _ hc)
    have hlater : reading.CanRead m (Formula.leavesOf others) :=
      fun c hc => hread c (List.mem_append_right _ hc)
    have hgroup (h : runFrom ((plainReading m).group key value) lines = (.ok here, s₁)) :=
      group_of_plain hknows h hfirst
    rw [runFrom_bind_of_ok (part_of_plain hknows hgroup hhere hfirst),
      runFrom_bind_of_ok (entries_of_plain hknows hothers hlater), Formula.mapAll_append]
    rfl
termination_by structural es => es

/-- The part under a connective is the required part, read. -/
theorem group_of_plain (hknows : reading.Knows m) : ∀ {key : String} {value : Value}
    {lines lines' : List LogLine} {parts : List (Formula Requirement)},
    runFrom ((plainReading m).group key value) lines = (.ok parts, lines') →
    reading.CanRead m (Formula.leavesOf parts) →
    runFrom (reading.group key value) lines =
      (.ok (Formula.mapAll (fun c => (reading.leafOf m c).get) parts), lines')
  | key, value, lines, lines', parts, h, hread => by
    rw [Reading.group] at h ⊢
    split at h
    · obtain ⟨_, s₁, hwarn, h⟩ := runFrom_bind_eq_ok.mp h
      cases h
      exact (runFrom_bind_of_ok hwarn).trans rfl
    · next connective _ =>
      obtain ⟨_, s₁, hmembers, h⟩ := runFrom_bind_eq_ok.mp h
      simp only [runFrom_bind_of_ok hmembers]
      cases value with
      | map inner =>
        obtain ⟨here, s₂, hhere, h⟩ := runFrom_bind_eq_ok.mp h
        cases h
        have hinner : reading.CanRead m (Formula.leavesOf here) := by
          intro c hc
          refine hread c ?_
          cases connective <;> simpa [Connective.combine, Formula.leavesOf, Formula.leaves] using hc
        simp only [runFrom_bind_of_ok (entries_of_plain hknows hhere hinner)]
        cases connective <;> rfl
      | list items =>
        obtain ⟨here, s₂, hhere, h⟩ := runFrom_bind_eq_ok.mp h
        cases h
        have hitems : reading.CanRead m (Formula.leavesOf here) := fun c hc =>
          hread c (by rwa [leavesOf_grouped])
        simp only [runFrom_bind_of_ok (groups_of_plain hknows hhere hitems), mapAll_grouped]
        rfl
      | tuple items =>
        obtain ⟨here, s₂, hhere, h⟩ := runFrom_bind_eq_ok.mp h
        cases h
        have hitems : reading.CanRead m (Formula.leavesOf here) := fun c hc =>
          hread c (by rwa [leavesOf_grouped])
        simp only [runFrom_bind_of_ok (groups_of_plain hknows hhere hitems), mapAll_grouped]
        rfl
      | _ =>
        cases h
        rfl
termination_by structural _ value => value

/-- The formulas of several filters are the required formulas, each read. -/
theorem groups_of_plain (hknows : reading.Knows m) : ∀ {items : List Value}
    {lines lines' : List LogLine} {parts : List (Formula Requirement)},
    runFrom ((plainReading m).groups items) lines = (.ok parts, lines') →
    reading.CanRead m (Formula.leavesOf parts) →
    runFrom (reading.groups items) lines =
      (.ok (Formula.mapAll (fun c => (reading.leafOf m c).get) parts), lines')
  | [], _, _, _, h, _ => by
    cases h
    rfl
  | item :: rest, lines, lines', parts, h, hread => by
    cases item with
    | map inner =>
      rw [Reading.groups] at h ⊢
      obtain ⟨first, s₁, hfirst, h⟩ := runFrom_bind_eq_ok.mp h
      obtain ⟨others, s₂, hothers, h⟩ := runFrom_bind_eq_ok.mp h
      cases h
      have hhere : reading.CanRead m (Formula.leavesOf first) :=
        fun c hc => hread c (List.mem_append_left _ hc)
      have hlater : reading.CanRead m (Formula.leavesOf others) :=
        fun c hc => hread c (List.mem_append_right _ hc)
      rw [runFrom_bind_of_ok (entries_of_plain hknows hfirst hhere),
        runFrom_bind_of_ok (groups_of_plain hknows hothers hlater)]
      rfl
    | _ => exact @groups_of_plain hknows rest _ _ _ h hread
termination_by structural items => items

end

/-- Any reading of a filter is the formula of what the filter requires, with its leaves read. -/
theorem filter_of_plain (hknows : reading.Knows m) {where_ : Value} {lines lines' : List LogLine}
    {f : Formula Requirement}
    (h : runFrom ((plainReading m).filter where_) lines = (.ok f, lines'))
    (hread : reading.CanRead m f.leaves) :
    runFrom (reading.filter where_) lines =
      (.ok (f.map fun c => (reading.leafOf m c).get), lines') := by
  obtain ⟨stripped, s₁, hstripped, h⟩ := runFrom_bind_eq_ok.mp h
  obtain ⟨parts, s₂, hparts, h⟩ := runFrom_bind_eq_ok.mp h
  cases h
  rw [Reading.filter, runFrom_bind_of_ok hstripped,
    runFrom_bind_of_ok (entries_of_plain hknows hparts hread)]
  rfl

end Reading

end Filter

end TwinStore
