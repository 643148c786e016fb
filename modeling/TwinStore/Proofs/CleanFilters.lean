import TwinStore.Proofs.QuietFilters

/-!
# Conditions that count

A filter may carry what no reader knows: the key for other readers, other keys with a dollar sign,
operators that do not exist, and groups without members.  Readers report such parts or pass them over,
and read the rest as if they were not there.

Main definitions:

- `Reported.outcome`: the outcome of a reading.
- `Reported.IsSteady`: readings whose outcome does not depend on what was reported before.
- `clean`: a filter without the parts that nobody knows.

Main results:

- Theorem `outcome_entries_cons`: the outcome of a filter is read key by key.
- Theorem `outcome_filter_clean`: a filter is read as the formula of what is left of it, and refused for
  the same reason.
-/

namespace TwinStore.Filter

variable {α β : Type}

/-! ## Outcomes of readings -/

namespace Reported

/-- The outcome of a reading. -/
def outcome (x : Reported α) : Outcome α := x.run.2

/-- Whether the outcome of a reading does not depend on what was reported before. -/
def IsSteady (x : Reported α) : Prop := x.Ends (· = x.outcome)

theorem IsSteady.pure (a : α) : IsSteady (Pure.pure a) := fun _ => rfl

theorem IsSteady.ofOutcome (o : Outcome α) : IsSteady (Reported.ofOutcome o) := by
  intro lines
  rw [runFrom_ofOutcome]
  exact (congrArg Prod.fst (runFrom_ofOutcome o [])).symm

@[simp]
theorem outcome_pure (a : α) : outcome (pure a) = .ok a := rfl

@[simp]
theorem outcome_ofOutcome (o : Outcome α) : outcome (ofOutcome o) = o :=
  congrArg Prod.fst (runFrom_ofOutcome o [])

/-- What follows a reading starts from the result alone, if it is steady. -/
theorem outcome_bind (x : Reported α) {f : α → Reported β} (hf : ∀ a, IsSteady (f a)) :
    outcome (x >>= f) = x.outcome >>= fun a => (f a).outcome := by
  show (runFrom (x >>= f) []).1 = (runFrom x []).1 >>= _
  rw [runFrom_bind]
  split
  · next a lines hrun =>
    rw [hrun]
    exact hf a lines
  · next fault lines hrun =>
    rw [hrun]
    rfl

theorem outcome_ofOutcome_bind (o : Outcome α) {f : α → Reported β} (hf : ∀ a, IsSteady (f a)) :
    outcome (ofOutcome o >>= f) = o >>= fun a => (f a).outcome := by
  rw [outcome_bind _ hf, outcome_ofOutcome]

theorem IsSteady.bind {x : Reported α} {f : α → Reported β} (hx : IsSteady x)
    (hf : ∀ a, IsSteady (f a)) : IsSteady (x >>= f) := by
  have hends : (x >>= f).Ends (· = x.outcome >>= fun a => (f a).outcome) := by
    refine Ends.bind hx (fun a ha => ?_) fun fault hfault => ?_
    · rw [← ha]
      exact hf a
    · rw [← hfault]
      rfl
  rw [IsSteady, outcome_bind x hf]
  exact hends

/-- Steady readings of a list one after another. -/
theorem IsSteady.mapM {f : α → Reported β} (hf : ∀ a, IsSteady (f a)) :
    ∀ as : List α, IsSteady (as.mapM f)
  | [] => by
    rw [List.mapM_nil]
    exact IsSteady.pure _
  | a :: as => by
    rw [List.mapM_cons]
    exact (hf a).bind fun b => (IsSteady.mapM hf as).bind fun bs => IsSteady.pure _

theorem outcome_mapM {f : α → Reported β} (hf : ∀ a, IsSteady (f a)) :
    ∀ as : List α, outcome (as.mapM f) = as.mapM fun a => (f a).outcome
  | [] => rfl
  | a :: as => by
    have hlater (b : β) : IsSteady (do
        let bs ← as.mapM f
        Pure.pure (b :: bs)) := (IsSteady.mapM hf as).bind fun _ => IsSteady.pure _
    rw [List.mapM_cons, outcome_bind _ hlater, Outcome.mapM_cons]
    refine bind_congr fun b => ?_
    rw [outcome_bind _ fun _ => IsSteady.pure _, outcome_mapM hf as]
    rfl

end Reported

open Reported

/-! ## Outcomes of filters -/

/-- The conditions of a field are those that it mentions. -/
theorem conditionsOn_gives (field : String) (value : Value) : (conditionsOn field value).Ends
    (· = .ok ((conditionsIn field value).map fun c => (c.operator, c.operand))) := by
  refine (Reading.conditionsOn_ends field value).weaken ?_
  rintro _ ⟨cs, rfl, hcs⟩
  rw [← hcs, List.map_map]
  exact congrArg Except.ok (List.map_id cs).symm

/-- The items in which a group may hold filters: one filter, or those of a list. -/
def nestedIn : Value → List Value
  | .map entries => [.map entries]
  | .list items => items
  | .tuple items => items
  | _ => []

/-- The entries of a member of a group, which has to be a filter. -/
def filterIn (key : String) : Value → Outcome (List (String × Value))
  | .map entries => .ok entries
  | _ => Outcome.filterError (.malformedGroup key)

/-- The members of a list of filters. -/
theorem groupMembers_list (key : String) (items : List Value) :
    groupMembers key (.list items) = items.mapM (filterIn key) :=
  congrArg (items.mapM ·) (funext fun item => by cases item <;> rfl)

theorem groupMembers_tuple (key : String) (items : List Value) :
    groupMembers key (.tuple items) = items.mapM (filterIn key) :=
  groupMembers_list key items

namespace Reading

variable (reading : Reading α)

/-- The leaf that a condition on a field of some type is read as. -/
def leafFor (key : String) (type : Option AttributeType) (c : Requirement) : Outcome (Formula α) := do
  return .leaf (← reading.condition key type c.operator c.operand)

/-- Reading the leaves of a field is steady. -/
theorem isSteady_leaf (key : String) (type : Option AttributeType) (c : Operator × Value) :
    IsSteady (do return Formula.leaf (← ofOutcome (reading.condition key type c.1 c.2))) :=
  (IsSteady.ofOutcome _).bind fun _ => IsSteady.pure _

theorem isSteady_conditionsOn (key : String) (value : Value) : IsSteady (conditionsOn key value) := by
  intro lines
  rw [conditionsOn_gives key value lines]
  exact (conditionsOn_gives key value []).symm

/-- A field is read condition by condition; it has to be known even if there are none. -/
theorem outcome_field (key : String) (value : Value) :
    (reading.field key value).outcome =
      reading.fieldType key >>= fun type => (conditionsIn key value).mapM (reading.leafFor key type) := by
  have hconditions : (conditionsOn key value).outcome = _ := conditionsOn_gives key value []
  have hleaves (type : Option AttributeType) (cs : List (Operator × Value)) :=
    IsSteady.mapM (reading.isSteady_leaf key type) cs
  rw [field, outcome_ofOutcome_bind _ fun type => (isSteady_conditionsOn key value).bind (hleaves type)]
  refine bind_congr fun type => ?_
  rw [outcome_bind _ (hleaves type), hconditions, Outcome.ok_bind,
    outcome_mapM (reading.isSteady_leaf key type), List.mapM_map]
  refine congrArg (List.mapM · _) (funext fun c => ?_)
  exact outcome_ofOutcome_bind _ fun _ => IsSteady.pure _

theorem isSteady_field (key : String) (value : Value) : IsSteady (reading.field key value) :=
  (IsSteady.ofOutcome _).bind fun type => (isSteady_conditionsOn key value).bind fun cs =>
    IsSteady.mapM (reading.isSteady_leaf key type) cs

mutual

/-- The reading of a filter is steady. -/
theorem isSteady_entries : ∀ es : List (String × Value), IsSteady (reading.entries es)
  | [] => IsSteady.pure []
  | (key, value) :: rest => by
    rw [entries_cons, part]
    split_ifs
    · exact (IsSteady.pure []).bind fun _ => (isSteady_entries rest).bind fun _ => IsSteady.pure _
    · exact (isSteady_group key value).bind fun _ => (isSteady_entries rest).bind fun _ => IsSteady.pure _
    · exact (reading.isSteady_field key value).bind fun _ =>
        (isSteady_entries rest).bind fun _ => IsSteady.pure _
termination_by structural es => es

theorem isSteady_group : ∀ (key : String) (value : Value), IsSteady (reading.group key value)
  | key, value => by
    rw [Reading.group]
    split
    · exact IsSteady.bind (fun _ => rfl) fun _ => IsSteady.pure _
    · refine (IsSteady.ofOutcome _).bind fun _ => ?_
      cases value with
      | map inner => exact (isSteady_entries inner).bind fun _ => IsSteady.pure _
      | list items => exact (isSteady_groups items).bind fun _ => IsSteady.pure _
      | tuple items => exact (isSteady_groups items).bind fun _ => IsSteady.pure _
      | _ => exact IsSteady.pure _
termination_by structural _ value => value

theorem isSteady_groups : ∀ items : List Value, IsSteady (reading.groups items)
  | [] => IsSteady.pure []
  | item :: rest => by
    cases item with
    | map inner =>
      rw [Reading.groups]
      exact (isSteady_entries inner).bind fun _ => (isSteady_groups rest).bind fun _ => IsSteady.pure _
    | _ => exact isSteady_groups rest
termination_by structural items => items

end

/-- A filter is read key by key. -/
theorem outcome_entries_cons (key : String) (value : Value) (rest : List (String × Value)) :
    (reading.entries ((key, value) :: rest)).outcome = (do
      let here ← (reading.part key value).outcome
      let others ← (reading.entries rest).outcome
      .ok (here ++ others)) := by
  rw [entries_cons, outcome_bind _ fun _ => (reading.isSteady_entries rest).bind fun _ => IsSteady.pure _]
  refine bind_congr fun here => ?_
  rw [outcome_bind _ fun _ => IsSteady.pure _]
  rfl

/-- The filters of a list are read one by one. -/
theorem outcome_groups_cons (inner : List (String × Value)) (rest : List Value) :
    (reading.groups (.map inner :: rest)).outcome = (do
      let first ← (reading.entries inner).outcome
      let others ← (reading.groups rest).outcome
      .ok (.conj first :: others)) := by
  rw [Reading.groups,
    outcome_bind _ fun _ => (reading.isSteady_groups rest).bind fun _ => IsSteady.pure _]
  refine bind_congr fun here => ?_
  rw [outcome_bind _ fun _ => IsSteady.pure _]
  rfl

/-- A key with a dollar sign that is no connective says nothing. -/
theorem outcome_group_of_unknown {key : String} (h : Connective.ofKey? key = none) (value : Value) :
    (reading.group key value).outcome = .ok [] := by
  rw [Reading.group, h]
  rfl

/-- A group is read filter by filter, if it is well formed. -/
theorem outcome_group {key : String} {connective : Connective}
    (h : Connective.ofKey? key = some connective) (value : Value) :
    (reading.group key value).outcome = (do
      let _ ← groupMembers key value
      let parts ← (reading.groups (nestedIn value)).outcome
      .ok (connective.grouped parts)) := by
  rw [Reading.group, h]
  cases value with
  | map inner =>
    refine (outcome_ofOutcome_bind _ fun _ =>
      (reading.isSteady_entries inner).bind fun _ => IsSteady.pure _).trans (bind_congr fun _ => ?_)
    rw [outcome_bind _ fun _ => IsSteady.pure _, nestedIn, outcome_groups_cons, bind_assoc]
    refine bind_congr fun first => ?_
    cases connective <;> rfl
  | list items =>
    exact (outcome_ofOutcome_bind _ fun _ =>
      (reading.isSteady_groups items).bind fun _ => IsSteady.pure _).trans
        (bind_congr fun _ => outcome_bind _ fun _ => IsSteady.pure _)
  | tuple items =>
    exact (outcome_ofOutcome_bind _ fun _ =>
      (reading.isSteady_groups items).bind fun _ => IsSteady.pure _).trans
        (bind_congr fun _ => outcome_bind _ fun _ => IsSteady.pure _)
  | _ => exact outcome_ofOutcome_bind _ fun _ => IsSteady.pure _

/-- The key for other readers says nothing. -/
theorem outcome_entries_erase (es : List (String × Value)) :
    (reading.entries (Entries.erase es transformKey)).outcome = (reading.entries es).outcome := by
  induction es with
  | nil => rfl
  | cons e es ih =>
    obtain ⟨key, value⟩ := e
    rw [Entries.erase, List.filter_cons, outcome_entries_cons]
    split_ifs with hkey
    · rw [outcome_entries_cons]
      exact bind_congr fun here => congrArg (· >>= _) ih
    · obtain rfl : key = transformKey := by simpa using hkey
      rw [part, if_pos rfl]
      show (reading.entries (Entries.erase es transformKey)).outcome = _
      rw [ih]
      exact (bind_pure _).symm

/-- A filter is the conjunction of its parts. -/
theorem outcome_filter_map (es : List (String × Value)) :
    (reading.filter (.map es)).outcome = (reading.entries es).outcome.map .conj := by
  rw [filter, outcome_ofOutcome_bind _ fun _ => (reading.isSteady_entries _).bind fun _ => IsSteady.pure _,
    withoutTransform, Outcome.ok_bind, outcome_bind _ fun _ => IsSteady.pure _, outcome_entries_erase]
  cases (reading.entries es).outcome <;> rfl

end Reading

/-- What is made of a filter is made of its formula. -/
theorem outcome_map_filter (reading : Reading α) (where_ : Value) (g : Formula α → β) :
    (do return g (← reading.filter where_) : Reported β).outcome =
      (reading.filter where_).outcome.map g := by
  rw [outcome_bind _ fun _ => IsSteady.pure _]
  cases (reading.filter where_).outcome <;> rfl

/-! ## Clean filters -/

/-- Whether a group has no members. -/
def isEmptyGroup : Value → Bool
  | .list items => items.isEmpty
  | .tuple items => items.isEmpty
  | _ => false

/-- The operators of a field that exist; a plain value is an operand. -/
def knownOperators : Value → Value
  | .map operators => .map (operators.filter fun e => (Operator.ofKey? e.1).isSome)
  | v => v

mutual

/-- A filter, or a group of filters, without the parts that nobody knows. -/
def clean : Value → Value
  | .map entries => .map (cleanEntries entries)
  | .list items => .list (cleanAll items)
  | .tuple items => .tuple (cleanAll items)
  | v => v

/-- The entries of a filter that count, at all levels: keys with a dollar sign only if they are
connectives with members, and all other keys with the operators that exist. -/
def cleanEntries : List (String × Value) → List (String × Value)
  | [] => []
  | (key, value) :: rest =>
    if key.startsWith "$" then
      if (Connective.ofKey? key).isSome && !isEmptyGroup value then
        (key, clean value) :: cleanEntries rest
      else cleanEntries rest
    else (key, knownOperators value) :: cleanEntries rest

/-- The clean filters of a list. -/
def cleanAll : List Value → List Value
  | [] => []
  | v :: rest => clean v :: cleanAll rest

end

/-- Operators that do not exist ask for nothing. -/
theorem conditionsIn_knownOperators (key : String) (value : Value) :
    conditionsIn key (knownOperators value) = conditionsIn key value := by
  cases value with
  | map operators =>
    show List.filterMap _ (List.filter _ operators) = List.filterMap _ operators
    rw [List.filterMap_filter]
    refine List.filterMap_congr fun e _ => ?_
    cases h : Operator.ofKey? e.1 <;> simp [h]
  | _ => rfl

theorem nestedIn_clean (value : Value) : nestedIn (clean value) = cleanAll (nestedIn value) := by
  cases value <;> rfl

/-- Cleaning does not change which members are filters. -/
theorem mapM_filterIn_cleanAll (key : String) (items : List Value) :
    (cleanAll items).mapM (filterIn key) = (items.mapM (filterIn key)).map (·.map cleanEntries) := by
  induction items with
  | nil => rfl
  | cons item items ih =>
    rw [cleanAll, Outcome.mapM_cons, Outcome.mapM_cons, ih]
    cases item with
    | map inner =>
      rw [clean, filterIn, filterIn, Outcome.ok_bind, Outcome.ok_bind]
      cases items.mapM (filterIn key) <;> rfl
    | _ => rfl

/-- Cleaning does not change which groups are well formed. -/
theorem groupMembers_clean (key : String) (value : Value) :
    groupMembers key (clean value) = (groupMembers key value).map (·.map cleanEntries) := by
  cases value with
  | list items => rw [clean, groupMembers_list, groupMembers_list, mapM_filterIn_cleanAll]
  | tuple items => rw [clean, groupMembers_tuple, groupMembers_tuple, mapM_filterIn_cleanAll]
  | _ => rfl

namespace Reading

variable (reading : Reading α)

/-- A group that is no connective with members says nothing. -/
theorem outcome_part_of_idle {key : String} (hdollar : key.startsWith "$" = true) {value : Value}
    (h : ¬ ((Connective.ofKey? key).isSome && !isEmptyGroup value) = true) :
    (reading.part key value).outcome = .ok [] := by
  rw [part]
  split_ifs with htransform
  · rfl
  · cases hkey : Connective.ofKey? key with
    | none => exact reading.outcome_group_of_unknown hkey value
    | some connective =>
      rw [outcome_group reading hkey]
      rw [hkey] at h
      cases value with
      | list items =>
        cases items with
        | nil => rfl
        | cons item items => exact absurd rfl h
      | tuple items =>
        cases items with
        | nil => rfl
        | cons item items => exact absurd rfl h
      | _ => exact absurd rfl h

/-- A connective is read as the group under it. -/
theorem part_of_connective {key : String} (hdollar : key.startsWith "$" = true)
    (h : (Connective.ofKey? key).isSome = true) (value : Value) :
    reading.part key value = reading.group key value := by
  rw [part, if_neg, if_pos hdollar]
  rintro rfl
  cases h

/-- Any other key is read as a field. -/
theorem part_of_field {key : String} (h : ¬ key.startsWith "$" = true) (value : Value) :
    reading.part key value = reading.field key value := by
  rw [part, if_neg, if_neg h]
  rintro rfl
  exact h (String.startsWith_string_iff.mpr ⟨"transform".toList, by decide⟩)

mutual

/-- What is left of the entries of a filter is read like all of them. -/
theorem outcome_entries_clean : ∀ es : List (String × Value),
    (reading.entries (cleanEntries es)).outcome = (reading.entries es).outcome
  | [] => rfl
  | (key, value) :: rest => by
    rw [cleanEntries, outcome_entries_cons]
    split_ifs with hdollar hcounts
    · obtain ⟨hkey, -⟩ := Bool.and_eq_true_iff.mp hcounts
      rw [outcome_entries_cons, outcome_entries_clean rest, reading.part_of_connective hdollar hkey,
        reading.part_of_connective hdollar hkey, outcome_group_clean key value]
    · rw [reading.outcome_part_of_idle hdollar hcounts, outcome_entries_clean rest]
      exact (bind_pure _).symm
    · rw [outcome_entries_cons, outcome_entries_clean rest, reading.part_of_field hdollar,
        reading.part_of_field hdollar, outcome_field, outcome_field, conditionsIn_knownOperators]
termination_by structural es => es

/-- What is left of a group is read like the group. -/
theorem outcome_group_clean : ∀ (key : String) (value : Value),
    (reading.group key (clean value)).outcome = (reading.group key value).outcome
  | key, value => by
    have hmembers (next : Outcome (List (Formula α))) :
        (groupMembers key (clean value) >>= fun _ => next) = groupMembers key value >>= fun _ => next := by
      rw [groupMembers_clean]
      cases groupMembers key value <;> rfl
    cases hkey : Connective.ofKey? key with
    | none => rw [reading.outcome_group_of_unknown hkey, reading.outcome_group_of_unknown hkey]
    | some connective =>
      rw [outcome_group reading hkey, outcome_group reading hkey, hmembers, nestedIn_clean]
      cases value with
      | map inner =>
        rw [nestedIn, cleanAll, clean, outcome_groups_cons, outcome_groups_cons, outcome_entries_clean inner]
        rfl
      | list items => rw [nestedIn, outcome_groups_clean items]
      | tuple items => rw [nestedIn, outcome_groups_clean items]
      | _ => rfl
termination_by structural _ value => value

theorem outcome_groups_clean : ∀ items : List Value,
    (reading.groups (cleanAll items)).outcome = (reading.groups items).outcome
  | [] => rfl
  | item :: rest => by
    rw [cleanAll]
    cases item with
    | map inner =>
      rw [clean, outcome_groups_cons, outcome_groups_cons, outcome_entries_clean inner,
        outcome_groups_clean rest]
    | _ => exact outcome_groups_clean rest
termination_by structural items => items

end

/-- A filter is read as what is left of it: as the same formula, or refused for the same reason. -/
theorem outcome_filter_clean (where_ : Value) :
    (reading.filter (clean where_)).outcome = (reading.filter where_).outcome := by
  cases where_ with
  | map entries => rw [clean, outcome_filter_map, outcome_filter_map, outcome_entries_clean]
  | list items => cases items <;> rfl
  | tuple items => cases items <;> rfl
  | _ => rfl

end Reading

end TwinStore.Filter
