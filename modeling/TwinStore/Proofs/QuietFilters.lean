import TwinStore.Filter.Predicate
import TwinStore.Proofs.Entries
import TwinStore.Proofs.Outcome
import TwinStore.Proofs.Requirement

/-!
# Filters that can be tested

The reading of a filter fails where a field or an operand cannot be read, and its test on a record
where a signalling number takes part in an equality.  What a filter mentions decides both.

Main definitions:

- `Value.IsQuiet`: values that hold no signalling number.
- `Reported.Ends`: what holds of the outcome of a reading.
- `mentions`: the conditions of a filter at all levels, whether or not their fields are known.
- `Predicate.IsSure`: predicates that answer for a record.

Main results:

- Theorem `Value.exists_equal?`: quiet values can be compared for equality.
- Theorem `Reading.filter_ends`: a filter is read as well as what it mentions.
- Theorem `isSure_ofFilter`: a filter that mentions quiet operands only answers for every record whose
  fields can be compared.
-/

namespace TwinStore

open Number

/-! ## Quiet values -/

namespace Value

mutual

/-- Whether a value holds no signalling number. -/
def IsQuiet : Value → Prop
  | decimal d => d.isSignaling = false
  | list items => AreQuiet items
  | tuple items => AreQuiet items
  | map entries => HoldQuiet entries
  | _ => True

/-- Whether some items hold no signalling number. -/
def AreQuiet : List Value → Prop
  | [] => True
  | item :: rest => IsQuiet item ∧ AreQuiet rest

/-- Whether the values of some entries hold no signalling number. -/
def HoldQuiet : List (String × Value) → Prop
  | [] => True
  | (_, v) :: rest => IsQuiet v ∧ HoldQuiet rest

end

theorem areQuiet_iff {vs : List Value} : AreQuiet vs ↔ ∀ v ∈ vs, v.IsQuiet := by
  induction vs with
  | nil => exact ⟨nofun, fun _ => trivial⟩
  | cons v vs ih => rw [AreQuiet, ih, List.forall_mem_cons]

theorem holdQuiet_iff {es : Entries Value} : HoldQuiet es ↔ ∀ e ∈ es, e.2.IsQuiet := by
  induction es with
  | nil => exact ⟨nofun, fun _ => trivial⟩
  | cons e es ih => rw [HoldQuiet, ih, List.forall_mem_cons]

/-- The number of a quiet value is not signalling. -/
theorem isSignaling_number? {v : Value} {d : Decimal} (hv : v.IsQuiet) (h : v.number? = some d) :
    d.isSignaling = false := by
  cases v with
  | bool b => obtain rfl := Option.some.inj h; rfl
  | int n => obtain rfl := Option.some.inj h; rfl
  | float x =>
    obtain rfl := Option.some.inj h
    unfold Decimal.ofFloat
    split
    · unfold Decimal.ofScaled
      split <;> rfl
    · split_ifs <;> rfl
  | decimal d => obtain rfl := Option.some.inj h; exact hv
  | _ => cases h

/-- Quiet values that hold no others can be compared for equality. -/
theorem exists_equalAtoms? {v w : Value} (hv : v.IsQuiet) (hw : w.IsQuiet) :
    ∃ b, equalAtoms? v w = some b := by
  unfold equalAtoms?
  split
  · next x y hx hy =>
    rw [equalNumbers?, isSignaling_number? hv hx, isSignaling_number? hw hy]
    exact ⟨_, rfl⟩
  · exact ⟨_, rfl⟩

mutual

/-- Quiet values can be compared for equality. -/
theorem exists_equal? : ∀ {v w : Value}, v.IsQuiet → w.IsQuiet → ∃ b, equal? v w = some b
  | v, w, hv, hw => by
    cases v with
    | list xs =>
      cases w with
      | list ys =>
        rw [equal?]
        split_ifs
        · exact ⟨_, rfl⟩
        · exact exists_equalItems? hv hw
      | _ => exact exists_equalAtoms? hv hw
    | tuple xs =>
      cases w with
      | tuple ys => exact exists_equalItems? hv hw
      | _ => exact exists_equalAtoms? hv hw
    | map xs =>
      cases w with
      | map ys =>
        rw [equal?]
        split_ifs
        · exact ⟨_, rfl⟩
        · exact exists_equalEntries? hv hw
      | _ => exact exists_equalAtoms? hv hw
    | _ => exact exists_equalAtoms? hv hw
termination_by structural v => v

theorem exists_equalItems? : ∀ {xs ys : List Value}, AreQuiet xs → AreQuiet ys →
    ∃ b, equalItems? xs ys = some b
  | [], [], _, _ => ⟨true, rfl⟩
  | [], _ :: _, _, _ => ⟨false, rfl⟩
  | _ :: _, [], _, _ => ⟨false, rfl⟩
  | x :: xs, y :: ys, hxs, hys => by
    obtain ⟨b, hb⟩ := exists_equal? hxs.1 hys.1
    rw [equalItems?, hb]
    cases b with
    | true => exact exists_equalItems? hxs.2 hys.2
    | false => exact ⟨false, rfl⟩

theorem exists_equalEntries? : ∀ {xs ys : List (String × Value)}, HoldQuiet xs → HoldQuiet ys →
    ∃ b, equalEntries? xs ys = some b
  | [], _, _, _ => ⟨true, rfl⟩
  | (k, v) :: rest, ys, hxs, hys => by
    rw [equalEntries?]
    cases hget : Entries.get? ys k with
    | none => exact ⟨false, rfl⟩
    | some w =>
      obtain ⟨b, hb⟩ := exists_equal? hxs.1 (holdQuiet_iff.mp hys _ (Entries.mem_of_get? hget))
      show ∃ b, (match equal? v w with
        | some true => equalEntries? rest ys
        | answer => answer) = some b
      rw [hb]
      cases b with
      | true => exact exists_equalEntries? hxs.2 hys
      | false => exact ⟨false, rfl⟩

end

/-- A quiet value is found among quiet ones or not. -/
theorem exists_isMember? {v : Value} {vs : List Value} (hv : v.IsQuiet) (hvs : ∀ w ∈ vs, w.IsQuiet) :
    ∃ b, v.isMember? vs = some b := by
  induction vs with
  | nil => exact ⟨false, rfl⟩
  | cons w vs ih =>
    obtain ⟨b, hb⟩ := exists_equal? hv (hvs w List.mem_cons_self)
    rw [isMember?, hb]
    cases b with
    | true => exact ⟨true, rfl⟩
    | false => exact ih fun u hu => hvs u (List.mem_cons_of_mem w hu)

end Value

namespace Filter

/-- An operator answers for quiet values. -/
theorem Operator.exists_holds {op : Operator} {v w : Value} (hv : v.IsQuiet) (hw : w.IsQuiet) :
    ∃ b, op.holds v w = .ok b := by
  have hcandidates : ∀ u ∈ candidates w, u.IsQuiet := by
    cases w with
    | list items => exact Value.areQuiet_iff.mp hw
    | tuple items => exact Value.areQuiet_iff.mp hw
    | _ => exact List.forall_mem_singleton.mpr hw
  unfold holds
  obtain ⟨b, hb⟩ := Value.exists_equal? hv hw
  obtain ⟨c, hc⟩ := Value.exists_isMember? hv hcandidates
  cases op <;> simp only [hb, hc, decided]
  all_goals (repeat' split) <;> exact ⟨_, rfl⟩

/-! ## Readings -/

/-- Whether a condition holds of the outcome of a reading, whatever was reported before. -/
def Reported.Ends {α : Type} (x : Reported α) (Q : Outcome α → Prop) : Prop :=
  ∀ lines, Q (runFrom x lines).1

namespace Reported.Ends

variable {α β : Type} {x : Reported α} {f : α → Reported β} {Q : Outcome α → Prop}
  {T : Outcome β → Prop}

theorem pure {a : α} (h : Q (.ok a)) : Ends (Pure.pure a) Q := fun _ => h

theorem ofOutcome {o : Outcome α} (h : Q o) : Ends (Reported.ofOutcome o) Q := by
  intro lines
  rwa [runFrom_ofOutcome]

theorem weaken {R : Outcome α → Prop} (hx : Ends x R) (h : ∀ o, R o → Q o) : Ends x Q :=
  fun lines => h _ (hx lines)

theorem bind (hx : Ends x Q) (hf : ∀ a, Q (.ok a) → Ends (f a) T)
    (hfails : ∀ fault, Q (.error fault) → T (.error fault)) : Ends (x >>= f) T := by
  intro lines
  have hfirst := hx lines
  rw [runFrom_bind]
  split
  · next a lines' hrun =>
    rw [hrun] at hfirst
    exact hf a hfirst lines'
  · next fault lines' hrun =>
    rw [hrun] at hfirst
    exact hfails fault hfirst

end Reported.Ends

/-- Whether an outcome is a result that satisfies a condition, or a fault that satisfies another. -/
def Either {α : Type} (L : α → Prop) (E : Fault → Prop) : Outcome α → Prop
  | .ok a => L a
  | .error fault => E fault

namespace Either

variable {α β : Type} {L : α → Prop} {M : β → Prop} {E : Fault → Prop} {o : Outcome α}

theorem imp {L' : α → Prop} {E' : Fault → Prop} (h : Either L E o) (hL : ∀ a, L a → L' a)
    (hE : ∀ fault, E fault → E' fault) : Either L' E' o := by
  cases o with
  | ok a => exact hL a h
  | error fault => exact hE fault h

theorem with_eq (h : Either L E o) : Either (fun a => L a ∧ o = .ok a) E o := by
  cases o with
  | ok a => exact ⟨h, rfl⟩
  | error fault => exact h

/-- A sequence ends well if its first part does, and its second part after each result of the
first. -/
theorem bind {f : α → Outcome β} (h : Either L E o) (hf : ∀ a, L a → Either M E (f a)) :
    Either M E (o >>= f) := by
  cases o with
  | ok a => exact hf a h
  | error fault => exact h

theorem map {f : α → β} (h : Either (fun a => M (f a)) E o) : Either M E (o.map f) := by
  cases o with
  | ok a => exact h
  | error fault => exact h

/-- The results of a list, one after another. -/
theorem mapM {f : α → Outcome β} {as : List α} (h : ∀ a ∈ as, Either M E (f a)) :
    Either (fun bs => ∀ b ∈ bs, M b) E (as.mapM f) := by
  induction as with
  | nil => exact List.forall_mem_nil _
  | cons a as ih =>
    rw [Outcome.mapM_cons]
    apply (h a List.mem_cons_self).bind
    intro b hb
    apply (ih fun a' ha' => h a' (List.mem_cons_of_mem a ha')).bind
    intro bs hbs
    exact List.forall_mem_cons.mpr ⟨hb, hbs⟩

end Either

/-- Items are read one by one, up to the first failure. -/
theorem Reported.Ends.mapM {α β : Type} {f : α → Reported β} {L : β → Prop} {E : Fault → Prop}
    {as : List α} (h : ∀ a ∈ as, (f a).Ends (Either L E)) :
    (as.mapM f).Ends (Either (fun bs => ∀ b ∈ bs, L b) E) := by
  induction as with
  | nil => exact Ends.pure nofun
  | cons a as ih =>
    rw [List.mapM_cons]
    refine Ends.bind (h a List.mem_cons_self) (fun b hb => ?_) fun _ => id
    refine Ends.bind (ih fun a' ha' => h a' (List.mem_cons_of_mem a ha')) (fun bs hbs => ?_) fun _ => id
    exact Ends.pure (List.forall_mem_cons.mpr ⟨hb, hbs⟩)

/-- The conditions on one field that a filter mentions. -/
def conditionsIn (field : String) (value : Value) : List Requirement :=
  match value with
  | .map entries => entries.filterMap fun (key, operand) =>
    (Operator.ofKey? key).map fun op => ⟨field, op, if op.takesList then operandList operand else operand⟩
  | value => [⟨field, .eq, value⟩]

mutual

/-- The conditions that the entries of a filter mention, at all levels. -/
def mentionedBy : List (String × Value) → List Requirement
  | [] => []
  | (key, value) :: rest =>
    (if key = transformKey then []
      else if key.startsWith "$" then mentionedUnder value
      else conditionsIn key value) ++ mentionedBy rest

/-- The conditions that a nested filter or several mention. -/
def mentionedUnder : Value → List Requirement
  | .map inner => mentionedBy inner
  | .list items => mentionedAmong items
  | .tuple items => mentionedAmong items
  | _ => []

/-- The conditions that some filters mention. -/
def mentionedAmong : List Value → List Requirement
  | [] => []
  | .map inner :: rest => mentionedBy inner ++ mentionedAmong rest
  | _ :: rest => mentionedAmong rest

end

/-- The conditions that a filter mentions, at all levels. -/
def mentions : Value → List Requirement
  | .map entries => mentionedBy entries
  | _ => []

namespace Reading

variable {α : Type} {reading : Reading α} {L : α → Prop} {E : Fault → Prop}

/-- What a reading makes of a condition, if it knows the field. -/
def leaf (reading : Reading α) (c : Requirement) : Outcome α := do
  reading.condition c.field (← reading.fieldType c.field) c.operator c.operand

/-- Whether a reading makes leaves of one kind of some conditions, or fails in one way. -/
def Reads (reading : Reading α) (L : α → Prop) (E : Fault → Prop) (cs : List Requirement) : Prop :=
  ∀ c ∈ cs, Either L E (reading.leaf c)

theorem Reads.append {cs cs' : List Requirement} :
    reading.Reads L E (cs ++ cs') ↔ reading.Reads L E cs ∧ reading.Reads L E cs' :=
  List.forall_mem_append

/-- The conditions of a field are those that it mentions. -/
theorem conditionsOn_ends (field : String) (value : Value) : (conditionsOn field value).Ends fun o =>
    ∃ cs, o = .ok cs ∧ (cs.map fun c => (⟨field, c.1, c.2⟩ : Requirement)) = conditionsIn field value := by
  cases value with
  | map entries =>
    refine Reported.Ends.bind (Q := fun o => ∃ css : List (List (Operator × Value)), o = .ok css ∧
      (css.flatten.map fun c => (⟨field, c.1, c.2⟩ : Requirement)) =
        conditionsIn field (.map entries)) ?_ ?_ ?_
    · induction entries with
      | nil => exact Reported.Ends.pure ⟨[], rfl, rfl⟩
      | cons e entries ih =>
        obtain ⟨key, operand⟩ := e
        rw [List.mapM_cons]
        refine Reported.Ends.bind (Q := fun o => ∃ cs : List (Operator × Value), o = .ok cs ∧
          (cs.map fun c => (⟨field, c.1, c.2⟩ : Requirement)) ++ conditionsIn field (.map entries) =
            conditionsIn field (.map ((key, operand) :: entries))) ?_ ?_ nofun
        · simp only [conditionsIn, List.filterMap_cons]
          cases Operator.ofKey? key with
          | some op => exact Reported.Ends.pure ⟨[(op, _)], rfl, rfl⟩
          | none => exact fun lines => ⟨[], rfl, rfl⟩
        · rintro _ ⟨cs, heq, hcs⟩
          obtain rfl := Except.ok.inj heq
          refine Reported.Ends.bind ih ?_ nofun
          rintro _ ⟨css, heq, hcss⟩
          obtain rfl := Except.ok.inj heq
          refine Reported.Ends.pure ⟨_, rfl, ?_⟩
          rw [List.flatten_cons, List.map_append, hcss, hcs]
    · rintro _ ⟨css, heq, hcss⟩
      obtain rfl := Except.ok.inj heq
      exact Reported.Ends.pure ⟨_, rfl, hcss⟩
    · nofun
  | _ => exact Reported.Ends.pure ⟨_, rfl, rfl⟩

/-- One field is read as well as its conditions. -/
theorem field_ends (hfields : ∀ field fault, reading.fieldType field = .error fault → E fault)
    {key : String} {value : Value} (h : reading.Reads L E (conditionsIn key value)) :
    (reading.field key value).Ends (Either (fun parts => ∀ a ∈ Formula.leavesOf parts, L a) E) := by
  refine Reported.Ends.bind (Reported.Ends.ofOutcome rfl) (fun type htype => ?_)
    fun fault hfault => hfields key fault hfault
  refine Reported.Ends.bind (conditionsOn_ends key value) ?_ nofun
  rintro cs ⟨_, heq, hcs⟩
  obtain rfl := Except.ok.inj heq
  refine (Reported.Ends.mapM (L := fun part => ∀ a ∈ Formula.leaves part, L a) (E := E)
    fun c hc => ?_).weaken (R := Either (fun parts => ∀ part ∈ parts, ∀ a ∈ part.leaves, L a) E)
    fun o ho => ?_
  · have hleaf := h ⟨key, c.1, c.2⟩ (hcs ▸ List.mem_map_of_mem hc)
    rw [leaf, htype, Outcome.ok_bind] at hleaf
    refine Reported.Ends.bind (Reported.Ends.ofOutcome hleaf) (fun a ha => ?_) fun _ => id
    exact Reported.Ends.pure (List.forall_mem_singleton.mpr ha)
  · cases o with
    | error fault => exact ho
    | ok parts =>
      intro a ha
      obtain ⟨part, hpart, ha⟩ := Formula.mem_leavesOf.mp ha
      exact ho part hpart a ha

/-! ## Filters -/

/-- A malformed group is a mistake in the filter. -/
theorem groupMembers_cases {key : String} {value : Value} {fault : Fault}
    (h : groupMembers key value = .error fault) : ∃ e, fault = .filter e := by
  have hall (items : List Value) (h : (items.mapM fun
      | .map entries => .ok entries
      | _ => Outcome.filterError (.malformedGroup key) : Outcome (List (List (String × Value)))) =
        .error fault) : ∃ e, fault = .filter e := by
    obtain ⟨item, _, hfault⟩ := Outcome.exists_error_of_mapM h
    cases item with
    | map inner => cases hfault
    | _ => exact ⟨_, (Except.error.inj hfault).symm⟩
  cases value with
  | map inner => cases h
  | list items => exact hall items h
  | tuple items => exact hall items h
  | _ => exact ⟨_, (Except.error.inj h).symm⟩

mutual

theorem entries_ends (hfields : ∀ field fault, reading.fieldType field = .error fault → E fault)
    (hmistake : ∀ e, E (.filter e)) : ∀ {es : List (String × Value)},
    reading.Reads L E (mentionedBy es) →
    (reading.entries es).Ends (Either (fun parts => ∀ a ∈ Formula.leavesOf parts, L a) E)
  | [], _ => Reported.Ends.pure nofun
  | (key, value) :: rest, h => by
    obtain ⟨hhere, hrest⟩ := Reads.append.mp h
    rw [entries_cons]
    have hpart : (reading.part key value).Ends
        (Either (fun parts => ∀ a ∈ Formula.leavesOf parts, L a) E) := by
      rw [part]
      split_ifs at hhere ⊢
      · exact Reported.Ends.pure nofun
      · exact group_ends hfields hmistake key hhere
      · exact field_ends hfields hhere
    refine Reported.Ends.bind hpart (fun here hleaves => ?_) fun _ => id
    refine Reported.Ends.bind (entries_ends hfields hmistake hrest) (fun others hothers => ?_) fun _ => id
    refine Reported.Ends.pure ?_
    rw [Either, Formula.leavesOf_append]
    exact List.forall_mem_append.mpr ⟨hleaves, hothers⟩
termination_by structural es => es

theorem group_ends (hfields : ∀ field fault, reading.fieldType field = .error fault → E fault)
    (hmistake : ∀ e, E (.filter e)) (key : String) : ∀ {value : Value},
    reading.Reads L E (mentionedUnder value) →
    (reading.group key value).Ends (Either (fun parts => ∀ a ∈ Formula.leavesOf parts, L a) E)
  | value, h => by
    rw [Reading.group]
    cases Connective.ofKey? key with
    | none => exact fun lines => nofun
    | some connective =>
      refine Reported.Ends.bind (Q := Either (fun _ => True) E) (Reported.Ends.ofOutcome ?_)
        (fun _ _ => ?_) fun _ => id
      · cases hmembers : groupMembers key value with
        | ok members => trivial
        | error fault =>
          obtain ⟨e, rfl⟩ := groupMembers_cases hmembers
          exact hmistake e
      · cases value with
        | map inner =>
          refine Reported.Ends.bind (entries_ends hfields hmistake h) (fun here hleaves => ?_) fun _ => id
          refine Reported.Ends.pure ?_
          cases connective <;>
            simpa [Either, Connective.combine, Formula.leavesOf, Formula.leaves] using hleaves
        | list items =>
          refine Reported.Ends.bind (groups_ends hfields hmistake h) (fun here hleaves => ?_) fun _ => id
          refine Reported.Ends.pure ?_
          rwa [Either, leavesOf_grouped]
        | tuple items =>
          refine Reported.Ends.bind (groups_ends hfields hmistake h) (fun here hleaves => ?_) fun _ => id
          refine Reported.Ends.pure ?_
          rwa [Either, leavesOf_grouped]
        | _ => exact Reported.Ends.pure nofun
termination_by structural value => value

theorem groups_ends (hfields : ∀ field fault, reading.fieldType field = .error fault → E fault)
    (hmistake : ∀ e, E (.filter e)) : ∀ {items : List Value},
    reading.Reads L E (mentionedAmong items) →
    (reading.groups items).Ends (Either (fun parts => ∀ a ∈ Formula.leavesOf parts, L a) E)
  | [], _ => Reported.Ends.pure nofun
  | item :: rest, h => by
    cases item with
    | map inner =>
      obtain ⟨hinner, hrest⟩ := Reads.append.mp h
      rw [Reading.groups]
      refine Reported.Ends.bind (entries_ends hfields hmistake hinner) (fun first hfirst => ?_) fun _ => id
      refine Reported.Ends.bind (groups_ends hfields hmistake hrest) (fun others hothers => ?_) fun _ => id
      exact Reported.Ends.pure (List.forall_mem_append.mpr ⟨hfirst, hothers⟩)
    | _ => exact @groups_ends hfields hmistake rest h
termination_by structural items => items

end

/-- What is left out of a filter is not mentioned. -/
theorem mentionedBy_erase {es : Entries Value} {key : String} {c : Requirement}
    (h : c ∈ mentionedBy (Entries.erase es key)) : c ∈ mentionedBy es := by
  induction es with
  | nil => exact h
  | cons e es ih =>
    rw [mentionedBy]
    rw [Entries.erase, List.filter_cons] at h
    split_ifs at h with hkey
    · rw [mentionedBy] at h
      exact List.mem_append.mpr ((List.mem_append.mp h).imp id ih)
    · exact List.mem_append_right _ (ih h)

/-- A filter is read as well as what it mentions. -/
theorem filter_ends (hfields : ∀ field fault, reading.fieldType field = .error fault → E fault)
    (hmistake : ∀ e, E (.filter e)) {where_ : Value}
    (hshape : ∀ fault, withoutTransform where_ = .error fault → E fault)
    (h : reading.Reads L E (mentions where_)) :
    (reading.filter where_).Ends (Either (fun f => ∀ a ∈ f.leaves, L a) E) := by
  refine Reported.Ends.bind (Reported.Ends.ofOutcome rfl) (fun stripped hstripped => ?_) hshape
  have hentries : reading.Reads L E (mentionedBy stripped) := by
    intro c hc
    cases where_ with
    | map es =>
      obtain rfl := Except.ok.inj hstripped
      exact h c (mentionedBy_erase hc)
    | _ =>
      simp only [withoutTransform] at hstripped
      split_ifs at hstripped
      obtain rfl := Except.ok.inj hstripped
      cases hc
  refine Reported.Ends.bind (entries_ends hfields hmistake hentries) (fun parts hparts => ?_)
    fun _ => id
  exact Reported.Ends.pure hparts

end Reading

/-! ## Tests -/

/-- The values that a condition compares a field with. -/
def Requirement.operands (c : Requirement) : List Value :=
  if c.operator.takesList then Operator.candidates c.operand
  else if c.operator = .present then []
  else [c.operand]

/-- Whether a fault is a mistake in a filter. -/
def IsMistake (fault : Fault) : Prop := ∃ e, fault = .filter e

/-- Whether a value that is to be compared is quiet, or cannot be compared for a mistake. -/
def IsTestable (type : AttributeType) (v : Value) : Prop :=
  Either Value.IsQuiet IsMistake (comparable (some type) v)

/-- Whether the fields of a record can be compared as their types say. -/
def AreTestable (types : Entries AttributeType) (record : Record) : Prop :=
  ∀ field type, Entries.get? types field = some type → IsTestable type (record.field field)

/-- Whether a predicate answers for every record whose fields can be compared. -/
def Predicate.IsSure (types : Entries AttributeType) (predicate : Predicate) : Prop :=
  ∀ record : Record, AreTestable types record → ∃ b, predicate record = .ok b

/-- Whether a check has the type of its field, and an operand that can be compared. -/
def Check.IsSure (types : Entries AttributeType) (c : Check) : Prop :=
  (∃ type, Entries.get? types c.field = some type ∧ c.type = some type) ∧
    (c.operator = .present ∨ c.operand.IsQuiet)

variable {types : Entries AttributeType} {E : Fault → Prop}

/-- A sure check answers for a record whose field can be compared. -/
theorem Check.IsSure.exists_holdsFor {c : Check} (h : c.IsSure types) {record : Record}
    (hrecord : ∀ type, Entries.get? types c.field = some type →
      IsTestable type (record.field c.field)) : ∃ b, c.holdsFor record = .ok b := by
  obtain ⟨⟨type, hfield, htype⟩, hoperand⟩ := h
  have hvalue := hrecord type hfield
  rw [Check.holdsFor, htype]
  unfold IsTestable at hvalue
  cases hcompare : comparable (some type) (record.field c.field) with
  | ok v =>
    rw [hcompare] at hvalue
    rcases hoperand with hpresent | hquiet
    · rw [hpresent]
      exact ⟨_, rfl⟩
    · exact Operator.exists_holds hvalue hquiet
  | error fault =>
    rw [hcompare] at hvalue
    obtain ⟨e, rfl⟩ := hvalue
    exact ⟨false, rfl⟩

namespace Formula

variable {record : Record}

mutual

/-- A formula answers if its checks do. -/
theorem exists_holdsFor : ∀ {f : Formula Check}, (∀ c ∈ f.leaves, ∃ b, c.holdsFor record = .ok b) →
    ∃ b, f.holdsFor record = .ok b
  | leaf c, h => h c (List.mem_singleton_self c)
  | conj _, h => exists_allHoldFor h
  | disj _, h => exists_someHoldsFor h

theorem exists_allHoldFor : ∀ {parts : List (Formula Check)},
    (∀ c ∈ leavesOf parts, ∃ b, c.holdsFor record = .ok b) → ∃ b, allHoldFor record parts = .ok b
  | [], _ => ⟨true, rfl⟩
  | part :: rest, h => by
    rw [leavesOf, List.forall_mem_append] at h
    obtain ⟨b, hb⟩ := exists_holdsFor h.1
    rw [allHoldFor, hb, Outcome.ok_bind]
    cases b with
    | true => exact exists_allHoldFor h.2
    | false => exact ⟨false, rfl⟩

theorem exists_someHoldsFor : ∀ {parts : List (Formula Check)},
    (∀ c ∈ leavesOf parts, ∃ b, c.holdsFor record = .ok b) → ∃ b, someHoldsFor record parts = .ok b
  | [], _ => ⟨false, rfl⟩
  | part :: rest, h => by
    rw [leavesOf, List.forall_mem_append] at h
    obtain ⟨b, hb⟩ := exists_holdsFor h.1
    rw [someHoldsFor, hb, Outcome.ok_bind]
    cases b with
    | true => exact ⟨true, rfl⟩
    | false => exact exists_someHoldsFor h.2

end

end Formula

/-- Operands that can be compared make sure checks. -/
theorem recordReading_reads (hmistake : ∀ e, E (.filter e)) {cs : List Requirement}
    (h : ∀ c ∈ cs, ∀ type, Entries.get? types c.field = some type → ∀ v ∈ c.operands,
      Either Value.IsQuiet E (comparable (some type) v)) :
    (recordReading (some types)).Reads (Check.IsSure types) E cs := by
  intro c hc
  cases hget : Entries.get? types c.field with
  | none =>
    simp only [Reading.leaf, recordReading, hget]
    exact hmistake _
  | some type =>
    have hoperands := h c hc type hget
    simp only [Reading.leaf, recordReading, hget, Outcome.ok_bind]
    unfold Requirement.operands at hoperands
    split_ifs at hoperands ⊢ with hlist hpresent
    · cases hforms : (Operator.candidates c.operand).mapM (comparable (some type)) with
      | error fault =>
        obtain ⟨v, hv, hfault⟩ := Outcome.exists_error_of_mapM hforms
        have hcause := hoperands v hv
        rwa [hfault] at hcause
      | ok forms =>
        refine ⟨⟨type, hget, rfl⟩, .inr (Value.areQuiet_iff.mpr fun w hw => ?_)⟩
        obtain ⟨v, hv, hform⟩ := Outcome.exists_of_mem_mapM hforms hw
        have hquiet := hoperands v hv
        rwa [hform] at hquiet
    · exact ⟨⟨type, hget, rfl⟩, .inl hpresent⟩
    · have hoperand := hoperands _ (List.mem_singleton_self _)
      cases hform : comparable (some type) c.operand with
      | error fault =>
        rw [hform] at hoperand
        exact hoperand
      | ok form =>
        rw [hform] at hoperand
        exact ⟨⟨type, hget, rfl⟩, .inr hoperand⟩

/-- A filter whose operands can be compared is a predicate that answers. -/
theorem ofFilter_ends (hmistake : ∀ e, E (.filter e)) {where_ : Value}
    (hshape : ∀ fault, withoutTransform where_ = .error fault → E fault)
    (h : ∀ c ∈ mentions where_, ∀ type, Entries.get? types c.field = some type → ∀ v ∈ c.operands,
      Either Value.IsQuiet E (comparable (some type) v)) :
    (Predicate.ofFilter where_ (some types)).Ends (Either (Predicate.IsSure types) E) := by
  have hfields : ∀ field fault, (recordReading (some types)).fieldType field = .error fault →
      E fault := by
    intro field fault hfault
    simp only [recordReading] at hfault
    split at hfault
    · cases hfault
    · exact Except.error.inj hfault ▸ hmistake _
  refine Reported.Ends.bind (Reading.filter_ends hfields hmistake hshape
    (recordReading_reads hmistake h)) (fun f hf => ?_) fun _ => id
  exact Reported.Ends.pure fun record hrecord =>
    Formula.exists_holdsFor fun c hc => (hf c hc).exists_holdsFor (hrecord c.field)

end Filter

end TwinStore
