import TwinStore.Proofs.Alike
import TwinStore.Proofs.Content

/-!
# The relational join

A plan joins records with the records of another model that their keys refer to.  What it may attach
does not depend on how the records were found: it is the selection of the plan, itself joined with
what the plans below may attach.

Main definitions:

- `relatedTo`: the records that a key refers to; null refers to none.
- `attachEach`: a record with what it refers to attached, plan by plan, and whether it stays.
- `joined`: all records that a plan may attach.
- `join`: records joined with what they refer to.
- `Serves`: found records of two plans from which a record is given the same.

Main results:

- Theorem `relatedTo_null`, `exists_of_mem_relatedTo`: only keys that are not null join, and only
  with records that have the same key.
- Theorem `attachEach_matches`: a record that is served the same becomes the same.
- Theorem `mem_joinFound`: what is joined are the records that stay, with what is attached to them.
-/

namespace TwinStore

open Primary Filter Include

namespace Include

variable {φ ψ : Type}

/-! ## Joining found records -/

/-- The records among some found ones that a key refers to by a relation; null refers to none. -/
def relatedTo (relation : Relation) (found : List Record) (key : Value) : List Record :=
  if key.isNull then []
  else found.filter fun child => Value.equal? (child.field relation.otherKey) key == some true

/-- A record with those of the found records attached under a plan that it refers to, and whether it
stays: a required plan drops what refers to nothing. -/
def attachRelated (modelNames : List String) (plan : Plan φ) (found : List Record)
    (entry : Record × Bool) : Record × Bool :=
  match plan.relation with
  | none => entry
  | some relation =>
    let related := relatedTo relation found (entry.1.field relation.thisKey)
    let shown := related.map fun child => Value.map (child.project plan.attributes modelNames)
    (Entries.set entry.1 plan.model (.list shown), entry.2 && !(plan.isRequired && related.isEmpty))

/-- A record with what it refers to attached, plan by plan. -/
def attachEach (modelNames : List String) :
    List (Plan φ × List Record) → Record × Bool → Record × Bool
  | [], entry => entry
  | (plan, found) :: rest, entry =>
    attachEach modelNames rest (attachRelated modelNames plan found entry)

/-- Records joined with found ones; those that a required plan drops are left out. -/
def joinFound (modelNames : List String) (plans : List (Plan φ × List Record))
    (records : List Record) : List Record :=
  kept ((keptAll records).map (attachEach modelNames plans))

/-- The records of a model that a clause selects; no clause selects all. -/
def selected (r : Registry) (db : Database) (model : String)
    (clause : Option (Clause Comparison)) : List Record :=
  match r.table model >>= db.table with
  | .ok t => recordsOf t ((clause.getD .always).map Comparison.condition)
  | .error _ => []

mutual

/-- All records that a plan may attach: those that its clause selects, joined with what they refer
to by the plans below. -/
def joined (r : Registry) (db : Database) : ClausePlan → List Record
  | .node model _ _ clause _ children =>
    joinFound r.modelNames (children.zip (joinedEach r db children)) (selected r db model clause)

/-- All records that each of some plans may attach. -/
def joinedEach (r : Registry) (db : Database) : List ClausePlan → List (List Record)
  | [] => []
  | plan :: rest => joined r db plan :: joinedEach r db rest

end

/-- Records joined with what they refer to by some plans. -/
def join (r : Registry) (db : Database) (plans : List ClausePlan) (records : List Record) :
    List Record :=
  joinFound r.modelNames (plans.zip (joinedEach r db plans)) records

/-! ## Keys -/

variable {relation : Relation} {found : List Record}

/-- Null joins with nothing. -/
theorem relatedTo_null (relation : Relation) (found : List Record) :
    relatedTo relation found .null = [] := rfl

/-- What a key refers to has that key. -/
theorem exists_of_mem_relatedTo {key : Value} {child : Record}
    (h : child ∈ relatedTo relation found key) :
    child ∈ found ∧ key.isNull = false ∧
      Value.equal? (child.field relation.otherKey) key = some true := by
  unfold relatedTo at h
  split_ifs at h with hnull
  · cases h
  · obtain ⟨hmem, hequal⟩ := List.mem_filter.mp h
    exact ⟨hmem, Bool.eq_false_iff.mpr hnull, beq_iff_eq.mp hequal⟩

/-- What keys refer to does not depend on the order of the found records. -/
theorem relatedTo_perm {found' : List Record} (h : found.Perm found') (key : Value) :
    (relatedTo relation found key).Perm (relatedTo relation found' key) := by
  unfold relatedTo
  split_ifs
  · exact List.Perm.refl _
  · exact h.filter _

/-- Found records that match are referred to by the same keys. -/
theorem matched_relatedTo {other : Model} {found' : List Record}
    (h : Matched other.Matches found found') (hkey : other.hasAttribute relation.otherKey = true)
    (key : Value) :
    Matched other.Matches (relatedTo relation found key) (relatedTo relation found' key) := by
  obtain ⟨b, hb, hname⟩ := List.any_eq_true.mp hkey
  unfold relatedTo
  split_ifs
  · exact ⟨[], List.Perm.refl _, .nil⟩
  · refine h.filter fun x y hxy => ?_
    rw [← beq_iff_eq.mp hname, hxy.same b hb]

/-! ## Records and whether they stay -/

/-- Whether two records match and both stay or neither does. -/
def SameEntry (m : Model) (e f : Record × Bool) : Prop := m.Matches e.1 f.1 ∧ e.2 = f.2

/-- What stays of entries that are paired off is paired off. -/
theorem matched_kept {m : Model} {es fs : List (Record × Bool)} (h : Matched (SameEntry m) es fs) :
    Matched m.Matches (kept es) (kept fs) := by
  have hstay : Matched (SameEntry m) (es.filter (·.2)) (fs.filter (·.2)) :=
    h.filter fun e f hef => hef.2
  exact hstay.map fun e f hef => hef.1

/-- Found records of two plans that ask for the same, from which a record is given the same. -/
structure Serves (m : Model) (record : Record) (p : Plan φ × List Record)
    (q : Plan ψ × List Record) : Prop where
  model_eq : p.1.model = q.1.model
  attributes_eq : p.1.attributes = q.1.attributes
  isRequired_eq : p.1.isRequired = q.1.isRequired
  relation_eq : p.1.relation = q.1.relation
  apart : ∀ a ∈ m.attributes, a.name ≠ p.1.model
  related : ∀ relation, p.1.relation = some relation →
    m.hasAttribute relation.thisKey = true ∧ ∃ other : Model, Matched other.Matches
      (relatedTo relation p.2 (record.field relation.thisKey))
      (relatedTo relation q.2 (record.field relation.thisKey))

variable {m : Model} {record : Record} {modelNames : List String}

/-- A plan leaves the fields alone that are not named like its model. -/
theorem field_attachRelated (plan : Plan φ) (found : List Record) (entry : Record × Bool)
    {key : String} (hkey : key ≠ plan.model) :
    (attachRelated modelNames plan found entry).1.field key = entry.1.field key := by
  unfold attachRelated
  split
  · rfl
  · rw [Record.field_set, if_neg hkey]

/-- Plans leave the fields alone that are named like none of their models. -/
theorem field_attachEach {ps : List (Plan φ × List Record)} (entry : Record × Bool) {key : String}
    (hkey : ∀ p ∈ ps, key ≠ p.1.model) :
    (attachEach modelNames ps entry).1.field key = entry.1.field key := by
  induction ps generalizing entry with
  | nil => rfl
  | cons p ps ih =>
    obtain ⟨plan, found⟩ := p
    rw [attachEach, ih _ fun p hp => hkey p (List.mem_cons_of_mem _ hp),
      field_attachRelated plan found entry (hkey _ List.mem_cons_self)]

/-- A record that is served the same by one plan becomes the same. -/
theorem attachRelated_matches {p : Plan φ × List Record} {q : Plan ψ × List Record}
    (h : Serves m record p q) {e f : Record × Bool} (hef : SameEntry m e f)
    (hrecord : ∀ a ∈ m.attributes, e.1.field a.name = record.field a.name) :
    SameEntry m (attachRelated modelNames p.1 p.2 e) (attachRelated modelNames q.1 q.2 f) := by
  unfold attachRelated
  rw [← h.relation_eq, ← h.model_eq, ← h.attributes_eq, ← h.isRequired_eq]
  cases hrelation : p.1.relation with
  | none => exact hef
  | some relation =>
    obtain ⟨hkey, other, hmatched⟩ := h.related relation hrelation
    obtain ⟨a, ha, hname⟩ := List.any_eq_true.mp hkey
    have hname := beq_iff_eq.mp hname
    have hfield : e.1.field relation.thisKey = record.field relation.thisKey := by
      rw [← hname, hrecord a ha]
    have hfield' : f.1.field relation.thisKey = record.field relation.thisKey := by
      rw [← hfield, ← hname, hef.1.same a ha]
    simp only [hfield, hfield']
    refine ⟨hef.1.set h.apart (Matched.alike (hmatched.map fun x y hxy => ?_)), ?_⟩
    · exact hxy.alike_project p.1.attributes modelNames
    · rw [hef.2, hmatched.isEmpty_eq]

/-- A record that is served the same by all plans becomes the same. -/
theorem attachEach_matches {ps : List (Plan φ × List Record)} {qs : List (Plan ψ × List Record)}
    (h : List.Forall₂ (Serves m record) ps qs) {e f : Record × Bool} (hef : SameEntry m e f)
    (hrecord : ∀ a ∈ m.attributes, e.1.field a.name = record.field a.name) :
    SameEntry m (attachEach modelNames ps e) (attachEach modelNames qs f) := by
  induction h generalizing e f with
  | nil => exact hef
  | @cons p q ps qs hpq _ ih =>
    refine ih (attachRelated_matches hpq hef hrecord) fun a ha => ?_
    rw [field_attachRelated p.1 p.2 e (hpq.apart a ha), hrecord a ha]

/-- Records that match and are served the same are joined the same. -/
theorem joinFound_matches {ps : List (Plan φ × List Record)} {qs : List (Plan ψ × List Record)}
    {xs ys : List Record}
    (h : Matched (fun x y => m.Matches x y ∧ List.Forall₂ (Serves m x) ps qs) xs ys) :
    Matched m.Matches (joinFound modelNames ps xs) (joinFound modelNames qs ys) := by
  have hall : Matched (fun e f => SameEntry m e f ∧ List.Forall₂ (Serves m e.1) ps qs)
      (keptAll xs) (keptAll ys) := h.map fun x y hxy => ⟨⟨hxy.1, rfl⟩, hxy.2⟩
  exact matched_kept (hall.map fun e f hef => attachEach_matches hef.2 hef.1 fun _ _ => rfl)

/-- What is joined are the records that stay, with what is attached to them. -/
theorem joinFound_eq (modelNames : List String) (ps : List (Plan φ × List Record))
    (records : List Record) : joinFound modelNames ps records =
      (records.filter fun record => (attachEach modelNames ps (record, true)).2).map
        fun record => (attachEach modelNames ps (record, true)).1 := by
  unfold joinFound kept keptAll
  rw [List.map_map, List.filter_map, List.map_map]
  rfl

/-- A joined record is one that stays, with what is attached to it. -/
theorem mem_joinFound {ps : List (Plan φ × List Record)} {records : List Record} {child : Record} :
    child ∈ joinFound modelNames ps records ↔ ∃ record ∈ records,
      (attachEach modelNames ps (record, true)).2 = true ∧
      (attachEach modelNames ps (record, true)).1 = child := by
  rw [joinFound_eq, List.mem_map]
  simp only [List.mem_filter, and_assoc]

/-- A record can be joined before or after the key that refers to it is looked for. -/
theorem relatedTo_joinFound {ps : List (Plan φ × List Record)}
    (hkey : ∀ p ∈ ps, relation.otherKey ≠ p.1.model) (records : List Record) (key : Value) :
    relatedTo relation (joinFound modelNames ps records) key =
      joinFound modelNames ps (relatedTo relation records key) := by
  have hfield (record : Record) := @field_attachEach _ modelNames ps (record, true) _ hkey
  unfold relatedTo
  split_ifs with hnull
  · rfl
  · rw [joinFound_eq, joinFound_eq, List.filter_map, List.filter_filter, List.filter_filter]
    refine congrArg (List.map _) (List.filter_congr fun record _ => ?_)
    rw [Function.comp_apply, hfield record, Bool.and_comm]

/-- Without plans there is nothing to join. -/
theorem joinFound_nil (modelNames : List String) (records : List Record) :
    joinFound modelNames ([] : List (Plan φ × List Record)) records = records := by
  unfold joinFound kept keptAll
  induction records with
  | nil => rfl
  | cons record records ih => exact congrArg (List.cons record) ih

/-- A joined record comes from one whose other fields it has. -/
theorem exists_of_mem_joinFound {ps : List (Plan φ × List Record)} {records : List Record}
    {child : Record} (h : child ∈ joinFound modelNames ps records) :
    ∃ record ∈ records, ∀ {key : String}, (∀ p ∈ ps, key ≠ p.1.model) →
      child.field key = record.field key := by
  obtain ⟨record, hrecord, _, rfl⟩ := mem_joinFound.mp h
  exact ⟨record, hrecord, fun hkey => field_attachEach (record, true) hkey⟩

/-- What is attached under another name leaves the attributes of a record alone. -/
theorem carries_attachRelated {entry : Record × Bool}
    (h : m.Carries entry.1) {plan : Plan φ} (found : List Record)
    (happart : ∀ a ∈ m.attributes, a.name ≠ plan.model) :
    m.Carries (attachRelated modelNames plan found entry).1 := by
  unfold attachRelated
  split
  · exact h
  · exact h.set happart _

/-- What serves a record serves every record with the same attributes. -/
theorem Serves.congr {p : Plan φ × List Record} {q : Plan ψ × List Record}
    (h : Serves m record p q) {record' : Record}
    (hsame : ∀ a ∈ m.attributes, record'.field a.name = record.field a.name) :
    Serves m record' p q where
  model_eq := h.model_eq
  attributes_eq := h.attributes_eq
  isRequired_eq := h.isRequired_eq
  relation_eq := h.relation_eq
  apart := h.apart
  related relation hrelation := by
    obtain ⟨hkey, hmatched⟩ := h.related relation hrelation
    obtain ⟨a, ha, hname⟩ := List.any_eq_true.mp hkey
    rw [← beq_iff_eq.mp hname, hsame a ha, beq_iff_eq.mp hname]
    exact ⟨hkey, hmatched⟩

end Include

end TwinStore
