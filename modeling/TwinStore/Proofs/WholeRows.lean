import TwinStore.Proofs.Alike
import TwinStore.Proofs.MemberFields
import TwinStore.Proofs.RequestReadings

/-!
# Whole records in answers

What an answer of the primary store holds hangs below its records, level by level.  Its records are
whole, and so is what is attached to them under a plan that leaves no field out; those records go into
the cache with the answer.  Where one relation is included twice at one place, the records of the last
plan stand there for both: they are whole for the first plan only if the last one leaves no field out
either.

Main definitions:

- `attached`, `relatedRows`: the records attached to a record under a name, and the related records of
  an answer that count.
- `EachBelow`, `EachBelowAll`: records below which a condition holds of what plans attached whole.
- `IsPlain`, `ArePlain`: plans that leave no field out and include no relation twice at one place.
- `Registry.IsWhole`: the records with exactly the attributes of a model, besides those that hold
  related records.
- `shownPlan`, `AllShowWhole`: the plan whose records stand under a name in the end, and the plans that
  find whole records wherever they leave no field out.
- `IsFilled`: the records under which stands what some plans found.

Main results:

- Theorem `eachBelowAll_iff`: a condition holds below records exactly if it holds of the related
  records that count.
- Theorem `EachBelowAll.of_alike`: below records that are alike plain plans attached alike records.
- Theorem `isFilled_attachPlans`: plans fill the records that they are attached to.
- Theorem `isWhole_selectWith`: what an answer of the primary store holds is whole wherever its plans
  are shown whole records.
-/

namespace TwinStore

open Include

namespace Twin

/-! ## Attached records -/

/-- The records attached to a record under a name. -/
def attached (record : Record) (name : String) : List Record :=
  match record.field name with
  | .list items =>
    items.filterMap fun
      | .map fields => some fields
      | _ => none
  | _ => []

section

variable {φ : Type}

mutual

/-- The records that a plan attached to some records, and those attached to them; records of which
fields were left out do not count. -/
def relatedRows (rows : List Record) : Plan φ → List (String × List Record)
  | .node model _ attributes _ _ children =>
    let found := rows.flatMap (attached · model)
    let here := if attributes.isNone then [(model, found)] else []
    here ++ relatedRowsOf found children

/-- The records that plans attached to some records, and those attached to them. -/
def relatedRowsOf (rows : List Record) : List (Plan φ) → List (String × List Record)
  | [] => []
  | plan :: rest => relatedRows rows plan ++ relatedRowsOf rows rest

end

end

section

variable {record : Record} {name : String}

theorem attached_set_self (record : Record) (name : String) (related : List Record) :
    attached (Entries.set record name (.list (related.map .map))) name = related := by
  rw [attached, Record.field, Entries.get?_set_self]
  simp only [Option.getD_some]
  rw [List.filterMap_map]
  exact List.filterMap_some

theorem attached_set_of_ne (record : Record) {key : String} (v : Value) (h : name ≠ key) :
    attached (Entries.set record key v) name = attached record name := by
  rw [attached, attached, Record.field, Entries.get?_set_of_ne record v h, Record.field]

/-- A projection attaches nothing. -/
theorem mem_attached_of_project {wanted : Option (List String)} {kept : List String}
    {child : Record} (h : child ∈ attached (record.project wanted kept) name) :
    child ∈ attached record name := by
  cases wanted with
  | none => exact h
  | some names =>
    have hfield := Entries.get?_filter (fun k => names.contains k || kept.contains k) record name
    rw [attached, Record.project, Record.field, hfield] at h
    split_ifs at h with hkept
    · exact h
    · cases h

/-- The records attached to a record are the maps in the list under the name. -/
theorem mem_attached {child : Record} :
    child ∈ attached record name ↔ ∃ items, record.field name = .list items ∧ .map child ∈ items := by
  rw [attached]
  cases hfield : record.field name with
  | list items =>
    simp only [List.mem_filterMap]
    constructor
    · rintro ⟨item, hitem, heq⟩
      cases item <;> cases heq
      exact ⟨items, rfl, hitem⟩
    · rintro ⟨items', hitems, hchild⟩
      obtain rfl := Value.list.inj hitems
      exact ⟨_, hchild, rfl⟩
  | _ => simp

/-- Fields that are alike attach alike records. -/
theorem exists_attached {x y child : Record} (h : (x.field name).Alike (y.field name))
    (hchild : child ∈ attached y name) :
    ∃ child' ∈ attached x name, (Value.map child').Alike (.map child) := by
  obtain ⟨items, hitems, hchild⟩ := mem_attached.mp hchild
  rw [hitems] at h
  rcases h.symm.parts with heq | ⟨vs, ws, heq, hlist, hmatched⟩ | ⟨_, _, heq, _⟩
  · exact ⟨child, mem_attached.mpr ⟨items, heq.symm, hchild⟩, .refl _⟩
  · obtain rfl := Value.list.inj heq
    obtain ⟨v, hv, halike⟩ := hmatched.exists_of_mem hchild
    obtain ⟨child', rfl, _⟩ := halike.exists_map
    exact ⟨child', mem_attached.mpr ⟨ws, hlist, hv⟩, halike.symm⟩
  · cases heq

end

/-! ## Conditions on what is attached -/

variable {φ : Type}

section

variable (P : String → Record → Prop)

mutual

/-- Whether a condition holds of all that a plan attached to a record and left no field out of, and of
all that was attached to that. -/
def EachBelow (record : Record) : Plan φ → Prop
  | .node model _ attributes _ _ children =>
    ∀ child ∈ attached record model,
      (attributes = none → P model child) ∧ EachBelowAll child children

/-- Whether a condition holds of all that plans attached to a record and left no field out of, and of
all that was attached to that. -/
def EachBelowAll (record : Record) : List (Plan φ) → Prop
  | [] => True
  | plan :: rest => EachBelow record plan ∧ EachBelowAll record rest

end

end

variable {P Q : String → Record → Prop}

mutual

/-- A condition holds below records if it holds of what counts among the records of a plan. -/
theorem eachBelow_iff : ∀ (plan : Plan φ) {rows : List Record},
    (∀ row ∈ rows, EachBelow P row plan) ↔
      ∀ group ∈ relatedRows rows plan, ∀ child ∈ group.2, P group.1 child
  | .node model required attributes where_ relation children, rows => by
    have hfound : (∀ row ∈ rows,
        EachBelow P row (.node model required attributes where_ relation children)) ↔
        ∀ child ∈ rows.flatMap (attached · model),
          (attributes = none → P model child) ∧ EachBelowAll P child children := by
      simp only [EachBelow, List.mem_flatMap]
      exact ⟨fun h child ⟨row, hrow, hchild⟩ => h row hrow child hchild,
        fun h row hrow child hchild => h child ⟨row, hrow, hchild⟩⟩
    have hbelow := @eachBelowAll_iff children (rows.flatMap (attached · model))
    have hsplit (P Q : Record → Prop) (found : List Record) : (∀ child ∈ found, P child ∧ Q child) ↔
        (∀ child ∈ found, P child) ∧ ∀ child ∈ found, Q child :=
      ⟨fun h => ⟨fun c hc => (h c hc).1, fun c hc => (h c hc).2⟩,
        fun h c hc => ⟨h.1 c hc, h.2 c hc⟩⟩
    rw [hfound, hsplit, hbelow, relatedRows]
    simp only [List.forall_mem_append]
    refine and_congr_left fun _ => ?_
    cases attributes with
    | none => simp
    | some names => simp

/-- A condition holds below records exactly if it holds of what counts among the records of all
plans. -/
theorem eachBelowAll_iff : ∀ (plans : List (Plan φ)) {rows : List Record},
    (∀ row ∈ rows, EachBelowAll P row plans) ↔
      ∀ group ∈ relatedRowsOf rows plans, ∀ child ∈ group.2, P group.1 child
  | [], rows => by simp [EachBelowAll, relatedRowsOf]
  | plan :: rest, rows => by
    have hfirst := @eachBelow_iff plan rows
    have hrest := @eachBelowAll_iff rest rows
    simp only [relatedRowsOf, List.forall_mem_append, ← hfirst, ← hrest, EachBelowAll]
    exact ⟨fun h => ⟨fun row hrow => (h row hrow).1, fun row hrow => (h row hrow).2⟩,
      fun h row hrow => ⟨h.1 row hrow, h.2 row hrow⟩⟩

end

mutual

/-- What a condition implies holds below a record that attaches no more. -/
theorem EachBelow.imp : ∀ (plan : Plan φ) {record record' : Record},
    (∀ name, ∀ child ∈ attached record' name, child ∈ attached record name) →
    (∀ name child, P name child → Q name child) → EachBelow P record plan → EachBelow Q record' plan
  | .node _ _ _ _ _ children, _, _, hsub, himp, h => fun child hchild =>
    ⟨fun hnone => himp _ _ ((h child (hsub _ child hchild)).1 hnone),
      EachBelowAll.imp children (fun _ _ => id) himp (h child (hsub _ child hchild)).2⟩

/-- What a condition implies holds below a record that attaches no more, for all plans. -/
theorem EachBelowAll.imp : ∀ (plans : List (Plan φ)) {record record' : Record},
    (∀ name, ∀ child ∈ attached record' name, child ∈ attached record name) →
    (∀ name child, P name child → Q name child) →
    EachBelowAll P record plans → EachBelowAll Q record' plans
  | [], _, _, _, _, _ => trivial
  | plan :: rest, _, _, hsub, himp, h =>
    ⟨EachBelow.imp plan hsub himp h.1, EachBelowAll.imp rest hsub himp h.2⟩

end

/-! ## Plain plans -/

section

mutual

/-- Whether a plan and those below it leave no field out and include no relation twice at one
place. -/
def IsPlain : Plan φ → Prop
  | .node _ _ attributes _ _ children => attributes = none ∧ ArePlain children

/-- Whether plans and those below them leave no field out and include no relation twice at one
place. -/
def ArePlain : List (Plan φ) → Prop
  | [] => True
  | plan :: rest => IsPlain plan ∧ (∀ other ∈ rest, other.model ≠ plan.model) ∧ ArePlain rest

end

mutual

/-- Below records with alike fields a plain plan attached alike records. -/
theorem EachBelow.of_alike (hP : ∀ name x y, P name x → (Value.map x).Alike (.map y) → P name y)
    (hnodup : ∀ name x, P name x → (Entries.keys x).Nodup) : ∀ (plan : Plan φ) {x y : Record},
    IsPlain plan → (∀ key, (x.field key).Alike (y.field key)) → EachBelow P x plan →
    EachBelow P y plan
  | .node _ _ _ _ _ children, _, _, hplain, hfields, h => fun child hchild => by
    obtain ⟨child', hchild', halike⟩ := exists_attached (hfields _) hchild
    obtain ⟨hholds, hbelow⟩ := h child' hchild'
    have hholds := hholds hplain.1
    obtain ⟨_, heq, _, hchildFields⟩ := halike.exists_map
    obtain rfl := Value.map.inj heq
    exact ⟨fun _ => hP _ _ _ hholds halike,
      EachBelowAll.of_alike hP hnodup children hplain.2 (hchildFields (hnodup _ _ hholds)) hbelow⟩

/-- Below records with alike fields plain plans attached alike records. -/
theorem EachBelowAll.of_alike (hP : ∀ name x y, P name x → (Value.map x).Alike (.map y) → P name y)
    (hnodup : ∀ name x, P name x → (Entries.keys x).Nodup) : ∀ (plans : List (Plan φ)) {x y : Record},
    ArePlain plans → (∀ key, (x.field key).Alike (y.field key)) → EachBelowAll P x plans →
    EachBelowAll P y plans
  | [], _, _, _, _, _ => trivial
  | plan :: rest, _, _, hplain, hfields, h =>
    ⟨EachBelow.of_alike hP hnodup plan hplain.1 hfields h.1,
      EachBelowAll.of_alike hP hnodup rest hplain.2.2 hfields h.2⟩

end

end

end Twin

open Primary

/-! ## Whole records -/

namespace Registry

/-- Whether no attribute is named like a model. -/
def NamesApart (r : Registry) : Prop :=
  ∀ name m, r.model? name = some m → ∀ a ∈ m.attributes, r.hasModel a.name = false

/-- The fields of a record that hold no related records. -/
def ownFields (r : Registry) (record : Record) : Record :=
  record.filter fun e => !r.modelNames.contains e.1

/-- Whether a record has exactly the attributes of a model as its own fields. -/
def IsWhole (r : Registry) (name : String) (record : Record) : Prop :=
  ∃ m, r.table name = .ok m ∧ Entries.keys (r.ownFields record) = m.attributes.map (·.name)

variable {r : Registry} {name : String} {m : Model} {record : Record}

theorem contains_modelNames (r : Registry) (name : String) :
    r.modelNames.contains name = r.hasModel name := by
  rw [Bool.eq_iff_iff, List.contains_iff_mem, modelNames, hasModel, Entries.has_iff]

/-- A record that was read has the attributes of its model, in order. -/
theorem keys_of_recordOf {row : Row} (h : Database.recordOf m row = .ok record) :
    Entries.keys record = m.attributes.map (·.name) :=
  Outcome.map_eq_of_mapM h fun a e he => by
    obtain ⟨v, _, hv⟩ := Outcome.bind_eq_ok.mp he
    obtain rfl := Except.ok.inj hv
    rfl

/-- Where no attribute is named like a model, attributes are own fields. -/
theorem ownFields_eq_self (hr : r.NamesApart) (hm : r.model? name = some m)
    (hkeys : ∀ key ∈ Entries.keys record, key ∈ m.attributes.map (·.name)) :
    r.ownFields record = record := by
  refine List.filter_eq_self.mpr fun e he => ?_
  obtain ⟨a, ha, hname⟩ := List.mem_map.mp (hkeys e.1 (Entries.mem_keys_of_mem he))
  rw [contains_modelNames, ← hname, hr name m hm a ha]
  rfl

/-- A row is read as a whole record. -/
theorem isWhole_of_recordOf (hr : r.NamesApart) (hm : r.table name = .ok m) {row : Row}
    (h : Database.recordOf m row = .ok record) : r.IsWhole name record := by
  have hkeys := keys_of_recordOf h
  have hown : r.ownFields record = record :=
    ownFields_eq_self hr (model?_of_table hm) fun key hkey => hkeys ▸ hkey
  exact ⟨m, hm, by rw [hown, hkeys]⟩

/-- Related records do not count as own fields. -/
theorem ownFields_set (record : Record) {key : String} (hkey : r.hasModel key = true) (v : Value) :
    r.ownFields (Entries.set record key v) = r.ownFields record := by
  have hmem : key ∈ r.modelNames := by
    rw [← List.contains_iff_mem, contains_modelNames, hkey]
  induction record with
  | nil => simp [ownFields, Entries.set, hmem]
  | cons e record ih =>
    obtain ⟨k, w⟩ := e
    rw [Entries.set]
    unfold ownFields at ih ⊢
    split_ifs with hk
    · rw [List.filter_cons_of_neg (by simp [hk, hmem]), List.filter_cons_of_neg (by simp [hk, hmem])]
    · rw [List.filter_cons, List.filter_cons, ih]

end Registry

section

open Twin

variable {φ : Type} {r : Registry}

/-! ## Plans for one name -/

/-- The plan whose records stand under a name in the end: the last one for its model. -/
def shownPlan : List (Plan φ) → String → Option (Plan φ)
  | [], _ => none
  | plan :: rest, name =>
    (shownPlan rest name).or (if plan.model = name then some plan else none)

mutual

/-- Whether a plan is shown whole records by the plans that attach them, wherever it leaves no field
out. -/
def ShowsWhole (plans : List (Plan φ)) : Plan φ → Prop
  | .node model _ attributes _ _ children =>
    ∀ q, shownPlan plans model = some q →
      (attributes = none → q.attributes = none) ∧ AllShowWhole q.children children

/-- Whether plans are shown whole records by the plans that attach them, wherever they leave no field
out. -/
def AllShowWhole (plans : List (Plan φ)) : List (Plan φ) → Prop
  | [] => True
  | plan :: rest => ShowsWhole plans plan ∧ AllShowWhole plans rest

end

/-! ## What plans attach -/

variable (r)

/-- Whether what stands under the names of models in a record is what the plans shown there found:
whole records, without the fields that a plan leaves out, under which plans find whole records. -/
def IsFilled (plans : List (Plan φ)) (record : Record) : Prop :=
  ∀ name, r.hasModel name = true → ∀ child ∈ attached record name,
    ∃ q found, shownPlan plans name = some q ∧ child = found.project q.attributes r.modelNames ∧
      r.IsWhole name found ∧ ∀ asked : List (Plan φ), AreBound r asked →
        AllShowWhole q.children asked → EachBelowAll r.IsWhole found asked

variable {r} {plans asked : List (Plan φ)} {record : Record}

/-- Plans find whole records under a filled record wherever they are shown them. -/
theorem eachBelowAll_of_isFilled (h : IsFilled r plans record) (hbound : AreBound r asked)
    (hasked : AllShowWhole plans asked) : EachBelowAll r.IsWhole record asked := by
  induction asked with
  | nil => trivial
  | cons plan asked ih =>
    refine ⟨?_, ih hbound.2 hasked.2⟩
    obtain ⟨model, _, attributes, _, _, children⟩ := plan
    intro child hchild
    obtain ⟨⟨_, hmodel, hchildren⟩, _⟩ := hbound
    obtain ⟨q, found, hq, rfl, hwhole, hbelow⟩ := h model hmodel child hchild
    obtain ⟨hattributes, hshown⟩ := hasked.1 q hq
    refine ⟨fun hnone => ?_, ?_⟩
    · rw [hattributes hnone]
      exact hwhole
    · exact EachBelowAll.imp children (fun _ _ => mem_attached_of_project) (fun _ _ => id)
        (hbelow children hchildren hshown)

/-- The last plan for a name is shown there. -/
theorem shownPlan_append (plans : List (Plan φ)) (plan : Plan φ) (name : String) :
    shownPlan (plans ++ [plan]) name =
      if plan.model = name then some plan else shownPlan plans name := by
  induction plans with
  | nil =>
    rw [List.nil_append, shownPlan, shownPlan, shownPlan, Option.none_or]
  | cons first plans ih =>
    rw [List.cons_append, shownPlan, ih, shownPlan]
    split_ifs <;> simp

end

section

open Twin Filter

variable {r : Registry} {db : Database} {name : String} {m : Model}

/-- Nothing is attached to a record that was just read. -/
theorem isFilled_of_recordOf {φ : Type} (hr : r.NamesApart) (hm : r.table name = .ok m) {row : Row}
    {record : Record} (h : Database.recordOf m row = .ok record) :
    IsFilled r ([] : List (Plan φ)) record := by
  intro key hkey child hchild
  have hfield : Entries.get? record key = none := by
    refine Entries.get?_eq_none_iff.mpr fun hmem => ?_
    rw [Registry.keys_of_recordOf h] at hmem
    obtain ⟨a, ha, rfl⟩ := List.mem_map.mp hmem
    rw [hr name m (Registry.model?_of_table hm) a ha] at hkey
    cases hkey
  rw [attached, Record.field, hfield] at hchild
  cases hchild

/-- Selected records are whole, with nothing attached to them. -/
theorem isFilled_selected {φ : Type} (hr : r.NamesApart) (hm : r.table name = .ok m)
    {clause : Clause Comparison} {records : List Record} (h : db.select m clause = .ok records) :
    ∀ e ∈ keptAll records, r.IsWhole name e.1 ∧ IsFilled r ([] : List (Plan φ)) e.1 := by
  intro e he
  obtain ⟨record, hrecord, rfl⟩ := List.mem_map.mp he
  rw [Database.select] at h
  obtain ⟨_, _, h⟩ := Outcome.bind_eq_ok.mp h
  obtain ⟨row, _, hrow⟩ := Outcome.exists_of_mem_mapM h hrecord
  exact ⟨Registry.isWhole_of_recordOf hr hm hrow, isFilled_of_recordOf hr hm hrow⟩

/-- What a plan attaches is what it found. -/
theorem isFilled_attachFound {done : List ClausePlan} {plan : ClausePlan} {relation : Relation}
    {shown : List (Value × Record)} {entry : Record × Bool} (h : IsFilled r done entry.1)
    (hshown : ∀ p ∈ shown, ∃ found : Record, p.2 = found.project plan.attributes r.modelNames ∧
      r.IsWhole plan.model found ∧ ∀ asked : List ClausePlan, AreBound r asked →
        AllShowWhole plan.children asked → EachBelowAll r.IsWhole found asked) :
    IsFilled r (done ++ [plan]) (attachFound plan relation shown entry).1 := by
  intro key hkey child hchild
  rw [shownPlan_append]
  by_cases hname : plan.model = key
  · subst hname
    rw [attachFound] at hchild
    have hrelated := attached_set_self entry.1 plan.model
      ((shown.filter fun p => !(entry.1.field relation.thisKey).isNull &&
        Value.equal? p.1 (entry.1.field relation.thisKey) == some true).map (·.2))
    rw [List.map_map] at hrelated
    rw [Function.comp_def] at hrelated
    rw [hrelated] at hchild
    obtain ⟨p, hp, rfl⟩ := List.mem_map.mp hchild
    obtain ⟨found, heq, hwhole, hbelow⟩ := hshown p (List.mem_filter.mp hp).1
    exact ⟨plan, found, if_pos rfl, heq, hwhole, hbelow⟩
  · rw [attachFound, attached_set_of_ne _ _ (Ne.symm hname)] at hchild
    rw [if_neg hname]
    exact h key hkey child hchild

/-- What a plan attaches is shown from what it found: nothing, or selected records that the plans below
leave. -/
theorem exists_found {model : String} {required : Option Bool} {attributes : Option (List String)}
    {where_ : Option (Clause Comparison)} {relation : Relation} {children : List ClausePlan}
    {entries out : List (Record × Bool)}
    (h : attachPlan r db (.node model required attributes where_ (some relation) children) entries =
      .ok out) :
    ∃ (found : List Record) (shown : List (Value × Record)),
      out = entries.map (attachFound
        (.node model required attributes where_ (some relation) children) relation shown) ∧
      found.mapM (fun c => do
        return (← (c.field relation.otherKey).asKey, c.project attributes r.modelNames)) = .ok shown ∧
      (found = [] ∨ ∃ m clause records entries', r.table model = .ok m ∧
        db.select m clause = .ok records ∧
        attachPlans r db children (keptAll records) = .ok entries' ∧ found = kept entries') := by
  rw [attachPlan] at h
  obtain ⟨keys, _, h⟩ := Outcome.bind_eq_ok.mp h
  dsimp only at h
  split_ifs at h with hempty
  · obtain ⟨_, hnone, h⟩ := Outcome.bind_eq_ok.mp h
    obtain rfl := Except.ok.inj hnone
    obtain ⟨shown, hshown, h⟩ := Outcome.bind_eq_ok.mp h
    exact ⟨[], shown, (Except.ok.inj h).symm, hshown, .inl rfl⟩
  · obtain ⟨m, hm, h⟩ := Outcome.bind_eq_ok.mp h
    obtain ⟨records, hselect, h⟩ := Outcome.bind_eq_ok.mp h
    obtain ⟨found, hfound, h⟩ := Outcome.bind_eq_ok.mp h
    obtain ⟨entries', hattach, rfl⟩ := Outcome.map_eq_ok.mp hfound
    obtain ⟨shown, hshown, h⟩ := Outcome.bind_eq_ok.mp h
    exact ⟨kept entries', shown, (Except.ok.inj h).symm, hshown,
      .inr ⟨m, _, records, entries', hm, hselect, hattach, rfl⟩⟩

mutual

/-- A plan fills the records that it is attached to, and changes none of their own fields. -/
theorem isFilled_attachPlan (hr : r.NamesApart) : ∀ (plan : ClausePlan), IsBound r plan →
    ∀ {name : String} {done : List ClausePlan} {entries out : List (Record × Bool)},
    (∀ e ∈ entries, r.IsWhole name e.1 ∧ IsFilled r done e.1) →
    attachPlan r db plan entries = .ok out →
    ∀ e ∈ out, r.IsWhole name e.1 ∧ IsFilled r (done ++ [plan]) e.1
  | .node model required attributes where_ none children, hbound, _, _, _, _, _, _ => by
    cases hbound.1
  | .node model required attributes where_ (some relation) children, ⟨_, hmodel, hbound⟩, _, done,
      entries, out, hentries, h => by
    obtain ⟨found, shown, rfl, hshown, hfound⟩ := exists_found h
    have hbelow : ∀ c ∈ found, r.IsWhole model c ∧ IsFilled r children c := by
      intro c hc
      rcases hfound with rfl | ⟨m, clause, records, entries', hm, hselect, hattach, rfl⟩
      · cases hc
      · obtain ⟨e, he, rfl⟩ := List.mem_map.mp hc
        exact isFilled_attachPlans hr children hbound
          (isFilled_selected hr hm hselect) hattach e (List.mem_filter.mp he).1
    have hprojected : ∀ p ∈ shown, ∃ c : Record, p.2 = c.project attributes r.modelNames ∧
        r.IsWhole model c ∧ ∀ asked : List ClausePlan, AreBound r asked →
          AllShowWhole children asked → EachBelowAll r.IsWhole c asked := by
      intro p hp
      obtain ⟨c, hc, heq⟩ := Outcome.exists_of_mem_mapM hshown hp
      obtain ⟨_, _, heq⟩ := Outcome.bind_eq_ok.mp heq
      obtain rfl := Except.ok.inj heq
      exact ⟨c, rfl, (hbelow c hc).1, fun asked hasked hall =>
        eachBelowAll_of_isFilled (hbelow c hc).2 hasked hall⟩
    intro e he
    obtain ⟨entry, hentry, rfl⟩ := List.mem_map.mp he
    obtain ⟨hwhole, hfilled⟩ := hentries entry hentry
    refine ⟨?_, isFilled_attachFound hfilled hprojected⟩
    obtain ⟨m, hm, hkeys⟩ := hwhole
    exact ⟨m, hm, hkeys ▸ congrArg Entries.keys (Registry.ownFields_set _ hmodel _)⟩

/-- Plans fill the records that they are attached to, and change none of their own fields. -/
theorem isFilled_attachPlans (hr : r.NamesApart) : ∀ (plans : List ClausePlan), AreBound r plans →
    ∀ {name : String} {done : List ClausePlan} {entries out : List (Record × Bool)},
    (∀ e ∈ entries, r.IsWhole name e.1 ∧ IsFilled r done e.1) →
    attachPlans r db plans entries = .ok out →
    ∀ e ∈ out, r.IsWhole name e.1 ∧ IsFilled r (done ++ plans) e.1
  | [], _, _, done, entries, out, hentries, h => by
    rw [attachPlans] at h
    obtain rfl := Except.ok.inj h
    rwa [List.append_nil]
  | plan :: rest, ⟨hplan, hrest⟩, _, done, entries, out, hentries, h => by
    rw [attachPlans] at h
    obtain ⟨mid, hmid, h⟩ := Outcome.bind_eq_ok.mp h
    have hfilled := isFilled_attachPlans hr rest hrest
      (isFilled_attachPlan hr plan hplan hentries hmid) h
    rwa [List.append_assoc] at hfilled

end

/-- The records of a selection are whole, and what plans find under them is whole wherever they are
shown whole records. -/
theorem isWhole_selectWith (hr : r.NamesApart) (hm : r.table name = .ok m)
    {clause : Clause Comparison} {plans : List ClausePlan} (hplans : AreBound r plans)
    (hshown : AllShowWhole plans plans) {records : List Record}
    (h : selectWith r db m clause plans = .ok records) :
    ∀ record ∈ records, r.IsWhole name record ∧ EachBelowAll r.IsWhole record plans := by
  rw [selectWith] at h
  obtain ⟨selected, hselect, h⟩ := Outcome.bind_eq_ok.mp h
  obtain ⟨entries, hattach, h⟩ := Outcome.bind_eq_ok.mp h
  obtain rfl := Except.ok.inj h
  intro record hrecord
  obtain ⟨e, he, rfl⟩ := List.mem_map.mp hrecord
  obtain ⟨hwhole, hfilled⟩ := isFilled_attachPlans hr plans hplans
    (isFilled_selected hr hm hselect) hattach e (List.mem_filter.mp he).1
  exact ⟨hwhole, eachBelowAll_of_isFilled hfilled hplans hshown⟩

end

end TwinStore
