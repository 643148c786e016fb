import TwinStore.Proofs.CoherentChanges
import TwinStore.Proofs.StoreJoin

/-!
# The join of the mirrored rows

A cache that holds the members of some rows joins these rows only.  A record is given all that the
join of the tables gives it as soon as the members of what is attached to it are in the sets.

Main definitions:

- `IsRowRecord`: a record with the fields of a row, whatever is attached to it.
- `IsStored`: such a record whose member is in the set of its model.

Main results:

- Theorem `rows_below`: what the join of the tables attaches are records of rows.
- Theorem `stays_of_part`: what stays in the join of the mirrored rows stays in that of all rows.
- Theorem `serves_part`: a record below which all records are stored is served the same by both.
- Theorem `join_part_matches`: records below which all records are stored are joined the same.
-/

namespace TwinStore

open Primary Filter Include Twin Cache

/-! ## Joined records -/

namespace Include

variable {φ : Type} {modelNames : List String} {r : Registry}

/-- What is attached leaves the own fields of a record alone. -/
theorem ownFields_attachEach {ps : List (Plan φ × List Record)}
    (hps : ∀ p ∈ ps, r.hasModel p.1.model = true) (e : Record × Bool) :
    r.ownFields (attachEach modelNames ps e).1 = r.ownFields e.1 := by
  induction ps generalizing e with
  | nil => rfl
  | cons p ps ih =>
    obtain ⟨plan, found⟩ := p
    rw [attachEach, ih fun p hp => hps p (List.mem_cons_of_mem _ hp), attachRelated]
    cases plan.relation with
    | none => rfl
    | some relation => exact Registry.ownFields_set _ (hps _ List.mem_cons_self) _

/-- No key is there twice after related records were attached. -/
theorem nodup_keys_attachEach {ps : List (Plan φ × List Record)} {e : Record × Bool}
    (h : (Entries.keys e.1).Nodup) : (Entries.keys (attachEach modelNames ps e).1).Nodup := by
  induction ps generalizing e with
  | nil => exact h
  | cons p ps ih =>
    obtain ⟨plan, found⟩ := p
    refine ih ?_
    rw [attachRelated]
    cases plan.relation with
    | none => exact h
    | some relation => exact Entries.nodup_keys_set h _ _

/-- Below a record stands what the first of some plain plans found for it, and what the others
attached. -/
theorem eachBelowAll_attachEach_cons {P : String → Record → Prop} {plan : Plan φ}
    {plans : List (Plan φ)} (hplain : ArePlain (plan :: plans)) {relation : Relation}
    (hrelation : plan.relation = some relation) (found : List Record) (founds : List (List Record))
    (e : Record × Bool) :
    EachBelowAll P (attachEach modelNames ((plan :: plans).zip (found :: founds)) e).1
        (plan :: plans) ↔
      (∀ child ∈ relatedTo relation found (e.1.field relation.thisKey),
        P plan.model child ∧ EachBelowAll P child plan.children) ∧
      EachBelowAll P (attachEach modelNames (plans.zip founds)
        (attachRelated modelNames plan found e)).1 plans := by
  obtain ⟨model, required, attributes, where_, relation', children⟩ := plan
  obtain rfl : relation' = some relation := hrelation
  obtain ⟨⟨rfl, _⟩, hdistinct, _⟩ := hplain
  obtain ⟨e', he'⟩ : ∃ e', e' = attachRelated modelNames
      (.node model required none where_ (some relation) children) found e := ⟨_, rfl⟩
  have hother : ∀ p ∈ plans.zip founds, model ≠ p.1.model := fun p hp =>
    (hdistinct p.1 (List.of_mem_zip hp).1).symm
  have hattached : attached (attachEach modelNames (plans.zip founds) e').1 model =
      relatedTo relation found (e.1.field relation.thisKey) := by
    have hset : e'.1 = Entries.set e.1 model
        (.list ((relatedTo relation found (e.1.field relation.thisKey)).map .map)) := by
      rw [he']
      rfl
    rw [attached, field_attachEach e' hother, hset]
    exact attached_set_self _ _ _
  rw [List.zip_cons_cons, attachEach, ← he']
  refine and_congr_left fun _ => ?_
  show (∀ child ∈ attached _ model, (none = none → P model child) ∧ EachBelowAll P child children) ↔ _
  rw [hattached]
  simp only [forall_const]
  rfl

end Include

section

variable {d : Deployment} {sets : Entries (List String)} {db : Database} {r : Registry} {name : String}
  {m : Model} {t : Table}

/-! ## Records of rows -/

/-- Whether a record has the fields of a row in the table of a model, whatever is attached to it. -/
def IsRowRecord (r : Registry) (db : Database) (name : String) (record : Record) : Prop :=
  ∃ m t row, r.table name = .ok m ∧ db.table m = .ok t ∧ row ∈ t.rows ∧
    (Entries.keys record).Nodup ∧ (r.ownFields record).Perm (recordIn m row)

/-- Whether a record has the fields of a row whose member is in the set of the model. -/
def IsStored (d : Deployment) (sets : Entries (List String)) (db : Database) (name : String)
    (record : Record) : Prop :=
  IsRowRecord d.registry db name record ∧ ∀ raw, IsMemberOf d record raw → raw ∈ setOf d sets name

/-- The record of a typed row is a record of the model. -/
theorem isRecord_recordIn (hr : r.IsMirrored) (hm : r.table name = .ok m) (ht : t.IsTyped m)
    {row : Row} (hrow : row ∈ t.rows) : m.IsRecord (recordIn m row) :=
  have hmodel := Registry.model?_of_table hm
  (ht.rows row hrow).isRecord (hr.sound.isProper hmodel) (hr.exact hmodel)

/-- The member of a record is that of the row whose fields it has. -/
theorem isMemberOf_iff (hr : d.registry.IsMirrored) (hm : d.registry.table name = .ok m)
    (ht : t.IsTyped m) {row : Row} (hrow : row ∈ t.rows) {record : Record}
    (hperm : (d.registry.ownFields record).Perm (recordIn m row)) {raw : String} :
    IsMemberOf d record raw ↔ raw = memberIn m row := by
  have hproper := hr.sound.isProper (Registry.model?_of_table hm)
  have hrow := isRecord_recordIn hr hm ht hrow
  have hown : m.IsRecord (d.registry.ownFields record) := hrow.perm hproper hperm.symm
  have htext := (memberText_eq_iff hown hrow hproper).mpr hperm
  show encode (d.registry.ownFields record) = .ok raw ↔ _
  rw [encode_eq hown hproper, htext]
  exact ⟨fun h => (Except.ok.inj h).symm, fun h => h ▸ rfl⟩

/-- What is alike to a record of a row has the same fields of its own. -/
theorem ownFields_perm_of_alike (hr : r.IsMirrored) (hm : r.table name = .ok m) (ht : t.IsTyped m)
    {row : Row} (hrow : row ∈ t.rows) {x y : Record} (hnodup : (Entries.keys x).Nodup)
    (hperm : (r.ownFields x).Perm (recordIn m row)) (h : (Value.map x).Alike (.map y)) :
    (Entries.keys y).Nodup ∧ (r.ownFields y).Perm (recordIn m row) := by
  obtain ⟨_, heq, hkeys, hfields⟩ := h.exists_map
  obtain rfl := Value.map.inj heq
  have hproper := hr.sound.isProper (Registry.model?_of_table hm)
  have hrecord := isRecord_recordIn hr hm ht hrow
  have hown (x : Record) : Entries.keys (r.ownFields x) =
      (Entries.keys x).filter fun key => !r.modelNames.contains key := by
    rw [Entries.keys, Entries.keys, Registry.ownFields, List.filter_map]
    rfl
  refine ⟨hkeys.nodup_iff.mp hnodup, List.Perm.trans (List.Perm.symm ?_) hperm⟩
  have hkeys' : (Entries.keys (r.ownFields x)).Perm (Entries.keys (r.ownFields y)) := by
    rw [hown, hown]
    exact hkeys.filter _
  refine Record.perm_of_field (by rw [hown]; exact hnodup.filter _) hkeys' fun e he => ?_
  obtain ⟨type, hadmits⟩ := admits_fields hrecord hproper e (hperm.mem_iff.mp he)
  obtain ⟨hmem, hkept⟩ := List.mem_filter.mp he
  have halike := hfields hnodup e.1
  rw [Record.field, Entries.get?_of_mem hnodup hmem, Option.getD_some] at halike
  rw [halike.eq_of_admits hadmits, Record.field, Registry.ownFields,
    Entries.get?_filter (fun key => !r.modelNames.contains key), if_pos hkept, Record.field]

/-- What is alike to the record of a row is one of the same row. -/
theorem IsRowRecord.of_alike (hr : r.IsMirrored) (hdb : db.IsTyped r) {x y : Record}
    (hx : IsRowRecord r db name x) (h : (Value.map x).Alike (.map y)) : IsRowRecord r db name y := by
  obtain ⟨m, t, row, hm, ht, hrow, hnodup, hperm⟩ := hx
  obtain ⟨t', ht', htyped⟩ := hdb name m hm
  obtain rfl := Except.ok.inj (ht.symm.trans ht')
  exact ⟨m, t, row, hm, ht, hrow, ownFields_perm_of_alike hr hm htyped hrow hnodup hperm h⟩

/-- What is alike to a stored record is stored. -/
theorem IsStored.of_alike (hr : d.registry.IsMirrored) (hdb : db.IsTyped d.registry) {x y : Record}
    (hx : IsStored d sets db name x) (h : (Value.map x).Alike (.map y)) :
    IsStored d sets db name y := by
  obtain ⟨hrow, hstored⟩ := hx
  refine ⟨hrow.of_alike hr hdb h, fun raw hraw => hstored raw ?_⟩
  obtain ⟨m, t, row, hm, ht, hrow, hnodup, hperm⟩ := hrow
  obtain ⟨t', ht', htyped⟩ := hdb name m hm
  obtain rfl := Except.ok.inj (ht.symm.trans ht')
  have hperm' := (ownFields_perm_of_alike hr hm htyped hrow hnodup hperm h).2
  exact (isMemberOf_iff hr hm htyped hrow hperm).mpr
    ((isMemberOf_iff hr hm htyped hrow hperm').mp hraw)

/-- A selected record is that of a row. -/
theorem exists_row_of_selected (hdb : db.IsTyped r) (hm : r.table name = .ok m)
    {clause : Option (Clause Comparison)} {record : Record}
    (h : record ∈ selected r db name clause) :
    ∃ t row, db.table m = .ok t ∧ t.IsTyped m ∧ row ∈ t.rows ∧ record = recordIn m row := by
  obtain ⟨t, ht, htyped⟩ := hdb name m hm
  rw [selected_eq hm ht] at h
  obtain ⟨row, hrow, rfl⟩ := List.mem_map.mp ((recordsOf_perm htyped _).mem_iff.mp h)
  exact ⟨t, row, ht, htyped, (List.mem_filter.mp hrow).1, rfl⟩

/-- A selected record is one of its model. -/
theorem isRecord_of_selected (hr : r.IsMirrored) (hdb : db.IsTyped r) (hm : r.table name = .ok m)
    {clause : Option (Clause Comparison)} {record : Record}
    (h : record ∈ selected r db name clause) : m.IsRecord record := by
  obtain ⟨t, row, -, htyped, hrow, rfl⟩ := exists_row_of_selected hdb hm h
  exact isRecord_recordIn hr hm htyped hrow

/-- The own fields of a selected record to which related records were attached are its fields. -/
theorem ownFields_joined {φ : Type} (hr : r.IsMirrored) (hdb : db.IsTyped r)
    (hm : r.table name = .ok m) {clause : Option (Clause Comparison)} {record : Record}
    (h : record ∈ selected r db name clause) {ps : List (Plan φ × List Record)}
    (hps : ∀ p ∈ ps, r.hasModel p.1.model = true) :
    r.ownFields (attachEach r.modelNames ps (record, true)).1 = record := by
  rw [ownFields_attachEach hps]
  exact Registry.ownFields_eq_self (fun _ _ hm a ha => hr.apart hm a ha) (Registry.model?_of_table hm)
    fun key hkey => (isRecord_of_selected hr hdb hm h).keys.mem_iff.mp hkey

/-- A selected record to which related records were attached has the fields of its row. -/
theorem isRowRecord_attachEach {φ : Type} (hr : r.IsMirrored) (hdb : db.IsTyped r)
    (hm : r.table name = .ok m) {clause : Option (Clause Comparison)} {record : Record}
    (h : record ∈ selected r db name clause) {ps : List (Plan φ × List Record)}
    (hps : ∀ p ∈ ps, r.hasModel p.1.model = true) :
    IsRowRecord r db name (attachEach r.modelNames ps (record, true)).1 := by
  have hown := ownFields_joined hr hdb hm h hps
  have hkeys := (isRecord_of_selected hr hdb hm h).nodup_keys
    (hr.sound.isProper (Registry.model?_of_table hm))
  obtain ⟨t, row, ht, htyped, hrow, rfl⟩ := exists_row_of_selected hdb hm h
  exact ⟨m, t, row, hm, ht, hrow, nodup_keys_attachEach hkeys, .of_eq hown⟩

/-- The models of joined plans are registered. -/
theorem hasModel_of_zip {φ : Type} {plans : List (Plan φ)} {founds : List (List Record)}
    (h : ∀ plan ∈ plans, r.hasModel plan.model = true) :
    ∀ p ∈ plans.zip founds, r.hasModel p.1.model = true :=
  fun p hp => h p.1 (List.of_mem_zip hp).1

mutual

/-- What a plain plan may attach are records of rows, and so is what is below them. -/
theorem rows_joined (hr : r.IsMirrored) (hdb : db.IsTyped r) : ∀ {parent : String} {p : Builder}
    {q : ClausePlan}, Agrees r parent p q → IsPlain q → ∀ child ∈ joined r db q,
    IsRowRecord r db q.model child ∧ EachBelowAll (IsRowRecord r db) child q.children
  | _, .node _ _ _ _ _ _, _, h, hplain, child, hchild => by
    cases h with
    | node hrelation hwhere hchildren =>
      obtain ⟨other, f, hm, _⟩ := hwhere
      rw [joined] at hchild
      obtain ⟨record, hrecord, _, rfl⟩ := mem_joinFound.mp hchild
      exact ⟨isRowRecord_attachEach hr hdb hm hrecord (hasModel_of_zip (hchildren.hasModel hr.sound)),
        rows_below hr hdb hchildren hplain.2 (record, true)⟩

/-- What plain plans attach to a record are records of rows, and so is what is below them. -/
theorem rows_below (hr : r.IsMirrored) (hdb : db.IsTyped r) : ∀ {parent : String}
    {ps : List Builder} {qs : List ClausePlan}, AllAgree r parent ps qs → ArePlain qs →
    ∀ e : Record × Bool, EachBelowAll (IsRowRecord r db)
      (attachEach r.modelNames (qs.zip (joinedEach r db qs)) e).1 qs
  | _, [], _, h, _, _ => by
    cases h
    trivial
  | _, p :: ps, _, h, hplain, e => by
    cases h with
    | @cons _ _ q _ qs hp hps =>
      obtain ⟨relation, hrelation⟩ : ∃ relation, q.relation = some relation := by
        cases hp
        exact ⟨_, rfl⟩
      rw [joinedEach, eachBelowAll_attachEach_cons hplain hrelation]
      exact ⟨fun child hchild => rows_joined hr hdb hp hplain.1 child (exists_of_mem_relatedTo hchild).1,
        rows_below hr hdb hps hplain.2.2 _⟩

end

/-! ## Mirrored rows -/

/-- Whether the member of a record is in the set of a model. -/
def isKnown (d : Deployment) (sets : Entries (List String)) (name : String) (record : Record) : Bool :=
  (setOf d sets name).contains (memberText record)

/-- Of the mirrored rows a clause selects those whose records are known. -/
theorem selected_part_perm (hr : d.registry.IsMirrored) (hdb : db.IsTyped d.registry)
    (hm : d.registry.table name = .ok m) (clause : Option (Clause Comparison)) :
    (selected d.registry (mirroredPart d sets db) name clause).Perm
      ((selected d.registry db name clause).filter (isKnown d sets name)) := by
  obtain ⟨t, ht, htyped⟩ := hdb name m hm
  rw [selected_eq hm ht, selected_eq hm (table_mirroredPart ht)]
  refine (recordsOf_perm (isTyped_mirroredTable htyped) _).trans
    (List.Perm.trans (List.Perm.of_eq ?_) ((recordsOf_perm htyped _).filter _).symm)
  have hname := hr.sound.name_eq (Registry.model?_of_table hm)
  rw [List.filter_map, mirroredTable, List.filter_filter, List.filter_filter]
  refine congrArg (List.map _) (List.filter_congr fun row _ => ?_)
  rw [Bool.and_comm, Function.comp_apply, isMirrored, htyped.model_eq, hname, isKnown, memberIn]

/-- Of the mirrored rows a key refers to those whose records are known. -/
theorem relatedTo_part_perm (hr : d.registry.IsMirrored) (hdb : db.IsTyped d.registry)
    (hm : d.registry.table name = .ok m) (clause : Option (Clause Comparison)) (relation : Relation)
    (key : Value) :
    (relatedTo relation (selected d.registry (mirroredPart d sets db) name clause) key).Perm
      ((relatedTo relation (selected d.registry db name clause) key).filter (isKnown d sets name)) := by
  refine (relatedTo_perm (selected_part_perm hr hdb hm clause) key).trans (List.Perm.of_eq ?_)
  unfold relatedTo
  split_ifs
  · rfl
  · rw [List.filter_filter, List.filter_filter]
    exact List.filter_congr fun record _ => Bool.and_comm _ _

/-- A plan that is agreed on has a relation, which links attributes of the two models. -/
theorem Include.Agrees.exists_link (hr : d.registry.IsMirrored) (hdb : db.IsTyped d.registry) {parent : String}
    {m : Model} {p : Builder} {q : ClausePlan} (h : Agrees d.registry parent p q)
    (hmodel : d.registry.model? parent = some m) :
    ∃ relation other t a b, q.relation = some relation ∧
      Link d.registry db parent q.model relation m other t a b ∧ ∀ a ∈ m.attributes, a.name ≠ q.model := by
  cases h with
  | node hbound =>
    obtain ⟨other, t, a, b, hlink⟩ := TwinStore.exists_link hr hdb hmodel hbound
    exact ⟨_, other, t, a, b, rfl, hlink,
      ne_of_hasModel hr hmodel (Registry.hasModel_of_table hlink.table_eq)⟩

mutual

/-- What a key refers to under a plan among the mirrored rows it refers to among all rows. -/
theorem exists_related_of_part (hr : d.registry.IsMirrored) (hdb : db.IsTyped d.registry) :
    ∀ {parent : String} {m : Model} {p : Builder} {q : ClausePlan}, Agrees d.registry parent p q →
    d.registry.model? parent = some m → ∀ {relation : Relation}, q.relation = some relation →
    ∀ key : Value, relatedTo relation (joined d.registry (mirroredPart d sets db) q) key ≠ [] →
    relatedTo relation (joined d.registry db q) key ≠ []
  | parent, m, .node model _ _ _ _ _, _, h, hmodel, relation, hrelation, key, hne => by
    cases h with
    | @node _ _ _ _ _ clause _ _ children hbound hwhere hchildren =>
      obtain rfl := Option.some.inj hrelation
      obtain ⟨other, t, a, b, hlink⟩ := exists_link hr hdb hmodel hbound
      have hother := Registry.model?_of_table hlink.table_eq
      have hkey {founds : List (List Record)} : ∀ p ∈ children.zip founds,
          _ ≠ p.1.model := fun p hp => hlink.other_name ▸
        ne_of_hasModel hr hother (hasModel_of_zip (hchildren.hasModel hr.sound) p hp) b hlink.other_mem
      rw [joined, relatedTo_joinFound hkey] at hne ⊢
      obtain ⟨child, hchild⟩ := List.exists_mem_of_ne_nil _ hne
      obtain ⟨record, hrecord, hstays, _⟩ := mem_joinFound.mp hchild
      have hmem := (relatedTo_part_perm hr hdb hlink.table_eq clause _ key).mem_iff.mp hrecord
      exact List.ne_nil_of_mem (mem_joinFound.mpr ⟨record, (List.mem_filter.mp hmem).1,
        stays_of_part hr hdb hchildren hother (fun _ _ => rfl) id hstays, rfl⟩)

/-- What stays in the join of the mirrored rows stays in that of all rows. -/
theorem stays_of_part (hr : d.registry.IsMirrored) (hdb : db.IsTyped d.registry) :
    ∀ {parent : String} {m : Model} {ps : List Builder} {qs : List ClausePlan},
    AllAgree d.registry parent ps qs → d.registry.model? parent = some m →
    ∀ {e f : Record × Bool}, (∀ a ∈ m.attributes, e.1.field a.name = f.1.field a.name) →
    (e.2 = true → f.2 = true) →
    (attachEach d.registry.modelNames
      (qs.zip (joinedEach d.registry (mirroredPart d sets db) qs)) e).2 = true →
    (attachEach d.registry.modelNames (qs.zip (joinedEach d.registry db qs)) f).2 = true
  | _, _, [], _, h, _, _, _, _, hstays, hkept => by
    cases h
    exact hstays hkept
  | _, m, p :: ps, _, h, hmodel, e, f, hfields, hstays, hkept => by
    cases h with
    | @cons _ _ q _ qs hp hps =>
      obtain ⟨relation, other, t, a, b, hrelation, hlink, happart⟩ := hp.exists_link hr hdb hmodel
      rw [joinedEach, List.zip_cons_cons, attachEach] at hkept ⊢
      refine stays_of_part hr hdb hps hmodel (fun a ha => ?_) (fun hfirst => ?_) hkept
      · rw [field_attachRelated _ _ _ (happart a ha), field_attachRelated _ _ _ (happart a ha),
          hfields a ha]
      · have hrelated := exists_related_of_part hr hdb hp hmodel hrelation
          (f.1.field relation.thisKey)
        have hsame : e.1.field relation.thisKey = f.1.field relation.thisKey := by
          rw [← hlink.this_name, hfields a hlink.this_mem]
        simp only [attachRelated, hrelation, hsame, Bool.and_eq_true, Bool.not_eq_true',
          Bool.and_eq_false_iff, List.isEmpty_eq_false_iff] at hfirst ⊢
        exact ⟨hstays hfirst.1, hfirst.2.imp_right hrelated⟩

end

/-! ## Stored records -/

/-- Records that are known and served the same wherever they stay in the join of all rows are joined
the same. -/
theorem joinFound_part_matches (hr : d.registry.IsMirrored) (hdb : db.IsTyped d.registry)
    (hm : d.registry.table name = .ok m) {ps : List Builder} {qs : List ClausePlan}
    (h : AllAgree d.registry name ps qs) {records records' : List Record}
    (hpart : records'.Perm (records.filter (isKnown d sets name)))
    (hcarries : ∀ record ∈ records, m.Carries record)
    (hstored : ∀ record ∈ records,
      (attachEach d.registry.modelNames (qs.zip (joinedEach d.registry db qs)) (record, true)).2 =
        true → isKnown d sets name record = true ∧
          List.Forall₂ (Serves m record)
            (qs.zip (joinedEach d.registry (mirroredPart d sets db) qs))
            (qs.zip (joinedEach d.registry db qs))) :
    Matched m.Matches (join d.registry (mirroredPart d sets db) qs records')
      (join d.registry db qs records) := by
  have hsame (record : Record) (hrecord : record ∈ records)
      (hserves : List.Forall₂ (Serves m record)
        (qs.zip (joinedEach d.registry (mirroredPart d sets db) qs))
        (qs.zip (joinedEach d.registry db qs))) :
      SameEntry m
        (attachEach d.registry.modelNames
          (qs.zip (joinedEach d.registry (mirroredPart d sets db) qs)) (record, true))
        (attachEach d.registry.modelNames (qs.zip (joinedEach d.registry db qs)) (record, true)) :=
    attachEach_matches hserves ⟨(hcarries record hrecord).matches, rfl⟩ fun _ _ => rfl
  rw [join, join, joinFound_eq, joinFound_eq]
  have hstays : (records.filter (isKnown d sets name)).filter (fun record =>
      (attachEach d.registry.modelNames
        (qs.zip (joinedEach d.registry (mirroredPart d sets db) qs)) (record, true)).2) =
      records.filter fun record =>
        (attachEach d.registry.modelNames (qs.zip (joinedEach d.registry db qs)) (record, true)).2 := by
    rw [List.filter_filter]
    refine List.filter_congr fun record hrecord => Bool.eq_iff_iff.mpr ?_
    rw [Bool.and_eq_true]
    constructor
    · rintro ⟨hkept, _⟩
      exact stays_of_part hr hdb h (Registry.model?_of_table hm) (fun _ _ => rfl) id hkept
    · intro hkept
      obtain ⟨hknown, hserves⟩ := hstored record hrecord hkept
      exact ⟨(hsame record hrecord hserves).2.trans hkept, hknown⟩
  refine Matched.perm_left (Matched.of_map fun record hrecord => ?_)
    (((hpart.filter _).trans (List.Perm.of_eq hstays)).map _)
  obtain ⟨hmem, hkept⟩ := List.mem_filter.mp hrecord
  exact (hsame record hmem (hstored record hmem hkept).2).1

/-- A record that is stored, with what is attached to it, is known. -/
theorem isKnown_of_isStored {φ : Type} (hr : d.registry.IsMirrored) (hdb : db.IsTyped d.registry)
    (hm : d.registry.table name = .ok m) {clause : Option (Clause Comparison)} {record : Record}
    (hrecord : record ∈ selected d.registry db name clause) {ps : List (Plan φ × List Record)}
    (hps : ∀ p ∈ ps, d.registry.hasModel p.1.model = true)
    (h : IsStored d sets db name (attachEach d.registry.modelNames ps (record, true)).1) :
    isKnown d sets name record = true := by
  have hown := ownFields_joined hr hdb hm hrecord hps
  obtain ⟨t, row, ht, htyped, hrow, rfl⟩ := exists_row_of_selected hdb hm hrecord
  exact List.contains_iff_mem.mpr
    (h.2 _ ((isMemberOf_iff hr hm htyped hrow (List.Perm.of_eq hown)).mpr rfl))

/-- A selected record carries the attributes of its model. -/
theorem carries_of_selected (hr : r.IsMirrored) (hdb : db.IsTyped r) (hm : r.table name = .ok m)
    {clause : Option (Clause Comparison)} {record : Record}
    (h : record ∈ selected r db name clause) : m.Carries record :=
  (isRecord_of_selected hr hdb hm h).carries (hr.sound.isProper (Registry.model?_of_table hm))

mutual

/-- A key refers to the same records under a plan among the mirrored rows if all that it refers to is
stored, and all that is below. -/
theorem related_part_matches (hr : d.registry.IsMirrored) (hdb : db.IsTyped d.registry) :
    ∀ {parent : String} {m other : Model} {p : Builder} {q : ClausePlan},
    Agrees d.registry parent p q → d.registry.model? parent = some m → IsPlain q →
    d.registry.table q.model = .ok other → ∀ {relation : Relation}, q.relation = some relation →
    ∀ key : Value, (∀ child ∈ relatedTo relation (joined d.registry db q) key,
      IsStored d sets db q.model child ∧ EachBelowAll (IsStored d sets db) child q.children) →
    Matched other.Matches (relatedTo relation (joined d.registry (mirroredPart d sets db) q) key)
      (relatedTo relation (joined d.registry db q) key)
  | parent, m, other, .node model _ _ _ _ _, _, h, hmodel, hplain, hm, relation, hrelation, key,
      hstored => by
    cases h with
    | @node _ _ _ _ _ clause bound _ children hbound hwhere hchildren =>
      obtain rfl := Option.some.inj hrelation
      obtain ⟨other', t, a, b, hlink⟩ := exists_link hr hdb hmodel hbound
      obtain rfl : other' = other := Except.ok.inj (hlink.table_eq.symm.trans hm)
      have hother := Registry.model?_of_table hm
      have hchildModels := hchildren.hasModel hr.sound
      have hkey {founds : List (List Record)} : ∀ p ∈ children.zip founds,
          _ ≠ p.1.model := fun p hp => hlink.other_name ▸
        ne_of_hasModel hr hother (hasModel_of_zip hchildModels p hp) b hlink.other_mem
      rw [joined, relatedTo_joinFound hkey] at hstored
      rw [joined, joined, relatedTo_joinFound hkey, relatedTo_joinFound hkey]
      have hselected : ∀ record ∈ relatedTo bound (selected d.registry db model clause) key,
          record ∈ selected d.registry db model clause :=
        fun record hrecord => (exists_of_mem_relatedTo hrecord).1
      refine joinFound_part_matches hr hdb hm hchildren (relatedTo_part_perm hr hdb hm clause _ key)
        (fun record hrecord => carries_of_selected hr hdb hm (hselected record hrecord))
        fun record hrecord hstays => ?_
      obtain ⟨hchild, hbelow⟩ := hstored _ (mem_joinFound.mpr ⟨record, hrecord, hstays, rfl⟩)
      exact ⟨isKnown_of_isStored hr hdb hm (hselected record hrecord) (hasModel_of_zip hchildModels)
          hchild,
        serves_part hr hdb hchildren hother hplain.2
          (carries_of_selected hr hdb hm (hselected record hrecord)) hbelow⟩

/-- A record below which all records are stored is served the same by the mirrored rows. -/
theorem serves_part (hr : d.registry.IsMirrored) (hdb : db.IsTyped d.registry) :
    ∀ {parent : String} {m : Model} {ps : List Builder} {qs : List ClausePlan},
    AllAgree d.registry parent ps qs → d.registry.model? parent = some m → ArePlain qs →
    ∀ {e : Record × Bool}, m.Carries e.1 →
    EachBelowAll (IsStored d sets db)
      (attachEach d.registry.modelNames (qs.zip (joinedEach d.registry db qs)) e).1 qs →
    List.Forall₂ (Serves m e.1) (qs.zip (joinedEach d.registry (mirroredPart d sets db) qs))
      (qs.zip (joinedEach d.registry db qs))
  | _, _, [], _, h, _, _, _, _, _ => by
    cases h
    exact .nil
  | _, m, p :: ps, _, h, hmodel, hplain, e, hcarries, hbelow => by
    cases h with
    | @cons _ _ q _ qs hp hps =>
      obtain ⟨relation, other, t, a, b, hrelation, hlink, happart⟩ := hp.exists_link hr hdb hmodel
      rw [joinedEach, eachBelowAll_attachEach_cons hplain hrelation] at hbelow
      refine .cons ?_ ((serves_part hr hdb hps hmodel hplain.2.2
        (carries_attachRelated hcarries _ happart) hbelow.2).imp fun p q h => ?_)
      · exact hlink.serves hr rfl hrelation ⟨rfl, rfl, rfl, rfl⟩
          (related_part_matches hr hdb hp hmodel hplain.1 hlink.table_eq hrelation _ hbelow.1)
      · exact h.congr fun a ha => (field_attachRelated _ _ e (happart a ha)).symm

end

/-- Records that are stored where they stay, with all that is below them, are joined the same by the
mirrored rows. -/
theorem join_part_matches (hr : d.registry.IsMirrored) (hdb : db.IsTyped d.registry)
    (hm : d.registry.table name = .ok m) {ps : List Builder} {qs : List ClausePlan}
    (h : AllAgree d.registry name ps qs) (hplain : ArePlain qs) (clause : Option (Clause Comparison))
    (hstored : ∀ record ∈ join d.registry db qs (selected d.registry db name clause),
      IsStored d sets db name record ∧ EachBelowAll (IsStored d sets db) record qs) :
    Matched m.Matches
      (join d.registry (mirroredPart d sets db) qs
        (selected d.registry (mirroredPart d sets db) name clause))
      (join d.registry db qs (selected d.registry db name clause)) := by
  refine joinFound_part_matches hr hdb hm h (selected_part_perm hr hdb hm clause)
    (fun record hrecord => carries_of_selected hr hdb hm hrecord) fun record hrecord hstays => ?_
  obtain ⟨hrecord', hbelow⟩ := hstored _ (mem_joinFound.mpr ⟨record, hrecord, hstays, rfl⟩)
  exact ⟨isKnown_of_isStored hr hdb hm hrecord (hasModel_of_zip (h.hasModel hr.sound)) hrecord',
    serves_part hr hdb h (Registry.model?_of_table hm) hplain
      (carries_of_selected hr hdb hm hrecord) hbelow⟩

end

end TwinStore
