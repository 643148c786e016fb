import TwinStore.Proofs.ShapedPlans
import TwinStore.Proofs.StoreEndings
import TwinStore.Proofs.StoredMembers

/-!
# Queries that the primary store answers for

A query reads rows and joins what it reads on the keys of relations.  If every row can be read, and its
keys be looked up, the query gives records or is answered for; what it gives can be written into the
cache, down to all related records.

Main definitions:

- `Registry.IsJoined`: the fields that relations are joined on.
- `Registry.CanJoin`: the records with keys that can be looked up.
- `Registry.CanServe`: the records that can be joined and be written into the cache.
- `Database.Reads`: the databases whose rows are read as records of some kind.
- `IsLaden`: the records that can be written, with all that is attached to them.

Main results:

- Theorem `either_selectWith`: a query of a database that can be read gives laden records, or is
  answered for.
- Theorem `either_membersOf_own`: laden records have members, or one of them has a byte string.
-/

namespace TwinStore

open Filter Include Primary Twin

/-! ## Keys of relations -/

namespace Registry

variable {r : Registry} {name field : String}

/-- Whether a relation from or to a model is joined on a field of it. -/
def IsJoined (r : Registry) (name field : String) : Prop :=
  (∃ target relation, r.relation? name target = some relation ∧ relation.thisKey = field) ∨
    ∃ parent relation, r.relation? parent name = some relation ∧ relation.otherKey = field

/-- Whether no field that relations are joined on is named like a model. -/
def KeysApart (r : Registry) : Prop := ∀ name field, r.IsJoined name field → r.hasModel field = false

/-- Whether the keys of a record can be looked up, and are not too long for a column. -/
def CanJoin (r : Registry) (name : String) (record : Record) : Prop :=
  ∀ field, r.IsJoined name field → (record.field field).isKey = true ∧ (record.field field).FitsColumn

/-- Whether a record can be joined with others and be written into the cache. -/
structure CanServe (r : Registry) (name : String) (record : Record) : Prop where
  joins : r.CanJoin name record
  writes : ∀ e ∈ record, e.2.IsWritable

end Registry

/-- Whether the tables of a database belong to their models, and every row is read as a record of some
kind. -/
structure Primary.Database.Reads (r : Registry) (P : String → Record → Prop) (db : Database) :
    Prop where
  isOwn : db.IsOwn r
  rows : ∀ name m t, r.table name = .ok m → db.table m = .ok t → ∀ row ∈ t.rows,
    ∃ record, Database.recordOf m row = .ok record ∧ P name record

/-! ## Records with what is attached to them -/

/-- Whether the own fields of a record can be written, and so can those of all records attached to
it. -/
inductive IsLaden (r : Registry) : Record → Prop
  | intro {record : Record} (fields : ∀ e ∈ r.ownFields record, e.2.IsWritable)
    (below : ∀ name, ∀ child ∈ attached record name, IsLaden r child) : IsLaden r record

namespace IsLaden

variable {r : Registry} {record : Record}

theorem ownFields (h : IsLaden r record) : ∀ e ∈ r.ownFields record, e.2.IsWritable := by
  cases h with
  | intro fields => exact fields

theorem attached {name : String} (h : IsLaden r record) :
    ∀ child ∈ attached record name, IsLaden r child := by
  cases h with
  | intro _ below => exact below name

/-- A part of a document is one. -/
theorem hasDocument_of_mem {es : Entries Value} (h : Cache.HasDocument (.map es)) :
    ∀ e ∈ es, Cache.HasDocument e.2 := by
  obtain ⟨j, hj⟩ := h
  rw [Cache.document_map] at hj
  obtain ⟨ms, hms, -⟩ := Outcome.map_eq_ok.mp hj
  intro e he
  obtain ⟨m, -, hm⟩ := Outcome.exists_result_of_mem hms ((Entries.inOrder_perm es).mem_iff.mpr he)
  obtain ⟨j, hj, -⟩ := Outcome.map_eq_ok.mp hm
  exact ⟨j, hj⟩

/-- A record of values that can be written is laden with the maps in them.  The induction is on the
size of the record, as what counts as attached is a part of it. -/
theorem of_isWritable (h : ∀ e ∈ record, e.2.IsWritable) : IsLaden r record := by
  induction hn : sizeOf record using Nat.strongRecOn generalizing record with
  | ind n ih =>
    refine .intro (fun e he => h e (List.mem_filter.mp he).1) fun name child hchild => ?_
    obtain ⟨items, hfield, hitem⟩ := mem_attached.mp hchild
    have hmem : (name, Value.list items) ∈ record := by
      rw [Record.field] at hfield
      cases hget : Entries.get? record name with
      | none =>
        rw [hget] at hfield
        cases hfield
      | some v =>
        rw [hget] at hfield
        obtain rfl : v = .list items := hfield
        exact Entries.mem_of_get? hget
    have hdocument : Cache.HasDocument (.list items) := by
      rcases h _ hmem with hdocument | ⟨bs, hbytes⟩
      · exact hdocument
      · cases hbytes
    obtain ⟨j, hj⟩ := hdocument
    rw [Cache.document_list] at hj
    obtain ⟨js, hjs, -⟩ := Outcome.map_eq_ok.mp hj
    obtain ⟨j, -, hj⟩ := Outcome.exists_result_of_mem hjs hitem
    refine ih (sizeOf child) ?_ (fun e he => .inl (hasDocument_of_mem ⟨j, hj⟩ e he)) rfl
    have hsmall := List.sizeOf_lt_of_mem hitem
    have hsmall' := List.sizeOf_lt_of_mem hmem
    simp only [Value.map.sizeOf_spec, Prod.mk.sizeOf_spec, Value.list.sizeOf_spec] at hsmall hsmall'
    omega

/-- Fewer fields leave a record laden. -/
theorem project (h : IsLaden r record) (wanted : Option (List String)) (kept : List String) :
    IsLaden r (record.project wanted kept) := by
  refine .intro (fun e he => ?_) fun name child hchild => h.attached child
    (mem_attached_of_project hchild)
  cases wanted with
  | none => exact h.ownFields e he
  | some names =>
    obtain ⟨hmem, hown⟩ := List.mem_filter.mp he
    exact h.ownFields e (List.mem_filter.mpr ⟨(List.mem_filter.mp hmem).1, hown⟩)

/-- Attaching laden records leaves a record laden. -/
theorem set (h : IsLaden r record) {name : String} (hname : r.hasModel name = true)
    {related : List Record} (hrelated : ∀ child ∈ related, IsLaden r child) :
    IsLaden r (Entries.set record name (.list (related.map .map))) := by
  refine .intro ?_ fun name' child hchild => ?_
  · rw [Registry.ownFields_set record hname]
    exact h.ownFields
  · by_cases heq : name' = name
    · subst heq
      rw [attached_set_self] at hchild
      exact hrelated child hchild
    · rw [attached_set_of_ne record _ heq] at hchild
      exact h.attached child hchild

section

variable {φ : Type}

mutual

/-- What a plan finds below a laden record can be written. -/
theorem eachBelow : ∀ (plan : Plan φ) {record : Record}, IsLaden r record →
    EachBelow (fun _ child => IsLaden r child) record plan
  | .node _ _ _ _ _ children, _, h => fun child hchild =>
    ⟨fun _ => h.attached child hchild, eachBelowAll children (h.attached child hchild)⟩

/-- What plans find below a laden record can be written. -/
theorem eachBelowAll : ∀ (plans : List (Plan φ)) {record : Record}, IsLaden r record →
    EachBelowAll (fun _ child => IsLaden r child) record plans
  | [], _, _ => trivial
  | plan :: rest, _, h => ⟨eachBelow plan h, eachBelowAll rest h⟩

end

/-- The related records of an answer that go into the cache can be written. -/
theorem of_mem_relatedRowsOf {rows : List Record} (h : ∀ row ∈ rows, IsLaden r row)
    (plans : List (Plan φ)) :
    ∀ group ∈ relatedRowsOf rows plans, ∀ child ∈ group.2, IsLaden r child :=
  (eachBelowAll_iff plans).mp fun row hrow => eachBelowAll plans (h row hrow)

/-- So can the records of the answer themselves. -/
theorem of_mem_groups {rows : List Record} (h : ∀ row ∈ rows, IsLaden r row) (plans : List (Plan φ))
    {model : String} {group : String × List Record}
    (hgroup : group ∈ (model, rows) :: relatedRowsOf rows plans) {record : Record}
    (hrecord : record ∈ group.2) : IsLaden r record := by
  rcases List.mem_cons.mp hgroup with rfl | hgroup
  · exact h record hrecord
  · exact of_mem_relatedRowsOf h plans group hgroup record hrecord

end

end IsLaden

/-- Laden records have members, or one of them has a byte string. -/
theorem Cache.either_membersOf_own {r : Registry} {records : List Record}
    (h : ∀ record ∈ records, IsLaden r record) :
    Either (fun _ => True) IsWrongKind (membersOf r.modelNames (asValue records)) := by
  show Either _ _ ((records.map Value.map).mapM (memberOf r.modelNames))
  have hmembers : Either (fun members : List String => ∀ raw ∈ members, True) IsWrongKind
      ((records.map Value.map).mapM (memberOf r.modelNames)) := by
    apply Either.mapM
    intro v hv
    obtain ⟨record, hrecord, rfl⟩ := List.mem_map.mp hv
    exact (either_encode (h record hrecord).ownFields).imp (fun _ _ => trivial) fun _ => id
  exact hmembers.imp (fun _ _ => trivial) fun _ => id

/-! ## Joined records -/

namespace Primary

variable {r : Registry} {db : Database}

/-- Whether a record of a model can be joined, and be written with what is attached to it. -/
structure IsUsable (r : Registry) (name : String) (record : Record) : Prop where
  canJoin : r.CanJoin name record
  isLaden : IsLaden r record

/-- A value that can be looked up is its own key. -/
theorem asKey_eq {v : Value} (h : v.isKey = true) : v.asKey = .ok v := if_pos h

/-- Attaching usable records under a model leaves a record usable. -/
theorem IsUsable.attachFound (hkeys : r.KeysApart) {name : String} {plan : ClausePlan}
    (hplan : r.hasModel plan.model = true) {relation : Relation} {shown : List (Value × Record)}
    (hshown : ∀ p ∈ shown, IsLaden r p.2) {entry : Record × Bool} (h : IsUsable r name entry.1) :
    IsUsable r name (attachFound plan relation shown entry).1 := by
  constructor
  · intro field hjoined
    have hne : field ≠ plan.model := by
      rintro rfl
      rw [hkeys name _ hjoined] at hplan
      cases hplan
    rw [Primary.attachFound, Record.field, Entries.get?_set_of_ne _ _ hne]
    exact h.canJoin field hjoined
  · have hrelated : ∀ child ∈ (shown.filter fun p => !(entry.1.field relation.thisKey).isNull &&
        Value.equal? p.1 (entry.1.field relation.thisKey) == some true).map (·.2),
        IsLaden r child := by
      intro child hchild
      obtain ⟨p, hp, rfl⟩ := List.mem_map.mp hchild
      exact hshown p (List.mem_filter.mp hp).1
    have hset := h.isLaden.set hplan hrelated
    rw [List.map_map] at hset
    exact hset

/-- Keys of usable records can be looked up. -/
theorem either_keysOf {name target : String} {relation : Relation}
    (hrelation : r.relation? name target = some relation) {records : List Record}
    (h : ∀ record ∈ records, IsUsable r name record) :
    Either (fun keys => ∀ k ∈ keys, k.FitsColumn) IsAnswered (keysOf relation records) := by
  have hkeys : Either (fun keys : List Value => ∀ k ∈ keys, k.FitsColumn) IsAnswered
      (records.mapM fun record => (record.field relation.thisKey).asKey) := by
    apply Either.mapM
    intro record hrecord
    obtain ⟨hkey, hfits⟩ := (h record hrecord).canJoin relation.thisKey
      (.inl ⟨target, relation, hrelation, rfl⟩)
    rw [asKey_eq hkey]
    exact hfits
  apply hkeys.bind
  intro keys hfits
  exact fun k hk => hfits k (List.mem_filter.mp hk).1

/-- The clause for related records is safe, if their keys are not too long. -/
theorem isSafe_relatedClause {m : Model} {relation : Relation} {keys : List Value}
    (hkeys : ∀ k ∈ keys, k.FitsColumn) {where_ : Option (Clause Comparison)}
    (hwhere : ∀ clause, where_ = some clause → ∀ c ∈ clause.leaves, c.IsSafe) :
    ∀ c ∈ (relatedClause m relation keys where_).leaves, c.IsSafe := by
  have hmember (type : AttributeType) :
      (⟨relation.otherKey, type, .isIn, .list keys⟩ : Comparison).IsSafe :=
    Comparison.isSafe_of_fits hkeys
  intro c hc
  cases where_ with
  | none =>
    obtain rfl := List.mem_singleton.mp hc
    exact hmember _
  | some clause =>
    have hleaf := Clause.leaves_conjunction hc
    rw [Clause.leavesOf, Clause.leavesOf, Clause.leavesOf, List.append_nil, List.mem_append] at hleaf
    rcases hleaf with hleaf | hleaf
    · obtain rfl := List.mem_singleton.mp hleaf
      exact hmember _
    · exact hwhere clause rfl c hleaf

theorem forall_keptAll {P : Record → Prop} {records : List Record} (h : ∀ record ∈ records, P record) :
    ∀ e ∈ keptAll records, P e.1 := by
  intro e he
  obtain ⟨record, hrecord, rfl⟩ := List.mem_map.mp he
  exact h record hrecord

theorem forall_kept {P : Record → Prop} {entries : List (Record × Bool)} (h : ∀ e ∈ entries, P e.1) :
    ∀ record ∈ kept entries, P record := by
  intro record hrecord
  obtain ⟨e, he, rfl⟩ := List.mem_map.mp hrecord
  exact h e (List.mem_filter.mp he).1

/-- A safe clause on a table selects usable records, or is answered for. -/
theorem either_select_usable (hdb : db.Reads r r.CanServe) {name : String} {m : Model}
    (htable : r.table name = .ok m) {clause : Clause Comparison}
    (hclause : ∀ c ∈ clause.leaves, c.IsSafe) :
    Either (fun records => ∀ record ∈ records, IsUsable r name record) IsAnswered
      (db.select m clause) := by
  apply Database.either_select hclause
  intro t ht row hrow
  obtain ⟨record, hrecord, hserves⟩ := hdb.rows name m t htable ht row hrow
  exact ⟨record, hrecord, hserves.joins, .of_isWritable hserves.writes⟩

mutual

/-- A plan with safe clauses attaches usable records, or is answered for. -/
theorem either_attachPlan (hr : r.IsSound) (hkeys : r.KeysApart) (hdb : db.Reads r r.CanServe) :
    ∀ {plan : ClausePlan} {name : String} {entries : List (Record × Bool)},
    IsShaped r (fun _ (clause : Clause Comparison) => ∀ c ∈ clause.leaves, c.IsSafe) name plan →
    (∀ e ∈ entries, IsUsable r name e.1) →
    Either (fun out => ∀ e ∈ out, IsUsable r name e.1) IsAnswered (attachPlan r db plan entries)
  | .node _ _ _ _ none _, _, _, _, hentries => hentries
  | .node model required attributes where_ (some relation) children, name, entries,
      ⟨⟨link, hlink, hrelation⟩, hwhere, hchildren⟩, hentries => by
    obtain rfl := Option.some.inj hlink
    have hmodel := hasModel_of_relation hr hrelation
    obtain ⟨m, hm⟩ := Option.isSome_iff_exists.mp hmodel
    have htable := hr.table_eq hm
    rw [attachPlan]
    apply (@either_keysOf r _ _ _ hrelation (entries.map (·.1)) ?_).bind
    · intro keys hfits
      have hattach (found : List Record) (hfound : ∀ record ∈ found, IsUsable r model record) :
          Either (fun out : List (Record × Bool) => ∀ e ∈ out, IsUsable r name e.1) IsAnswered (do
            let shown ← found.mapM fun c => do
              return (← (c.field relation.otherKey).asKey, c.project attributes r.modelNames)
            return entries.map (attachFound
              (.node model required attributes where_ (some relation) children) relation shown)) := by
        have hpairs : Either (fun shown : List (Value × Record) => ∀ p ∈ shown, IsLaden r p.2) IsAnswered
            (found.mapM fun c => do
              return (← (c.field relation.otherKey).asKey, c.project attributes r.modelNames)) := by
          apply Either.mapM
          intro record hrecord
          have husable := hfound record hrecord
          obtain ⟨hkey, -⟩ := husable.canJoin relation.otherKey (.inr ⟨name, relation, hrelation, rfl⟩)
          rw [asKey_eq hkey, Outcome.ok_bind]
          exact husable.isLaden.project attributes r.modelNames
        apply hpairs.bind
        intro shown hladen e he
        obtain ⟨entry, hentry, rfl⟩ := List.mem_map.mp he
        have hplan : r.hasModel
            (Plan.model (.node model required attributes where_ (some relation) children)) = true := hmodel
        exact (hentries entry hentry).attachFound hkeys hplan hladen
      dsimp only
      split_ifs
      · exact hattach [] nofun
      · rw [htable, Outcome.ok_bind]
        apply (either_select_usable hdb htable (isSafe_relatedClause hfits hwhere)).bind
        intro selected hselected
        have hattached := either_attachPlans hr hkeys hdb hchildren (forall_keptAll hselected)
        have hfound : Either (fun found => ∀ record ∈ found, IsUsable r model record) IsAnswered
            (kept <$> attachPlans r db children (keptAll selected)) :=
          (hattached.imp (fun _ => forall_kept) fun _ => id).map
        apply hfound.bind
        intro found hfound
        exact hattach found hfound
    · intro record hrecord
      obtain ⟨e, he, rfl⟩ := List.mem_map.mp hrecord
      exact hentries e he

/-- Plans with safe clauses attach usable records, or are answered for. -/
theorem either_attachPlans (hr : r.IsSound) (hkeys : r.KeysApart) (hdb : db.Reads r r.CanServe) :
    ∀ {plans : List ClausePlan} {name : String} {entries : List (Record × Bool)},
    AreShaped r (fun _ (clause : Clause Comparison) => ∀ c ∈ clause.leaves, c.IsSafe) name plans →
    (∀ e ∈ entries, IsUsable r name e.1) →
    Either (fun out => ∀ e ∈ out, IsUsable r name e.1) IsAnswered (attachPlans r db plans entries)
  | [], _, _, _, hentries => hentries
  | plan :: rest, _, _, ⟨hplan, hrest⟩, hentries => by
    rw [attachPlans]
    apply (either_attachPlan hr hkeys hdb hplan hentries).bind
    intro mid hmid
    exact either_attachPlans hr hkeys hdb hrest hmid

end

end Primary

end TwinStore
