import Mathlib.Data.Set.Card
import TwinStore.Proofs.DeletionTargets
import TwinStore.Proofs.SameRecords
import TwinStore.Proofs.SameUpdates

/-!
# Sets of records

A filter is true of all records that agree or of none.  So the members of a cache set spell a set of
entities, which are records up to agreement: each member spells one entity, and each entity of plain
records is spelled by one member.  What is done to members is then told by what it does to entities.

Main definitions:

- `AsksPlainly`: filters whose operands are null or values of the plain types of their attributes.
- `Entity`: records up to agreement.
- `satisfying`, `images`: the entities of a set that satisfy a predicate, and what an update makes of
  the entities of a set.
- `Spells`, `Lists`: that a member is the member of an entity, and that members spell exactly the
  entities of a set.
- `Finds`: that members with their records were found, those of the entities of a set.

Main results:

- Theorem `predicate_congr`: the predicate of a filter says the same of records that agree.
- Theorem `AsksPlainly.read`: a filter with plain operands is read as a predicate that answers.
- Theorem `Spells.entity_eq`, `Spells.member_eq`: a member spells one entity and an entity has one
  member.
- Theorem `Lists.union`, `Lists.diff`, `Lists.filter`: members of unions, differences and selections.
- Theorem `Lists.encard_eq`: there are as many entities as members.
- Theorem `entitiesOf_updated`: updated records stand for the images of what the records stand for.
-/

namespace TwinStore

open Number Calendar Filter

/-! ## Comparing -/

namespace Value.Agrees

variable {v w : Value}

/-- Values that agree are equal to the same values. -/
theorem equal?_eq (h : v.Agrees w) (other : Value) : v.equal? other = w.equal? other := by
  cases h with
  | refl => rfl
  | @decimal d e q hd he =>
    have hnumbers (number : Decimal) : equalNumbers? d number = equalNumbers? e number := by
      rw [equalNumbers?, equalNumbers?, Decimal.isSignaling_of_value? hd,
        Decimal.isSignaling_of_value? he, Decimal.compare?_congr hd he]
    cases other <;> first | exact hnumbers _ | rfl

/-- Values that agree have the same order to other values. -/
theorem order?_eq (h : v.Agrees w) (other : Value) : v.order? other = w.order? other := by
  cases h with
  | refl => rfl
  | @decimal d e q hd he =>
    cases other <;> first | exact Decimal.compare?_congr hd he _ | rfl

/-- Values that agree are members of the same lists. -/
theorem isMember?_eq (h : v.Agrees w) (others : List Value) :
    v.isMember? others = w.isMember? others := by
  induction others with
  | nil => rfl
  | cons other others ih => rw [isMember?, isMember?, h.equal?_eq, ih]

/-- An operator says the same of values that agree. -/
theorem holds_eq (h : v.Agrees w) (op : Operator) (operand : Value) :
    op.holds v operand = op.holds w operand := by
  cases op <;> simp only [Operator.holds, h.isNull_eq, h.equal?_eq, h.order?_eq, h.isMember?_eq]

/-- Values that agree are compared as values that agree, or not at all. -/
theorem comparable_eq (h : v.Agrees w) (type : Option AttributeType) :
    comparable type v = comparable type w ∨
      (comparable type v = .ok v ∧ comparable type w = .ok w) := by
  cases h with
  | refl => exact .inl rfl
  | decimal =>
    rcases type with _ | type
    · exact .inr ⟨rfl, rfl⟩
    · cases type <;> first | exact .inr ⟨rfl, rfl⟩ | exact .inl rfl

end Value.Agrees

/-! ## Filters -/

namespace Filter

variable {x y : Record}

/-- A condition says the same of records that agree. -/
theorem Check.holdsFor_congr (h : x.Agrees y) (c : Check) : c.holdsFor x = c.holdsFor y := by
  have hfield := h.fields c.field
  rw [Check.holdsFor, Check.holdsFor]
  rcases hfield.comparable_eq c.type with heq | ⟨hx, hy⟩
  · rw [heq]
  · rw [hx, hy]
    exact hfield.holds_eq c.operator c.operand

namespace Formula

mutual

/-- A formula says the same of records that agree. -/
theorem holdsFor_congr (h : x.Agrees y) : ∀ f : Formula Check, f.holdsFor x = f.holdsFor y
  | leaf c => c.holdsFor_congr h
  | conj parts => allHoldFor_congr h parts
  | disj parts => someHoldsFor_congr h parts

theorem allHoldFor_congr (h : x.Agrees y) :
    ∀ parts : List (Formula Check), allHoldFor x parts = allHoldFor y parts
  | [] => rfl
  | part :: rest => by
    rw [allHoldFor, allHoldFor, holdsFor_congr h part, allHoldFor_congr h rest]

theorem someHoldsFor_congr (h : x.Agrees y) :
    ∀ parts : List (Formula Check), someHoldsFor x parts = someHoldsFor y parts
  | [] => rfl
  | part :: rest => by
    rw [someHoldsFor, someHoldsFor, holdsFor_congr h part, someHoldsFor_congr h rest]

end

end Formula

/-- The predicate of a filter says the same of records that agree. -/
theorem predicate_congr {where_ : Value} {types : Option (Entries AttributeType)}
    {predicate : Predicate} (hread : (Predicate.ofFilter where_ types).run.2 = .ok predicate)
    (h : x.Agrees y) : predicate x = predicate y := by
  have hrun : runFrom (Predicate.ofFilter where_ types) [] =
      (.ok predicate, (Predicate.ofFilter where_ types).run.1) := Prod.ext hread rfl
  obtain ⟨f, _, _, hrest⟩ := runFrom_bind_eq_ok.mp hrun
  obtain rfl : (fun record => f.holdsFor record) = predicate :=
    Except.ok.inj (congrArg Prod.fst hrest)
  exact f.holdsFor_congr h

/-- Whether the operands of a filter are null or values of the plain types of their attributes. -/
def AsksPlainly (types : Entries AttributeType) (where_ : Value) : Prop :=
  ∀ c ∈ mentions where_, ∀ type, Entries.get? types c.field = some type →
    ∀ v ∈ c.operands, type.Spans v

variable {types : Entries AttributeType}

/-- No filter asks nothing. -/
theorem asksPlainly_null (types : Entries AttributeType) : AsksPlainly types .null := nofun

/-- A comparison of one field with a plain value asks plainly. -/
theorem asksPlainly_equals {field : String} (h : Text.isIdentifier field = true) {v : Value}
    (hv : ∀ type, Entries.get? types field = some type → type.Spans v) (hmap : v.isMap = false) :
    AsksPlainly types (.map [(field, v)]) := by
  intro c hc type htype u hu
  rw [mentions_equals h hmap, List.mem_singleton] at hc
  subst hc
  obtain rfl := List.mem_singleton.mp hu
  exact hv type htype

/-- Plain values can be compared. -/
theorem isTestable_of_spans {type : AttributeType} {v : Value} (h : type.Spans v) :
    IsTestable type v := by
  rcases h with rfl | h
  · cases type <;> trivial
  · cases h with
    | datetime hvalid hnaive =>
      rw [IsTestable, comparable_of_admits (.inr (.datetime hvalid hnaive))]
      trivial
    | decimal hd => exact Decimal.isSignaling_of_value? hd
    | _ => trivial

/-- A filter that asks plainly is a predicate that answers for every plain record, or a mistake. -/
theorem AsksPlainly.read {fields : Option (Entries Value)}
    (h : AsksPlainly types ((fields.map Value.map).getD .null)) :
    Either (fun predicate => ∀ record, Cache.IsPlain types record → ∃ b, predicate record = .ok b)
      IsMistake (Predicate.ofFilter ((fields.map Value.map).getD .null) (some types)).run.2 := by
  have hends := ofFilter_ends (E := IsMistake) (fun e => ⟨e, rfl⟩) (fun fault hfault => ?_)
    (fun c hc type htype v hv => isTestable_of_spans (h c hc type htype v hv)) []
  · exact hends.imp (fun predicate hsure record hrecord => hsure record fun field type htype =>
      isTestable_of_spans (hrecord.retains_field htype).spans) fun _ => id
  · cases fields <;> cases hfault

end Filter

/-! ## Entities -/

/-- Agreement of records. -/
def agreement : Setoid Record where
  r := Record.Agrees
  iseqv := ⟨Record.Agrees.refl, Record.Agrees.symm, Record.Agrees.trans⟩

/-- A record up to agreement: neither the order of the fields counts nor the digits by which a decimal
number is written. -/
def Entity : Type := Quotient agreement

/-- The entity that a record stands for. -/
def entityOf (x : Record) : Entity := Quotient.mk agreement x

theorem entityOf_eq_iff {x y : Record} : entityOf x = entityOf y ↔ x.Agrees y :=
  @Quotient.eq Record agreement x y

/-- The entities that some records stand for. -/
def entitiesOf (records : List Record) : Set Entity := {e | ∃ x ∈ records, entityOf x = e}

/-- The entities of a set that satisfy a predicate. -/
def satisfying (predicate : Predicate) (S : Set Entity) : Set Entity :=
  {e ∈ S | ∃ x, entityOf x = e ∧ predicate x = .ok true}

/-- What an update makes of the entities of a set. -/
def images (spec : Entries Value) (types : Entries AttributeType) (S : Set Entity) : Set Entity :=
  {e | ∃ x y, entityOf x ∈ S ∧ revise spec x types = .ok y ∧ entityOf y = e}

theorem images_empty (spec : Entries Value) (types : Entries AttributeType) :
    images spec types ∅ = ∅ :=
  Set.eq_empty_of_forall_notMem fun _ ⟨_, _, hx, _⟩ => hx

namespace Cache

variable {types : Entries AttributeType} {raw raw' : String} {e e' : Entity} {x y : Record}
  {members new old : List String} {S T : Set Entity}

/-! ## Members of entities -/

/-- Whether a member is the member of plain records that stand for an entity. -/
def Spells (types : Entries AttributeType) (raw : String) (e : Entity) : Prop :=
  ∃ x, IsPlain types x ∧ encode x = .ok raw ∧ entityOf x = e

/-- A plain record has a member. -/
theorem IsPlain.exists_spells (h : IsPlain types x) :
    ∃ raw, encode x = .ok raw ∧ Spells types raw (entityOf x) := by
  obtain ⟨raw, _, hraw, _⟩ := h.exists_read
  exact ⟨raw, hraw, x, h, hraw, rfl⟩

namespace Spells

/-- A member spells one entity. -/
theorem entity_eq (h : Spells types raw e) (h' : Spells types raw e') : e = e' := by
  obtain ⟨x, hx, hraw, rfl⟩ := h
  obtain ⟨y, hy, hraw', rfl⟩ := h'
  exact entityOf_eq_iff.mpr (hx.agrees_of_encode hy (hraw.trans hraw'.symm))

/-- An entity has one member. -/
theorem member_eq (h : Spells types raw e) (h' : Spells types raw' e) : raw = raw' := by
  obtain ⟨x, hx, hraw, rfl⟩ := h
  obtain ⟨y, _, hraw', hy⟩ := h'
  rw [← hx.encode_congr (entityOf_eq_iff.mp hy).symm, hraw] at hraw'
  exact Except.ok.inj hraw'

/-- From a member a plain record is read. -/
theorem exists_decode (h : Spells types raw e) :
    ∃ x, decode raw types = .ok x ∧ IsPlain types x ∧ entityOf x = e := by
  obtain ⟨x, hx, hraw, rfl⟩ := h
  obtain ⟨raw', read, hraw', hread, hplain, hagrees⟩ := hx.exists_read
  rw [hraw] at hraw'
  obtain rfl := Except.ok.inj hraw'
  exact ⟨read, hread, hplain, entityOf_eq_iff.mpr hagrees.symm⟩

/-- Records of a spelled entity are plain. -/
theorem isPlain (h : Spells types raw e) (hx : entityOf x = e) : IsPlain types x := by
  obtain ⟨y, hy, _, rfl⟩ := h
  exact hy.congr (entityOf_eq_iff.mp hx).symm

end Spells

/-! ## Members of sets -/

/-- Whether members spell the entities of a set, and nothing else. -/
structure Lists (types : Entries AttributeType) (members : List String) (S : Set Entity) : Prop where
  sound : ∀ raw ∈ members, ∃ e ∈ S, Spells types raw e
  complete : ∀ e ∈ S, ∃ raw ∈ members, Spells types raw e

namespace Lists

/-- A member is listed where its entity is in the set. -/
theorem mem_iff (h : Lists types members S) (he : Spells types raw e) : raw ∈ members ↔ e ∈ S := by
  constructor
  · intro hraw
    obtain ⟨e', he', hspells⟩ := h.sound raw hraw
    rwa [he.entity_eq hspells]
  · intro hmem
    obtain ⟨raw', hraw', hspells⟩ := h.complete e hmem
    rwa [he.member_eq hspells]

theorem empty (types : Entries AttributeType) : Lists types [] ∅ := ⟨nofun, nofun⟩

/-- Only what is listed matters. -/
theorem of_mem_iff (h : Lists types members S) (hmem : ∀ raw, raw ∈ new ↔ raw ∈ members) :
    Lists types new S where
  sound raw hraw := h.sound raw ((hmem raw).mp hraw)
  complete e he := by
    obtain ⟨raw, hraw, hspells⟩ := h.complete e he
    exact ⟨raw, (hmem raw).mpr hraw, hspells⟩

/-- Members that are added spell a union. -/
theorem union (h : Lists types members S) (h' : Lists types new T) :
    Lists types (members ++ new) (S ∪ T) where
  sound raw hraw := by
    rcases List.mem_append.mp hraw with hraw | hraw
    · obtain ⟨e, he, hspells⟩ := h.sound raw hraw
      exact ⟨e, .inl he, hspells⟩
    · obtain ⟨e, he, hspells⟩ := h'.sound raw hraw
      exact ⟨e, .inr he, hspells⟩
  complete e he := by
    rcases he with he | he
    · obtain ⟨raw, hraw, hspells⟩ := h.complete e he
      exact ⟨raw, List.mem_append_left new hraw, hspells⟩
    · obtain ⟨raw, hraw, hspells⟩ := h'.complete e he
      exact ⟨raw, List.mem_append_right members hraw, hspells⟩

/-- Members that are chosen as their entities are spell a part. -/
theorem filter (h : Lists types members S) {p : String → Bool} {P : Entity → Prop}
    (hp : ∀ raw e, e ∈ S → Spells types raw e → (p raw = true ↔ P e)) :
    Lists types (members.filter p) {e ∈ S | P e} where
  sound raw hraw := by
    obtain ⟨hraw, hchosen⟩ := List.mem_filter.mp hraw
    obtain ⟨e, he, hspells⟩ := h.sound raw hraw
    exact ⟨e, ⟨he, (hp raw e he hspells).mp hchosen⟩, hspells⟩
  complete e he := by
    obtain ⟨raw, hraw, hspells⟩ := h.complete e he.1
    exact ⟨raw, List.mem_filter.mpr ⟨hraw, (hp raw e he.1 hspells).mpr he.2⟩, hspells⟩

/-- Members that are left when some are removed spell a difference. -/
theorem diff (h : Lists types members S) (h' : Lists types old T) :
    Lists types (members.filter fun raw => !old.contains raw) (S \ T) := by
  refine h.filter fun raw e _ hspells => ?_
  rw [Bool.not_eq_true', ← Bool.not_eq_true, List.contains_iff_mem, h'.mem_iff hspells]

/-- There are members where there are entities. -/
theorem nonempty_iff (h : Lists types members S) : S.Nonempty ↔ members ≠ [] := by
  constructor
  · rintro ⟨e, he⟩
    obtain ⟨raw, hraw, _⟩ := h.complete e he
    exact List.ne_nil_of_mem hraw
  · intro hmembers
    obtain ⟨raw, hraw⟩ := List.exists_mem_of_ne_nil members hmembers
    obtain ⟨e, he, _⟩ := h.sound raw hraw
    exact ⟨e, he⟩

/-- Plain records have members, which spell what the records stand for. -/
theorem exists_mapM {records : List Record} (h : ∀ x ∈ records, IsPlain types x) :
    ∃ members, records.mapM encode = .ok members ∧
      Lists types members (entitiesOf records) := by
  obtain ⟨members, hmembers, _⟩ := Outcome.exists_mapM fun x hx => (h x hx).exists_spells
  refine ⟨members, hmembers, fun raw hraw => ?_, ?_⟩
  · obtain ⟨x, hx, hencode⟩ := Outcome.exists_of_mem_mapM hmembers hraw
    exact ⟨entityOf x, ⟨x, hx, rfl⟩, x, h x hx, hencode, rfl⟩
  · rintro _ ⟨x, hx, rfl⟩
    obtain ⟨raw, hraw, hencode⟩ := Outcome.exists_result_of_mem hmembers hx
    exact ⟨raw, hraw, x, h x hx, hencode, rfl⟩

/-- There are as many entities as members, if no member is listed twice. -/
theorem encard_eq (h : Lists types members S) (hnodup : members.Nodup) :
    S.encard = members.length := by
  have : Nonempty Entity := ⟨entityOf []⟩
  choose! g hmem hspells using h.sound
  have himage : S = g '' {raw | raw ∈ members} := by
    ext e
    constructor
    · intro he
      obtain ⟨raw, hraw, hspelled⟩ := h.complete e he
      exact ⟨raw, hraw, (hspells raw hraw).entity_eq hspelled⟩
    · rintro ⟨raw, hraw, rfl⟩
      exact hmem raw hraw
  have hinj : Set.InjOn g {raw | raw ∈ members} := by
    intro raw hraw raw' hraw' heq
    exact (heq ▸ hspells raw hraw).member_eq (hspells raw' hraw')
  have hset : {raw | raw ∈ members} = (members.toFinset : Set String) := by
    ext raw
    simp
  rw [himage, hinj.encard_image, hset, Set.encard_coe_eq_coe_finsetCard,
    List.toFinset_card_of_nodup hnodup]

/-- The members whose records satisfy the predicate of a filter spell the entities that do. -/
theorem satisfying (h : Lists types members S) {where_ : Value} {predicate : Predicate}
    (hread : (Predicate.ofFilter where_ (some types)).run.2 = .ok predicate) {read : String → Record}
    {p : Record → Bool} (hp : ∀ raw ∈ members, Spells types raw (entityOf (read raw)) ∧
      predicate (read raw) = .ok (p (read raw))) :
    Lists types (members.filter fun raw => p (read raw)) (satisfying predicate S) := by
  refine h.filter fun raw e he hspells => ?_
  obtain ⟨hspells', hanswer⟩ := hp raw ((h.mem_iff hspells).mpr he)
  obtain rfl := hspells.entity_eq hspells'
  constructor
  · intro hchosen
    exact ⟨read raw, rfl, by rw [hanswer, hchosen]⟩
  · rintro ⟨x, hx, htrue⟩
    rw [predicate_congr hread (entityOf_eq_iff.mp hx), hanswer] at htrue
    exact Except.ok.inj htrue

end Lists

/-! ## What is found -/

/-- Whether members that were found, with the records read from them, are those of the entities of a
set, each once. -/
structure Finds (types : Entries AttributeType) (found : List (String × Record)) (S : Set Entity) :
    Prop where
  lists : Lists types (found.map (·.1)) S
  nodup : (found.map (·.1)).Nodup
  spells : ∀ p ∈ found, Spells types p.1 (entityOf p.2)

namespace Finds

variable {found : List (String × Record)}

/-- The records that were found are plain. -/
theorem isPlain (h : Finds types found S) : ∀ x ∈ found.map (·.2), IsPlain types x := by
  intro x hx
  obtain ⟨p, hp, rfl⟩ := List.mem_map.mp hx
  exact (h.spells p hp).isPlain rfl

/-- The records that were found stand for the entities of the set. -/
theorem entitiesOf_eq (h : Finds types found S) : entitiesOf (found.map (·.2)) = S := by
  ext e
  constructor
  · rintro ⟨x, hx, rfl⟩
    obtain ⟨p, hp, rfl⟩ := List.mem_map.mp hx
    exact (h.lists.mem_iff (h.spells p hp)).mp (List.mem_map_of_mem hp)
  · intro he
    obtain ⟨raw, hraw, hspells⟩ := h.lists.complete e he
    obtain ⟨p, hp, rfl⟩ := List.mem_map.mp hraw
    exact ⟨p.2, List.mem_map_of_mem hp, (h.spells p hp).entity_eq hspells⟩

/-- Each entity was found once. -/
theorem nodup_entities (h : Finds types found S) : ((found.map (·.2)).map entityOf).Nodup := by
  rw [List.map_map]
  refine (List.Nodup.of_map _ h.nodup).map_on fun p hp q hq heq => ?_
  have hspells : Spells types p.1 (entityOf q.2) := by
    rw [← show entityOf p.2 = entityOf q.2 from heq]
    exact h.spells p hp
  exact List.inj_on_of_nodup_map h.nodup hp hq (hspells.member_eq (h.spells q hq))

/-- As many were found as there are. -/
theorem encard_eq (h : Finds types found S) : S.encard = found.length := by
  rw [h.lists.encard_eq h.nodup, List.length_map]

/-- Something was found if there is something. -/
theorem nonempty_iff (h : Finds types found S) : S.Nonempty ↔ found ≠ [] := by
  rw [h.lists.nonempty_iff, ne_eq, List.map_eq_nil_iff]

/-- Where nothing was found there is nothing. -/
theorem eq_empty (h : Finds types found S) (hempty : found.isEmpty = true) : S = ∅ := by
  rw [← Set.not_nonempty_iff_eq_empty, h.nonempty_iff, not_not]
  exact List.isEmpty_iff.mp hempty

end Finds

/-! ## Images -/

/-- Updates of plain records that stand for the entities of a set stand for their images. -/
theorem entitiesOf_updated {spec : Entries Value} (hspec : SetsPlainly types spec)
    {records updated : List Record} (hplain : ∀ x ∈ records, IsPlain types x)
    (h : records.mapM (fun x => revise spec x types) = .ok updated) :
    (∀ y ∈ updated, IsPlain types y) ∧
      entitiesOf updated = images spec types (entitiesOf records) := by
  constructor
  · intro y hy
    obtain ⟨x, hx, hxy⟩ := Outcome.exists_of_mem_mapM h hy
    exact (IsPlain.revise hspec (hplain x hx) (.refl x) hxy).1
  · ext e
    constructor
    · rintro ⟨y, hy, rfl⟩
      obtain ⟨x, hx, hxy⟩ := Outcome.exists_of_mem_mapM h hy
      exact ⟨x, y, ⟨x, hx, rfl⟩, hxy, rfl⟩
    · rintro ⟨x', y', ⟨x, hx, hagrees⟩, hxy', rfl⟩
      obtain ⟨y, hy, hxy⟩ := Outcome.exists_result_of_mem h hx
      obtain ⟨_, y'', hxy'', hagrees'⟩ :=
        IsPlain.revise hspec (hplain x hx) (entityOf_eq_iff.mp hagrees) hxy
      rw [hxy''] at hxy'
      obtain rfl := Except.ok.inj hxy'
      exact ⟨y, hy, entityOf_eq_iff.mpr hagrees'⟩

/-- If plain records can be updated, so can all records that agree with one of them. -/
theorem exists_image {spec : Entries Value} (hspec : SetsPlainly types spec)
    {records updated : List Record} (hplain : ∀ x ∈ records, IsPlain types x)
    (h : records.mapM (fun x => revise spec x types) = .ok updated) :
    ∀ x, entityOf x ∈ entitiesOf records → ∃ y, revise spec x types = .ok y := by
  rintro x ⟨x', hx', hagrees⟩
  obtain ⟨y', _, hy'⟩ := Outcome.exists_result_of_mem h hx'
  obtain ⟨_, y, hy, _⟩ := IsPlain.revise hspec (hplain x' hx') (entityOf_eq_iff.mp hagrees) hy'
  exact ⟨y, hy⟩

end Cache

end TwinStore
