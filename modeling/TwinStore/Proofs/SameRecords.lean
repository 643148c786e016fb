import TwinStore.Proofs.Alike
import TwinStore.Proofs.LosslessMembers
import TwinStore.Proofs.TameMembers

/-!
# Records that are the same

Records of plain values, which hold no others, are the same if they have the same keys and agree field
by field: their values are equal, or decimal numbers of one value.  Such records are written as one
member, and what is read from it is the same record again.

Main definitions:

- `Value.Agrees`: values that are equal, or decimal numbers of one value.
- `Record.Agrees`: records with the same keys and fields that agree.
- `AttributeType.Ranges`: the values of the plain types.
- `Cache.IsPlain`: records of such values that come back from members.

Main results:

- Theorem `Same.parts`: what is the same has the same parts.
- Theorem `Agrees.same`, `agrees_of_same`: such records are the same where they agree.
- Theorem `IsPlain.exists_read`: a plain record comes back as a plain record that is the same.
-/

namespace TwinStore

open Number Calendar

/-! ## Values that agree -/

/-- Values that are equal, or decimal numbers of one value. -/
inductive Value.Agrees : Value → Value → Prop
  | refl (v : Value) : Agrees v v
  | decimal {d e : Decimal} {q : ℚ} (hd : d.value? = some q) (he : e.value? = some q) :
      Agrees (.decimal d) (.decimal e)

namespace Value

variable {u v w : Value}

namespace Agrees

theorem symm (h : Agrees v w) : Agrees w v := by
  cases h with
  | refl => exact .refl v
  | decimal hd he => exact .decimal he hd

theorem trans (h : Agrees u v) (h' : Agrees v w) : Agrees u w := by
  cases h with
  | refl => exact h'
  | decimal hd he =>
    cases h' with
    | refl => exact .decimal hd he
    | decimal he' hf =>
      rw [he] at he'
      obtain rfl := Option.some.inj he'
      exact .decimal hd hf

/-- Values that agree are the same. -/
theorem same (h : Agrees v w) : v.Same w := by
  cases h with
  | refl => exact .refl v
  | decimal hd he => exact .decimal hd he

/-- Null agrees with null only. -/
theorem isNull_eq (h : Agrees v w) : v.isNull = w.isNull := by
  cases h <;> rfl

end Agrees

/-! ## Values that are the same -/

/-- Whether a value holds others in order. -/
def isSequence : Value → Bool
  | list _ | tuple _ => true
  | _ => false

/-- Whether a value holds others. -/
def isNested (v : Value) : Bool := v.isSequence || v.isMap

/-- Values that are the same agree, or hold others: items in order, or the same fields under the same
keys. -/
theorem Same.parts (h : Same v w) : Agrees v w ∨ (v.isSequence = true ∧ w.isSequence = true) ∨
    ∃ es fs, v = .map es ∧ w = .map fs ∧ (Entries.keys es).Perm (Entries.keys fs) ∧
      ((Entries.keys es).Nodup → ∀ k, (Record.field es k).Same (Record.field fs k)) := by
  induction h with
  | refl v => exact .inl (.refl v)
  | symm _ ih =>
    rcases ih with hagrees | ⟨hv, hw⟩ | ⟨es, fs, rfl, rfl, hkeys, hfields⟩
    · exact .inl hagrees.symm
    · exact .inr (.inl ⟨hw, hv⟩)
    · exact .inr (.inr ⟨fs, es, rfl, rfl, hkeys.symm, fun hnodup k =>
        .symm (hfields (hkeys.nodup_iff.mpr hnodup) k)⟩)
  | @trans u v w _ _ ih ih' =>
    rcases ih with hagrees | ⟨hu, hv⟩ | ⟨es, fs, rfl, rfl, hkeys, hfields⟩
    · cases hagrees with
      | refl => exact ih'
      | decimal hd he =>
        rcases ih' with hagrees' | ⟨hv, _⟩ | ⟨_, _, heq, _⟩
        · exact .inl (.trans (.decimal hd he) hagrees')
        · cases hv
        · cases heq
    · rcases ih' with hagrees' | ⟨_, hw⟩ | ⟨_, _, rfl, _⟩
      · cases hagrees' with
        | refl => exact .inr (.inl ⟨hu, hv⟩)
        | decimal => cases hv
      · exact .inr (.inl ⟨hu, hw⟩)
      · cases hv
    · rcases ih' with hagrees' | ⟨hv, _⟩ | ⟨_, gs, heq, rfl, hkeys', hfields'⟩
      · cases hagrees'
        exact .inr (.inr ⟨es, fs, rfl, rfl, hkeys, hfields⟩)
      · cases hv
      · obtain rfl := Value.map.inj heq
        exact .inr (.inr ⟨es, gs, rfl, rfl, hkeys.trans hkeys', fun hnodup k =>
          .trans (hfields hnodup k) (hfields' (hkeys.nodup_iff.mp hnodup) k)⟩)
  | decimal hd he => exact .inl (.decimal hd he)
  | item => exact .inr (.inl ⟨rfl, rfl⟩)
  | tupleItem => exact .inr (.inl ⟨rfl, rfl⟩)
  | @entries es fs h =>
    refine .inr (.inr ⟨es, fs, rfl, rfl, h.map Prod.fst, fun hnodup k => ?_⟩)
    rw [Record.field, Record.field, Entries.get?_of_perm hnodup h]
    exact .refl _
  | @entry v w before after k h _ =>
    refine .inr (.inr ⟨_, _, rfl, rfl, by simp [Entries.keys], fun _ j => ?_⟩)
    rw [Record.field, Record.field, Entries.get?_append, Entries.get?_append, Entries.get?_cons,
      Entries.get?_cons]
    cases Entries.get? before j with
    | some u => exact .refl u
    | none =>
      show Same (Option.getD (if k = j then some v else _) _) (Option.getD (if k = j then some w else _) _)
      split_ifs
      · exact h
      · exact .refl _

/-- A value that holds no others agrees with what is the same. -/
theorem Same.agrees (h : Same v w) (hv : v.isNested = false) : Agrees v w := by
  rcases h.parts with hagrees | ⟨hsequence, _⟩ | ⟨_, _, rfl, _⟩
  · exact hagrees
  · rw [isNested, hsequence] at hv
    cases hv
  · cases hv

end Value

/-! ## Records that agree -/

/-- Records with the same keys and fields that agree. -/
structure Record.Agrees (x y : Record) : Prop where
  keys : (Entries.keys x).Perm (Entries.keys y)
  fields : ∀ k, (x.field k).Agrees (y.field k)

namespace Record

variable {x y z : Record}

theorem Agrees.refl (x : Record) : x.Agrees x := ⟨.refl _, fun _ => .refl _⟩

theorem Agrees.symm (h : x.Agrees y) : y.Agrees x := ⟨h.keys.symm, fun k => (h.fields k).symm⟩

theorem Agrees.trans (h : x.Agrees y) (h' : y.Agrees z) : x.Agrees z :=
  ⟨h.keys.trans h'.keys, fun k => (h.fields k).trans (h'.fields k)⟩

/-- Setting values that agree. -/
theorem Agrees.set (h : x.Agrees y) (key : String) {v w : Value} (hvw : v.Agrees w) :
    Agrees (Entries.set x key v) (Entries.set y key w) where
  keys := by
    rw [Entries.keys_set, Entries.keys_set]
    simp only [h.keys.mem_iff]
    split_ifs
    · exact h.keys
    · exact h.keys.append_right [key]
  fields k := by
    rw [field_set, field_set]
    split_ifs
    · exact hvw
    · exact h.fields k

/-- Records that agree are the same, if no key occurs twice. -/
theorem Agrees.same (h : x.Agrees y) (hx : (Entries.keys x).Nodup) : (Value.map x).Same (.map y) := by
  have hkeys : Entries.keys (x.map fun e => (e.1, y.field e.1)) = Entries.keys x := by
    rw [Entries.keys, List.map_map]
    rfl
  have hperm : (x.map fun e => (e.1, y.field e.1)).Perm y := by
    refine perm_of_field (hkeys ▸ hx) (hkeys ▸ h.keys) fun e he => ?_
    obtain ⟨e, _, rfl⟩ := List.mem_map.mp he
    rfl
  refine .trans (.of_fields ?_) (.entries hperm)
  rw [List.forall₂_map_right_iff, List.forall₂_same]
  intro e he
  have hfield := h.fields e.1
  rw [field, Entries.get?_of_mem hx he] at hfield
  exact ⟨rfl, hfield.same⟩

/-- Records of values that hold no others agree with what is the same. -/
theorem agrees_of_same (hx : (Entries.keys x).Nodup) (hplain : ∀ k, (x.field k).isNested = false)
    (h : (Value.map x).Same (.map y)) : x.Agrees y := by
  rcases h.parts with hagrees | ⟨hsequence, _⟩ | ⟨_, _, hmap, hmap', hkeys, hfields⟩
  · cases hagrees
    exact .refl x
  · cases hsequence
  · obtain rfl := Value.map.inj hmap
    obtain rfl := Value.map.inj hmap'
    exact ⟨hkeys, fun k => (hfields hx k).agrees (hplain k)⟩

end Record

/-! ## Plain values -/

/-- The values of the plain types: points of time are naive and of the calendar, identifiers have 128
bits, and decimal numbers are finite. -/
inductive AttributeType.Ranges : AttributeType → Value → Prop
  | int (n : Int) : Ranges int (.int n)
  | str (s : String) : Ranges str (.text s)
  | text (s : String) : Ranges text (.text s)
  | bool (b : Bool) : Ranges bool (.bool b)
  | date {d : Date} (h : d.isValid = true) : Ranges date (.date d)
  | datetime {t : DateTime} (h : t.isValid = true) (hnaive : t.offset = none) :
      Ranges datetime (.instant t)
  | uuid {u : Uuid} (h : u.isValid = true) : Ranges uuid (.uuid u)
  | decimal {d : Decimal} {q : ℚ} (h : d.value? = some q) : Ranges decimal (.decimal d)

/-- Null, or a value of a plain type. -/
def AttributeType.Spans (type : AttributeType) (v : Value) : Prop := v = .null ∨ type.Ranges v

/-- Null, or a value of a plain type that comes back from members. -/
def AttributeType.Retains (type : AttributeType) (v : Value) : Prop :=
  v = .null ∨ type.Ranges v ∧ type.Keeps v

namespace Number.Decimal

/-- Numbers of one value come back alike. -/
theorem IsKept.congr {d e : Decimal} {q : ℚ} (h : d.IsKept) (hd : d.value? = some q)
    (he : e.value? = some q) : e.IsKept := by
  obtain ⟨q', hq', hkept⟩ := h
  rw [hd] at hq'
  obtain rfl := Option.some.inj hq'
  refine ⟨q, he, ?_⟩
  rcases hkept with hinteger | ⟨hfraction, hsurvives⟩
  · exact .inl hinteger
  · have hzero : q ≠ 0 := fun hzero => hfraction 0 (by rw [hzero, Int.cast_zero])
    rw [Survives, toFloat_congr hzero hd he, hd, ← he] at hsurvives
    exact .inr ⟨hfraction, hsurvives⟩

end Number.Decimal

namespace AttributeType

variable {type : AttributeType} {v w : Value}

theorem Retains.spans (h : type.Retains v) : type.Spans v := h.imp id And.left

/-- Plain values hold no others. -/
theorem Spans.isNested (h : type.Spans v) : v.isNested = false := by
  rcases h with rfl | h
  · rfl
  · cases h <;> rfl

/-- What agrees with a value that is retained is retained. -/
theorem Retains.congr (h : type.Retains v) (hvw : v.Agrees w) : type.Retains w := by
  cases hvw with
  | refl => exact h
  | decimal hd he =>
    rcases h with heq | ⟨hranges, hkeeps⟩
    · cases heq
    · cases hranges
      cases hkeeps with
      | decimal hkept => exact .inr ⟨.decimal he, .decimal (hkept.congr hd he)⟩

end AttributeType

namespace Cache

/-! ## Plain records -/

variable {types : Entries AttributeType} {x y : Record}

/-- Whether a record has attributes only, each once, and in them null or values of their plain types
that come back from members. -/
structure IsPlain (types : Entries AttributeType) (x : Record) : Prop where
  nodup : (Entries.keys x).Nodup
  retains : ∀ e ∈ x, ∃ type, Entries.get? types e.1 = some type ∧ type.Retains e.2

namespace IsPlain

theorem isKept (h : IsPlain types x) : IsKept types x where
  nodup := h.nodup
  keeps e he := by
    obtain ⟨type, htype, hretains⟩ := h.retains e he
    exact hretains.imp id fun hvalue => ⟨type, htype, hvalue.2⟩

/-- A field of an attribute holds null or a value of its type. -/
theorem retains_field (h : IsPlain types x) {k : String} {type : AttributeType}
    (htype : Entries.get? types k = some type) : type.Retains (x.field k) := by
  rw [Record.field]
  cases hget : Entries.get? x k with
  | none => exact .inl rfl
  | some v =>
    obtain ⟨type', htype', hretains⟩ := h.retains _ (Entries.mem_of_get? hget)
    rw [htype] at htype'
    obtain rfl := Option.some.inj htype'
    exact hretains

/-- The fields of a plain record hold no others. -/
theorem isNested_field (h : IsPlain types x) (k : String) : (x.field k).isNested = false := by
  rw [Record.field]
  cases hget : Entries.get? x k with
  | none => rfl
  | some v =>
    obtain ⟨type, _, hretains⟩ := h.retains _ (Entries.mem_of_get? hget)
    exact hretains.spans.isNested

/-- What agrees with a plain record is plain. -/
theorem congr (h : IsPlain types x) (hxy : x.Agrees y) : IsPlain types y := by
  have hnodup : (Entries.keys y).Nodup := hxy.keys.nodup_iff.mp h.nodup
  refine ⟨hnodup, fun e he => ?_⟩
  obtain ⟨v, hv⟩ := Entries.exists_get? (hxy.keys.mem_iff.mpr (Entries.mem_keys_of_mem he))
  obtain ⟨type, htype, hretains⟩ := h.retains _ (Entries.mem_of_get? hv)
  have hfield := hxy.fields e.1
  rw [Record.field, Record.field, hv, Entries.get?_of_mem hnodup he] at hfield
  exact ⟨type, htype, hretains.congr hfield⟩

/-- Setting a value that is retained. -/
theorem set (h : IsPlain types x) {k : String} {type : AttributeType}
    (htype : Entries.get? types k = some type) {v : Value} (hv : type.Retains v) :
    IsPlain types (Entries.set x k v) where
  nodup := Entries.nodup_keys_set h.nodup k v
  retains e he := by
    rcases Entries.mem_of_mem_set he with rfl | he
    · exact ⟨type, htype, hv⟩
    · exact h.retains e he

/-- Plain records that agree have one member. -/
theorem encode_congr (h : IsPlain types x) (hxy : x.Agrees y) : encode x = encode y := by
  have hdistinct : (Value.map x).HasDistinctKeys := by
    refine ⟨h.nodup, Value.holdDistinctKeys_iff.mpr fun e he => ?_⟩
    obtain ⟨type, _, hretains⟩ := h.retains e he
    have hplain := hretains.spans.isNested
    cases hvalue : e.2 <;> first | trivial | (rw [hvalue] at hplain; cases hplain)
  rw [encode, encode, (hxy.same h.nodup).document_eq hdistinct]

/-- A plain record comes back as a plain record that agrees with it. -/
theorem exists_read (h : IsPlain types x) : ∃ raw read, encode x = .ok raw ∧
    decode raw types = .ok read ∧ IsPlain types read ∧ x.Agrees read := by
  obtain ⟨raw, read, hraw, hread, hsame⟩ := exists_read_back h.nodup h.isKept.comesBack
  have hagrees : x.Agrees read := Record.agrees_of_same h.nodup h.isNested_field hsame.symm
  exact ⟨raw, read, hraw, hread, h.congr hagrees, hagrees⟩

/-- Plain records with one member agree. -/
theorem agrees_of_encode (hx : IsPlain types x) (hy : IsPlain types y)
    (h : encode x = encode y) : x.Agrees y := by
  obtain ⟨raw, read, hraw, hread, _, hagrees⟩ := hx.exists_read
  obtain ⟨raw', read', hraw', hread', _, hagrees'⟩ := hy.exists_read
  rw [h, hraw'] at hraw
  obtain rfl := Except.ok.inj hraw
  rw [hread] at hread'
  obtain rfl := Except.ok.inj hread'
  exact hagrees.trans hagrees'.symm

end IsPlain

end Cache

end TwinStore
