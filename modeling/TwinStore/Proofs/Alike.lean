import Mathlib.Data.List.Perm.Basic
import TwinStore.Proofs.Entries
import TwinStore.Proofs.Typing
import TwinStore.Twin.Reading

/-!
# Records in another order

The two stores return the fields of a record, and the records of an answer, in orders of their own.
Answers are compared up to these orders.

Main definitions:

- `Value.Alike`: values that differ in the order of items and entries only.
- `Matched`: lists that can be paired off by a relation.
- `Model.Carries`: a record that has values of the attributes of a model, whatever else it has.
- `Model.Matches`: such records that agree, related records compared up to order.

Main results:

- Theorem `Alike.of_fields`: maps with alike fields are alike.
- Theorem `Alike.parts`: what is alike has alike parts.
- Theorem `Alike.eq_of_admits`: values of attributes are alike to themselves only.
- Theorem `Matched.filter`, `Matched.map`: lists stay paired off under what treats pairs alike.
-/

namespace TwinStore

/-! ## Values -/

/-- Values that are the same up to the order of the items of lists and of the entries of maps, at
every level. -/
inductive Value.Alike : Value → Value → Prop
  | refl (v : Value) : Alike v v
  | symm {v w : Value} (h : Alike v w) : Alike w v
  | trans {u v w : Value} (h : Alike u v) (h' : Alike v w) : Alike u w
  | items {vs ws : List Value} (h : vs.Perm ws) : Alike (.list vs) (.list ws)
  | item {v w : Value} {vs ws : List Value} (h : Alike v w) (hrest : Alike (.list vs) (.list ws)) :
      Alike (.list (v :: vs)) (.list (w :: ws))
  | entries {es fs : Entries Value} (h : es.Perm fs) : Alike (.map es) (.map fs)
  | entry {v w : Value} {es fs : Entries Value} (k : String) (h : Alike v w)
      (hrest : Alike (.map es) (.map fs)) : Alike (.map ((k, v) :: es)) (.map ((k, w) :: fs))

namespace Value.Alike

/-- Lists of alike items are alike. -/
theorem of_forall₂ {vs ws : List Value} (h : List.Forall₂ Alike vs ws) :
    Alike (.list vs) (.list ws) := by
  induction h with
  | nil => exact .refl _
  | cons h _ ih => exact .item h ih

/-- Maps with the same keys and alike fields are alike. -/
theorem of_fields {x y : Record} (hnodup : (Entries.keys x).Nodup)
    (hkeys : (Entries.keys x).Perm (Entries.keys y))
    (hfields : ∀ k, Alike (x.field k) (y.field k)) : Alike (.map x) (.map y) := by
  induction x generalizing y with
  | nil =>
    have hy : y = [] := by simpa [Entries.keys] using hkeys.symm.eq_nil
    rw [hy]
    exact .refl _
  | cons e x ih =>
    obtain ⟨k, v⟩ := e
    have hnodup' : (Entries.keys y).Nodup := hkeys.nodup_iff.mp hnodup
    rw [Entries.keys_cons, List.nodup_cons] at hnodup
    obtain ⟨w, hw⟩ := Entries.exists_get? (hkeys.mem_iff.mp List.mem_cons_self)
    obtain ⟨before, after, rfl⟩ := List.append_of_mem (Entries.mem_of_get? hw)
    have hperm : (before ++ (k, w) :: after).Perm ((k, w) :: (before ++ after)) :=
      List.perm_middle
    have hrest : (Entries.keys x).Perm (Entries.keys (before ++ after)) :=
      (hkeys.trans (hperm.map Prod.fst)).cons_inv
    have hfield (j : String) : Record.field (before ++ (k, w) :: after) j =
        Record.field ((k, w) :: (before ++ after)) j := by
      rw [Record.field, Record.field, Entries.get?_of_perm hnodup' hperm]
    have hfirst := hfields k
    rw [hfield, Record.field, Record.field, Entries.get?_cons, Entries.get?_cons, if_pos rfl,
      if_pos rfl] at hfirst
    refine .trans (.entry k hfirst (ih hnodup.2 hrest fun j => ?_)) (.entries hperm.symm)
    by_cases hj : k = j
    · have hnone : Entries.get? x j = none :=
        Entries.get?_eq_none_iff.mpr (by rw [← hj]; exact hnodup.1)
      have hnone' : Entries.get? (before ++ after) j = none :=
        Entries.get?_eq_none_iff.mpr (by rw [← hj, ← hrest.mem_iff]; exact hnodup.1)
      rw [Record.field, Record.field, hnone, hnone']
      exact .refl _
    · have hother := hfields j
      rw [hfield, Record.field, Record.field, Entries.get?_cons, Entries.get?_cons, if_neg hj,
        if_neg hj] at hother
      exact hother

end Value.Alike

/-! ## Lists -/

/-- Whether lists can be paired off by a relation. -/
def Matched {α β : Type} (R : α → β → Prop) (xs : List α) (ys : List β) : Prop :=
  ∃ zs, xs.Perm zs ∧ List.Forall₂ R zs ys

namespace Matched

variable {α β γ δ : Type} {R : α → β → Prop} {S : γ → δ → Prop} {xs xs' : List α} {ys ys' : List β}

/-- The order of the first list does not matter. -/
theorem perm_left (h : Matched R xs ys) (hperm : xs'.Perm xs) : Matched R xs' ys := by
  obtain ⟨zs, hzs, hall⟩ := h
  exact ⟨zs, hperm.trans hzs, hall⟩

/-- The order of the second list does not matter. -/
theorem perm_right (h : Matched R xs ys) (hperm : ys.Perm ys') : Matched R xs ys' := by
  obtain ⟨zs, hzs, hall⟩ := h
  obtain ⟨ws, hall', hws⟩ := List.perm_comp_forall₂ hperm.symm hall.flip
  exact ⟨ws, hzs.trans hws.symm, hall'.flip⟩

/-- A list is paired off with itself. -/
theorem refl {R : α → α → Prop} (h : ∀ x ∈ xs, R x x) : Matched R xs xs :=
  ⟨xs, List.Perm.refl _, List.forall₂_same.mpr h⟩

/-- Pairs can be read from the second list to the first. -/
theorem symm (h : Matched R xs ys) : Matched (fun y x => R x y) ys xs := by
  obtain ⟨zs, hzs, hall⟩ := h
  obtain ⟨ws, hall', hws⟩ := List.perm_comp_forall₂ hzs hall
  exact ⟨ws, hws.symm, hall'.flip⟩

/-- Lists that are paired off with one list are paired off with each other. -/
theorem trans {R' : β → γ → Prop} {T : α → γ → Prop} {zs : List γ} (h : Matched R xs ys)
    (h' : Matched R' ys zs) (htrans : ∀ x y z, R x y → R' y z → T x z) : Matched T xs zs := by
  obtain ⟨ys', hys', hall'⟩ := h'
  obtain ⟨xs', hxs', hall⟩ := h.perm_right hys'
  refine ⟨xs', hxs', ?_⟩
  clear h hys' hxs'
  induction hall generalizing zs with
  | nil =>
    cases hall'
    exact .nil
  | cons hxy _ ih =>
    cases hall' with
    | cons hyz hrest => exact .cons (htrans _ _ _ hxy hyz) (ih hrest)

/-- Lists of the images of one list are paired off. -/
theorem of_map {f : δ → α} {g : δ → β} {ds : List δ} (h : ∀ c ∈ ds, R (f c) (g c)) :
    Matched R (ds.map f) (ds.map g) := by
  refine ⟨ds.map f, List.Perm.refl _, ?_⟩
  rw [List.forall₂_map_left_iff, List.forall₂_map_right_iff, List.forall₂_same]
  exact h

/-- Selecting from both lists by what holds of both items of a pair or of none. -/
theorem filter (h : Matched R xs ys) {p : α → Bool} {q : β → Bool}
    (hpq : ∀ x y, R x y → p x = q y) : Matched R (xs.filter p) (ys.filter q) := by
  obtain ⟨zs, hzs, hall⟩ := h
  refine ⟨zs.filter p, hzs.filter p, ?_⟩
  clear hzs
  induction hall with
  | nil => exact .nil
  | @cons x y zs ys hxy _ ih =>
    rw [List.filter_cons, List.filter_cons, hpq x y hxy]
    split_ifs
    · exact .cons hxy ih
    · exact ih

/-- Changing both lists so that pairs stay pairs. -/
theorem map (h : Matched R xs ys) {f : α → γ} {g : β → δ} (hfg : ∀ x y, R x y → S (f x) (g y)) :
    Matched S (xs.map f) (ys.map g) := by
  obtain ⟨zs, hzs, hall⟩ := h
  refine ⟨zs.map f, hzs.map f, ?_⟩
  rw [List.forall₂_map_left_iff, List.forall₂_map_right_iff]
  exact hall.imp hfg

/-- Pairs of a relation are pairs of a weaker one. -/
theorem imp {R' : α → β → Prop} (h : Matched R xs ys) (himp : ∀ x y, R x y → R' x y) :
    Matched R' xs ys := by
  obtain ⟨zs, hzs, hall⟩ := h
  exact ⟨zs, hzs, hall.imp himp⟩

/-- Lists that are paired off are both empty or neither is. -/
theorem isEmpty_eq (h : Matched R xs ys) : xs.isEmpty = ys.isEmpty := by
  obtain ⟨zs, hzs, hall⟩ := h
  rw [hzs.isEmpty_eq]
  cases hall <;> rfl

/-- Every item of the first list has a partner. -/
theorem exists_of_mem (h : Matched R xs ys) {x : α} (hx : x ∈ xs) : ∃ y ∈ ys, R x y := by
  obtain ⟨zs, hzs, hall⟩ := h
  have hx := hzs.mem_iff.mp hx
  clear hzs
  induction hall with
  | nil => cases hx
  | @cons z y zs ys hzy _ ih =>
    rcases List.mem_cons.mp hx with rfl | hx
    · exact ⟨y, List.mem_cons_self, hzy⟩
    · obtain ⟨y', hy', hxy⟩ := ih hx
      exact ⟨y', List.mem_cons_of_mem y hy', hxy⟩

/-- Lists of values that are paired off as alike are alike. -/
theorem alike {vs ws : List Value} (h : Matched Value.Alike vs ws) :
    Value.Alike (.list vs) (.list ws) := by
  obtain ⟨zs, hzs, hall⟩ := h
  exact .trans (.items hzs) (.of_forall₂ hall)

end Matched

/-! ## Parts of alike values -/

namespace Value.Alike

variable {v w : Value}

/-- Values that are alike are the same, lists with alike items or maps with alike fields. -/
theorem parts (h : Alike v w) : v = w ∨
    (∃ vs ws, v = .list vs ∧ w = .list ws ∧ Matched Alike vs ws) ∨
    ∃ es fs, v = .map es ∧ w = .map fs ∧ (Entries.keys es).Perm (Entries.keys fs) ∧
      ((Entries.keys es).Nodup → ∀ k, (Record.field es k).Alike (Record.field fs k)) := by
  induction h with
  | refl v => exact .inl rfl
  | symm _ ih =>
    rcases ih with rfl | ⟨vs, ws, rfl, rfl, hmatched⟩ | ⟨es, fs, rfl, rfl, hkeys, hfields⟩
    · exact .inl rfl
    · exact .inr (.inl ⟨ws, vs, rfl, rfl, hmatched.symm.imp fun _ _ => .symm⟩)
    · exact .inr (.inr ⟨fs, es, rfl, rfl, hkeys.symm, fun hnodup k =>
        .symm (hfields (hkeys.nodup_iff.mpr hnodup) k)⟩)
  | trans _ _ ih ih' =>
    rcases ih with rfl | ⟨vs, ws, rfl, rfl, hmatched⟩ | ⟨es, fs, rfl, rfl, hkeys, hfields⟩
    · exact ih'
    · rcases ih' with rfl | ⟨_, us, heq, rfl, hmatched'⟩ | ⟨_, _, heq, _⟩
      · exact .inr (.inl ⟨vs, ws, rfl, rfl, hmatched⟩)
      · obtain rfl := Value.list.inj heq
        exact .inr (.inl ⟨vs, us, rfl, rfl, hmatched.trans hmatched' fun _ _ _ => .trans⟩)
      · cases heq
    · rcases ih' with rfl | ⟨_, _, heq, _⟩ | ⟨_, gs, heq, rfl, hkeys', hfields'⟩
      · exact .inr (.inr ⟨es, fs, rfl, rfl, hkeys, hfields⟩)
      · cases heq
      · obtain rfl := Value.map.inj heq
        exact .inr (.inr ⟨es, gs, rfl, rfl, hkeys.trans hkeys', fun hnodup k =>
          .trans (hfields hnodup k) (hfields' (hkeys.nodup_iff.mp hnodup) k)⟩)
  | items h => exact .inr (.inl ⟨_, _, rfl, rfl, (Matched.refl fun v _ => .refl v).perm_left h⟩)
  | @item v w vs ws h _ _ ih =>
    refine .inr (.inl ⟨_, _, rfl, rfl, ?_⟩)
    obtain ⟨zs, hzs, hall⟩ : Matched Alike vs ws := by
      rcases ih with heq | ⟨_, _, heq, heq', hmatched⟩ | ⟨_, _, heq, _⟩
      · rw [Value.list.inj heq]
        exact Matched.refl fun v _ => .refl v
      · rwa [Value.list.inj heq, Value.list.inj heq']
      · cases heq
    exact ⟨v :: zs, hzs.cons v, .cons h hall⟩
  | @entries es fs h =>
    refine .inr (.inr ⟨es, fs, rfl, rfl, h.map Prod.fst, fun hnodup k => ?_⟩)
    rw [Record.field, Record.field, Entries.get?_of_perm hnodup h]
    exact .refl _
  | @entry v w es fs k h _ _ ih =>
    obtain ⟨hkeys, hfields⟩ : (Entries.keys es).Perm (Entries.keys fs) ∧
        ((Entries.keys es).Nodup → ∀ k, (Record.field es k).Alike (Record.field fs k)) := by
      rcases ih with heq | ⟨_, _, heq, _⟩ | ⟨_, _, heq, heq', hrest⟩
      · rw [Value.map.inj heq]
        exact ⟨.refl _, fun _ _ => .refl _⟩
      · cases heq
      · rwa [Value.map.inj heq, Value.map.inj heq']
    refine .inr (.inr ⟨_, _, rfl, rfl, hkeys.cons k, fun hnodup j => ?_⟩)
    rw [Entries.keys_cons, List.nodup_cons] at hnodup
    rw [Record.field, Record.field, Entries.get?_cons, Entries.get?_cons]
    split_ifs
    · exact h
    · exact hfields hnodup.2 j

/-- Null and the values of an attribute type are alike to themselves only. -/
theorem eq_of_admits {type : AttributeType} (hv : type.Admits v) (h : Alike v w) : v = w := by
  rcases h.parts with heq | ⟨_, _, rfl, _⟩ | ⟨_, _, rfl, _⟩
  · exact heq
  · rcases hv with heq | hholds
    · cases heq
    · cases hholds
  · rcases hv with heq | hholds
    · cases heq
    · cases hholds

/-- A map is alike to maps only, which have the same keys and alike fields. -/
theorem exists_map {x : Record} (h : Alike (.map x) w) : ∃ y : Record, w = .map y ∧
    (Entries.keys x).Perm (Entries.keys y) ∧
    ((Entries.keys x).Nodup → ∀ k, (x.field k).Alike (y.field k)) := by
  rcases h.parts with rfl | ⟨_, _, heq, _⟩ | ⟨_, y, heq, rfl, hparts⟩
  · exact ⟨x, rfl, .refl _, fun _ _ => .refl _⟩
  · cases heq
  · obtain rfl := Value.map.inj heq
    exact ⟨y, rfl, hparts⟩

end Value.Alike

/-! ## Records -/

/-- A field changes alone. -/
theorem Record.field_set (record : Record) (key other : String) (v : Value) :
    Record.field (Entries.set record key v) other =
      if other = key then v else record.field other := by
  by_cases h : other = key
  · rw [if_pos h, h, Record.field, Entries.get?_set_self]
    rfl
  · rw [if_neg h, Record.field, Entries.get?_set_of_ne _ _ h]
    rfl

/-- A record with the same keys, none twice, and the same fields is the same but for the order. -/
theorem Record.perm_of_field {x y : Record} (hnodup : (Entries.keys x).Nodup)
    (hkeys : (Entries.keys x).Perm (Entries.keys y)) (hfield : ∀ e ∈ x, y.field e.1 = e.2) :
    x.Perm y := by
  have hsub : x ⊆ y := by
    intro e he
    obtain ⟨v, hv⟩ := Entries.exists_get? (hkeys.mem_iff.mp (Entries.mem_keys_of_mem he))
    have hvalue := hfield e he
    rw [Record.field, hv, Option.getD_some] at hvalue
    rw [show e = (e.1, v) from Prod.ext rfl hvalue.symm]
    exact Entries.mem_of_get? hv
  have hlength : y.length ≤ x.length := by
    simpa only [Entries.keys, List.length_map] using hkeys.length_eq.ge
  exact (List.subperm_of_subset hnodup.of_map hsub).perm_of_length_le hlength

/-- Whether a record has values of the attributes of a model, whatever else it has. -/
structure Model.Carries (m : Model) (record : Record) : Prop where
  nodup : (Entries.keys record).Nodup
  admits : ∀ a ∈ m.attributes, a.type.Admits (record.field a.name)

/-- Whether two records carry the same values of the attributes of a model, and agree in all else up
to order. -/
structure Model.Matches (m : Model) (x y : Record) : Prop where
  carries : m.Carries x
  keys : (Entries.keys x).Perm (Entries.keys y)
  fields : ∀ k, (x.field k).Alike (y.field k)
  same : ∀ a ∈ m.attributes, x.field a.name = y.field a.name

namespace Model

variable {m : Model} {x y : Record}

/-- A record matches itself. -/
theorem Carries.matches (h : m.Carries x) : m.Matches x x where
  carries := h
  keys := List.Perm.refl _
  fields := fun _ => .refl _
  same := fun _ _ => rfl

/-- The order of the fields does not matter. -/
theorem Carries.matches_perm (h : m.Carries x) (hperm : x.Perm y) : m.Matches x y := by
  have hfield (k : String) : x.field k = y.field k := by
    rw [Record.field, Record.field, Entries.get?_of_perm h.nodup hperm]
  refine ⟨h, hperm.map Prod.fst, fun k => ?_, fun a _ => hfield a.name⟩
  rw [hfield k]
  exact .refl _

/-- What is attached under another name leaves the attributes alone. -/
theorem Carries.set (h : m.Carries x) {key : String} (hkey : ∀ a ∈ m.attributes, a.name ≠ key)
    (v : Value) : m.Carries (Entries.set x key v) := by
  refine ⟨Entries.nodup_keys_set h.nodup key v, fun a ha => ?_⟩
  rw [Record.field_set, if_neg (hkey a ha)]
  exact h.admits a ha

namespace Matches

/-- Attaching alike values under another name. -/
theorem set (h : m.Matches x y) {key : String} (hkey : ∀ a ∈ m.attributes, a.name ≠ key)
    {v w : Value} (hvw : v.Alike w) : m.Matches (Entries.set x key v) (Entries.set y key w) := by
  refine ⟨h.carries.set hkey v, ?_, fun k => ?_, fun a ha => ?_⟩
  · rw [Entries.keys_set, Entries.keys_set]
    simp only [h.keys.mem_iff]
    split_ifs
    · exact h.keys
    · exact h.keys.append_right _
  · rw [Record.field_set, Record.field_set]
    split_ifs
    · exact hvw
    · exact h.fields k
  · rw [Record.field_set, Record.field_set, if_neg (hkey a ha), if_neg (hkey a ha)]
    exact h.same a ha

/-- Records that match are alike. -/
theorem alike (h : m.Matches x y) : (Value.map x).Alike (.map y) :=
  .of_fields h.carries.nodup h.keys h.fields

/-- Leaving out the same fields of both. -/
theorem alike_filter (h : m.Matches x y) (p : String → Bool) :
    (Value.map (x.filter fun e => p e.1)).Alike (.map (y.filter fun e => p e.1)) := by
  have hkeys (es : Record) :
      Entries.keys (es.filter fun e => p e.1) = (Entries.keys es).filter p := by
    rw [Entries.keys, Entries.keys, List.filter_map]
    rfl
  have hfield (es : Record) (k : String) :
      Record.field (es.filter fun e => p e.1) k = if p k then es.field k else .null := by
    induction es with
    | nil => simp [Record.field]
    | cons e es ih =>
      obtain ⟨j, v⟩ := e
      simp only [Record.field] at ih ⊢
      rw [List.filter_cons, Entries.get?_cons]
      by_cases hj : j = k
      · subst hj
        by_cases hp : p j = true
        · simp [hp, Entries.get?_cons]
        · simp only [hp, if_false, Bool.false_eq_true] at ih ⊢
          exact ih
      · by_cases hp : p j = true
        · simp only [hp, if_true, Entries.get?_cons, if_neg hj]
          exact ih
        · simp only [hp, if_neg hj, Bool.false_eq_true, if_false]
          exact ih
  refine .of_fields ?_ ?_ fun k => ?_
  · rw [hkeys]
    exact h.carries.nodup.filter p
  · rw [hkeys, hkeys]
    exact h.keys.filter p
  · rw [hfield, hfield]
    split_ifs
    · exact h.fields k
    · exact .refl _

/-- Records that match are alike in the fields that are shown. -/
theorem alike_project (h : m.Matches x y) (wanted : Option (List String)) (kept : List String) :
    (Value.map (x.project wanted kept)).Alike (.map (y.project wanted kept)) := by
  cases wanted with
  | none => exact h.alike
  | some names => exact h.alike_filter fun k => names.contains k || kept.contains k

end Matches

end Model

/-- Answers that are paired off are alike. -/
theorem Matched.alike_asValue {m : Model} {xs ys : List Record} (h : Matched m.Matches xs ys) :
    (Twin.asValue xs).Alike (Twin.asValue ys) :=
  Matched.alike (h.map fun _ _ hxy => hxy.alike)

end TwinStore
