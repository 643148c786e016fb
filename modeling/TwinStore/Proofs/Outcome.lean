import Mathlib.Data.List.Forall2
import TwinStore.Fault

/-!
# Outcomes step by step

A computation in steps has a result exactly when every step has one.

Main definitions:

- `Outcome.get`: the result, where there is one.

Main results:

- Theorem `Outcome.bind_eq_ok`: a result of two steps comes from a result of the first.
- Theorem `Outcome.mapM_eq_ok_iff`: a list of results has one result for each item.
-/

namespace TwinStore.Outcome

variable {α β : Type}

/-- The result of an outcome, for an outcome that has one. -/
def get [Inhabited α] : Outcome α → α
  | .ok a => a
  | .error _ => default

/-- A result that is known as an option. -/
theorem eq_ok_of_toOption {ε : Type} {x : Except ε α} {a : α} (h : x.toOption = some a) : x = .ok a := by
  cases x with
  | error => cases h
  | ok b => rw [Option.some.inj h]

/-- A result of two steps comes from a result of the first. -/
theorem bind_eq_ok {x : Outcome α} {f : α → Outcome β} {b : β} :
    x >>= f = .ok b ↔ ∃ a, x = .ok a ∧ f a = .ok b := by
  cases x with
  | error fault =>
    constructor
    · intro h
      cases h
    · rintro ⟨a, h, _⟩
      cases h
  | ok a => exact ⟨fun h => ⟨a, rfl, h⟩, by rintro ⟨_, ⟨⟩, h⟩; exact h⟩

/-- Two steps fail as one of them does. -/
theorem bind_eq_error {x : Outcome α} {f : α → Outcome β} {fault : Fault} :
    x >>= f = .error fault ↔ x = .error fault ∨ ∃ a, x = .ok a ∧ f a = .error fault := by
  cases x with
  | error fault' =>
    constructor
    · intro h
      exact .inl (congrArg _ (Except.error.inj h))
    · rintro (h | ⟨a, h, _⟩)
      · exact congrArg _ (Except.error.inj h)
      · cases h
  | ok a =>
    constructor
    · intro h
      exact .inr ⟨a, rfl, h⟩
    · rintro (h | ⟨_, ⟨⟩, h⟩)
      · cases h
      · exact h

/-- A changed result comes from a result. -/
theorem map_eq_ok {x : Outcome α} {f : α → β} {b : β} :
    x.map f = .ok b ↔ ∃ a, x = .ok a ∧ f a = b := by
  cases x with
  | error fault =>
    constructor
    · intro h
      cases h
    · rintro ⟨a, h, _⟩
      cases h
  | ok a =>
    constructor
    · intro h
      exact ⟨a, rfl, Except.ok.inj h⟩
    · rintro ⟨_, ⟨⟩, rfl⟩
      rfl

@[simp]
theorem ok_bind (a : α) (f : α → Outcome β) : (Except.ok a : Outcome α) >>= f = f a := rfl

@[simp]
theorem error_bind (fault : Fault) (f : α → Outcome β) :
    (Except.error fault : Outcome α) >>= f = .error fault := rfl

@[simp]
theorem pure_eq_ok (a : α) : (pure a : Outcome α) = .ok a := rfl

/-- The results of a list, one after another. -/
theorem mapM_cons (f : α → Outcome β) (a : α) (as : List α) :
    (a :: as).mapM f = f a >>= fun b => as.mapM f >>= fun bs => .ok (b :: bs) :=
  List.mapM_cons

/-- A list of results has one result for each item. -/
theorem mapM_eq_ok_iff {f : α → Outcome β} {as : List α} {bs : List β} :
    as.mapM f = .ok bs ↔ List.Forall₂ (fun a b => f a = .ok b) as bs := by
  induction as generalizing bs with
  | nil =>
    rw [List.mapM_nil, List.forall₂_nil_left_iff, pure_eq_ok, Except.ok.injEq, eq_comm]
  | cons a as ih =>
    rw [mapM_cons, bind_eq_ok, List.forall₂_cons_left_iff]
    constructor
    · rintro ⟨b, hb, h⟩
      obtain ⟨bs', hbs, h⟩ := bind_eq_ok.mp h
      cases h
      exact ⟨b, bs', hb, ih.mp hbs, rfl⟩
    · rintro ⟨b, bs', hb, hbs, rfl⟩
      exact ⟨b, hb, bind_eq_ok.mpr ⟨bs', ih.mpr hbs, rfl⟩⟩

/-- A list of results holds the result of each item, in order. -/
theorem eq_map_of_mapM [Inhabited β] {f : α → Outcome β} {as : List α} {bs : List β}
    (h : as.mapM f = .ok bs) : bs = as.map (fun a => (f a).get) ∧ ∀ a ∈ as, f a = .ok (f a).get := by
  rw [mapM_eq_ok_iff] at h
  induction h with
  | nil => exact ⟨rfl, by simp⟩
  | cons hb _ ih =>
    refine ⟨?_, ?_⟩
    · rw [List.map_cons, hb, ← ih.1]
      rfl
    · intro a ha
      rcases List.mem_cons.mp ha with rfl | ha
      · rw [hb]
        rfl
      · exact ih.2 a ha

/-- Each result in a list is the result of an item. -/
theorem exists_of_mem_mapM {f : α → Outcome β} {as : List α} {bs : List β}
    (h : as.mapM f = .ok bs) {b : β} (hb : b ∈ bs) : ∃ a ∈ as, f a = .ok b := by
  rw [mapM_eq_ok_iff] at h
  induction h with
  | nil => cases hb
  | @cons a b' as bs hfirst _ ih =>
    rcases List.mem_cons.mp hb with rfl | hb
    · exact ⟨a, List.mem_cons_self, hfirst⟩
    · obtain ⟨a', ha', hf⟩ := ih hb
      exact ⟨a', List.mem_cons_of_mem a ha', hf⟩

/-- Each item of a list with results has one. -/
theorem exists_result_of_mem {f : α → Outcome β} {as : List α} {bs : List β}
    (h : as.mapM f = .ok bs) {a : α} (ha : a ∈ as) : ∃ b ∈ bs, f a = .ok b := by
  rw [mapM_eq_ok_iff] at h
  induction h with
  | nil => cases ha
  | @cons a' b as bs hfirst _ ih =>
    rcases List.mem_cons.mp ha with rfl | ha
    · exact ⟨b, List.mem_cons_self, hfirst⟩
    · obtain ⟨b', hb', hf⟩ := ih ha
      exact ⟨b', List.mem_cons_of_mem b hb', hf⟩

/-- A list of results fails as the result of an item does. -/
theorem exists_error_of_mapM {f : α → Outcome β} {as : List α} {fault : Fault}
    (h : as.mapM f = .error fault) : ∃ a ∈ as, f a = .error fault := by
  induction as with
  | nil => cases h
  | cons a as ih =>
    rw [mapM_cons] at h
    rcases bind_eq_error.mp h with hfirst | ⟨b, _, h⟩
    · exact ⟨a, List.mem_cons_self, hfirst⟩
    · rcases bind_eq_error.mp h with hrest | ⟨bs, _, h⟩
      · obtain ⟨a', ha', hfault⟩ := ih hrest
        exact ⟨a', List.mem_cons_of_mem a ha', hfault⟩
      · cases h

/-- What all results have from their items, the list of results has from the list. -/
theorem map_eq_of_mapM {γ : Type} {f : α → Outcome β} {g : α → γ} {g' : β → γ} {as : List α}
    {bs : List β} (h : as.mapM f = .ok bs) (hf : ∀ a b, f a = .ok b → g' b = g a) :
    bs.map g' = as.map g := by
  rw [mapM_eq_ok_iff] at h
  induction h with
  | nil => rfl
  | cons hfirst _ ih => rw [List.map_cons, List.map_cons, ih, hf _ _ hfirst]

/-- Results that are known item by item. -/
theorem mapM_eq_ok {f : α → Outcome β} {g : α → β} {as : List α}
    (h : ∀ a ∈ as, f a = .ok (g a)) : as.mapM f = .ok (as.map g) := by
  rw [mapM_eq_ok_iff, List.forall₂_map_right_iff, List.forall₂_same]
  exact h

/-- The results of a list in another order are its results in another order. -/
theorem exists_mapM_of_perm [Inhabited β] {f : α → Outcome β} {as as' : List α} {bs : List β}
    (h : as.mapM f = .ok bs) (hperm : as'.Perm as) : ∃ bs', as'.mapM f = .ok bs' ∧ bs'.Perm bs := by
  obtain ⟨rfl, hresult⟩ := eq_map_of_mapM h
  exact ⟨_, mapM_eq_ok fun a ha => hresult a (hperm.mem_iff.mp ha), hperm.map _⟩

/-- The results of two lists together. -/
theorem mapM_append {f : α → Outcome β} {as as' : List α} {bs bs' : List β}
    (h : as.mapM f = .ok bs) (h' : as'.mapM f = .ok bs') :
    (as ++ as').mapM f = .ok (bs ++ bs') := by
  rw [mapM_eq_ok_iff] at h h' ⊢
  exact List.rel_append h h'

/-- Results that exist for what belongs to the items, each related to the item. -/
theorem exists_mapM_of_forall₂ {γ : Type} {f : β → Outcome γ} {R : α → β → Prop}
    {S : α → γ → Prop} {as : List α} {bs : List β} (h : List.Forall₂ R as bs)
    (hf : ∀ a b, R a b → ∃ c, f b = .ok c ∧ S a c) :
    ∃ cs, bs.mapM f = .ok cs ∧ List.Forall₂ S as cs := by
  induction h with
  | nil => exact ⟨[], rfl, .nil⟩
  | cons hR _ ih =>
    obtain ⟨c, hc, hS⟩ := hf _ _ hR
    obtain ⟨cs, hcs, hall⟩ := ih
    refine ⟨c :: cs, ?_, .cons hS hall⟩
    rw [mapM_cons, hc, ok_bind, hcs, ok_bind]

/-- Results that exist item by item, each related to its item. -/
theorem exists_mapM {f : α → Outcome β} {R : α → β → Prop} {as : List α}
    (h : ∀ a ∈ as, ∃ b, f a = .ok b ∧ R a b) :
    ∃ bs, as.mapM f = .ok bs ∧ List.Forall₂ R as bs := by
  have hself : List.Forall₂ (fun a b => a ∈ as ∧ a = b) as as :=
    List.forall₂_same.mpr fun a ha => ⟨ha, rfl⟩
  refine exists_mapM_of_forall₂ hself ?_
  rintro a _ ⟨ha, rfl⟩
  exact h a ha

/-- Results that exist item by item, each with a property. -/
theorem exists_mapM_all {f : α → Outcome β} {P : β → Prop} {as : List α}
    (h : ∀ a ∈ as, ∃ b, f a = .ok b ∧ P b) : ∃ bs, as.mapM f = .ok bs ∧ ∀ b ∈ bs, P b := by
  obtain ⟨bs, hbs, _⟩ := exists_mapM h
  refine ⟨bs, hbs, fun b hb => ?_⟩
  obtain ⟨a, ha, hf⟩ := exists_of_mem_mapM hbs hb
  obtain ⟨b', hb', hP⟩ := h a ha
  rw [hf] at hb'
  exact Except.ok.inj hb' ▸ hP

/-- A selection whose answers are known item by item. -/
theorem filterM_eq_ok {f : α → Outcome Bool} {p : α → Bool} {as : List α}
    (h : ∀ a ∈ as, f a = .ok (p a)) : as.filterM f = .ok (as.filter p) := by
  have hselect (before : List α) :
      as.filterAuxM f before = .ok ((as.filter p).reverse ++ before) := by
    induction as generalizing before with
    | nil => rfl
    | cons a as ih =>
      have hrest := ih fun b hb => h b (List.mem_cons_of_mem a hb)
      rw [List.filterAuxM, h a List.mem_cons_self, ok_bind, hrest, List.filter_cons]
      cases p a <;> simp
  rw [List.filterM, hselect, ok_bind]
  simp

end TwinStore.Outcome
