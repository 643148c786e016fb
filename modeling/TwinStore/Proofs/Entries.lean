import Mathlib.Data.List.Nodup
import Mathlib.Data.List.Perm.Basic
import Mathlib.Data.String.Basic
import TwinStore.Proofs.Outcome
import TwinStore.Update.Basic
import TwinStore.Value.Sorted

/-!
# Entries under keys

Entries are looked up by the first occurrence of a key.  As long as no key occurs twice, the order
of the entries does not matter to that.

Main definitions:

- `inOrder`: the entries in the order of their keys.
- `Cache.revised`: the value that an update gives to a field of a record.

Main results:

- Theorem `get?_of_mem`, `get?_eq_some_iff`: with distinct keys, looking up a key finds its entry.
- Theorem `get?_set_self`, `get?_set_of_ne`, `keys_set`: what a change of one entry does.
- Theorem `get?_of_perm`: the order of the entries does not matter.
- Theorem `inOrder_eq_of_perm`: entries with distinct keys are told by their order of keys.
- Theorem `revise_eq_foldlM`, `revise_induction`: an update sets one field after another.
-/

namespace TwinStore.Entries

variable {α β : Type}

/-! ## Looking up -/

@[simp]
theorem get?_nil (key : String) : get? ([] : Entries α) key = none := rfl

/-- The first entry is tried first. -/
theorem get?_cons (k : String) (a : α) (es : Entries α) (key : String) :
    get? ((k, a) :: es) key = if k = key then some a else get? es key := by
  by_cases h : k = key <;> simp [get?, h]

@[simp]
theorem keys_nil : keys ([] : Entries α) = [] := rfl

@[simp]
theorem keys_cons (e : String × α) (es : Entries α) : keys (e :: es) = e.1 :: keys es := rfl

@[simp]
theorem keys_append (es fs : Entries α) : keys (es ++ fs) = keys es ++ keys fs :=
  List.map_append

/-- What is found is an entry. -/
theorem mem_of_get? {es : Entries α} {key : String} {a : α} (h : get? es key = some a) :
    (key, a) ∈ es := by
  induction es with
  | nil => cases h
  | cons e es ih =>
    obtain ⟨k, b⟩ := e
    rw [get?_cons] at h
    split_ifs at h with hk
    · rw [hk, Option.some.inj h]
      exact List.mem_cons_self
    · exact List.mem_cons_of_mem _ (ih h)

/-- Nothing is found exactly where the key does not occur. -/
theorem get?_eq_none_iff {es : Entries α} {key : String} :
    get? es key = none ↔ key ∉ keys es := by
  induction es with
  | nil => simp
  | cons e es ih =>
    obtain ⟨k, b⟩ := e
    rw [get?_cons, keys_cons, List.mem_cons, not_or]
    split_ifs with hk
    · simp [hk]
    · rw [ih]
      exact ⟨fun h => ⟨fun hkey => hk hkey.symm, h⟩, And.right⟩

/-- A key that occurs is found. -/
theorem exists_get? {es : Entries α} {key : String} (h : key ∈ keys es) :
    ∃ a, get? es key = some a :=
  Option.ne_none_iff_exists'.mp fun hnone => get?_eq_none_iff.mp hnone h

/-- Having a key is finding something under it. -/
theorem has_iff {es : Entries α} {key : String} : has es key = true ↔ key ∈ keys es := by
  rw [has, Option.isSome_iff_ne_none, Ne, get?_eq_none_iff, not_not]

/-- The key of an entry occurs. -/
theorem mem_keys_of_mem {es : Entries α} {e : String × α} (h : e ∈ es) : e.1 ∈ keys es :=
  List.mem_map_of_mem h

/-- With distinct keys an entry is found under its key. -/
theorem get?_of_mem {es : Entries α} (hkeys : (keys es).Nodup) {key : String} {a : α}
    (h : (key, a) ∈ es) : get? es key = some a := by
  induction es with
  | nil => cases h
  | cons e es ih =>
    obtain ⟨k, b⟩ := e
    rw [keys_cons, List.nodup_cons] at hkeys
    rw [get?_cons]
    rcases List.mem_cons.mp h with heq | hmem
    · cases heq
      exact if_pos rfl
    · rw [if_neg, ih hkeys.2 hmem]
      rintro rfl
      exact hkeys.1 (List.mem_map.mpr ⟨_, hmem, rfl⟩)

/-- With distinct keys, finding and occurring are the same. -/
theorem get?_eq_some_iff {es : Entries α} (hkeys : (keys es).Nodup) {key : String} {a : α} :
    get? es key = some a ↔ (key, a) ∈ es :=
  ⟨mem_of_get?, get?_of_mem hkeys⟩

/-- With distinct keys the order of the entries does not matter. -/
theorem get?_of_perm {es fs : Entries α} (hkeys : (keys es).Nodup) (h : es.Perm fs)
    (key : String) : get? es key = get? fs key := by
  have hkeys' : (keys fs).Nodup := (h.map Prod.fst).nodup_iff.mp hkeys
  refine Option.ext fun a => ?_
  rw [get?_eq_some_iff hkeys, get?_eq_some_iff hkeys', h.mem_iff]

/-- Looking up in several lists one after another. -/
theorem get?_append (es fs : Entries α) (key : String) :
    get? (es ++ fs) key = (get? es key).or (get? fs key) := by
  induction es with
  | nil => rfl
  | cons e es ih =>
    obtain ⟨k, b⟩ := e
    rw [List.cons_append, get?_cons, get?_cons, ih]
    split_ifs <;> rfl

/-- Looking up after all values were changed. -/
theorem get?_map (f : α → β) (es : Entries α) (key : String) :
    get? (es.map fun e => (e.1, f e.2)) key = (get? es key).map f := by
  induction es with
  | nil => rfl
  | cons e es ih =>
    obtain ⟨k, b⟩ := e
    rw [List.map_cons, get?_cons, get?_cons, ih]
    split_ifs <;> rfl

/-- Looking up among values that are listed under the names of some things. -/
theorem get?_map_of_mem {γ : Type} {name : γ → String} {items : List γ} (f : γ → α)
    (hnames : (items.map name).Nodup) {c : γ} (hc : c ∈ items) :
    get? (items.map fun c => (name c, f c)) (name c) = some (f c) := by
  refine get?_of_mem ?_ (List.mem_map.mpr ⟨c, hc, rfl⟩)
  rwa [keys, List.map_map]

/-- A selection of entries by their keys keeps what is under a selected key. -/
theorem get?_filter (p : String → Bool) (es : Entries α) (key : String) :
    get? (es.filter fun e => p e.1) key = if p key = true then get? es key else none := by
  induction es with
  | nil => simp
  | cons e es ih =>
    obtain ⟨k, a⟩ := e
    by_cases hk : k = key
    · subst hk
      cases hp : p k <;> simp [hp, ih, get?_cons]
    · cases hp : p k <;> simp [hp, ih, get?_cons, hk]

/-! ## Changing -/

/-- The changed entry is found as it is now. -/
theorem get?_set_self (es : Entries α) (key : String) (a : α) :
    get? (set es key a) key = some a := by
  induction es with
  | nil => simp [set, get?_cons]
  | cons e es ih =>
    obtain ⟨k, b⟩ := e
    rw [set]
    split_ifs with hk
    · rw [get?_cons, if_pos hk]
    · rw [get?_cons, if_neg hk, ih]

/-- The other entries are found as before. -/
theorem get?_set_of_ne (es : Entries α) {key other : String} (a : α) (h : other ≠ key) :
    get? (set es key a) other = get? es other := by
  induction es with
  | nil => simp [set, get?_cons, h.symm]
  | cons e es ih =>
    obtain ⟨k, b⟩ := e
    rw [set]
    split_ifs with hk
    · rw [get?_cons, get?_cons, if_neg (by rw [hk]; exact h.symm),
        if_neg (by rw [hk]; exact h.symm)]
    · rw [get?_cons, get?_cons, ih]

/-- Setting a value and changing all values may be done in either order. -/
theorem set_map (f : α → β) (es : Entries α) (key : String) (a : α) :
    set (es.map fun e => (e.1, f e.2)) key (f a) = (set es key a).map fun e => (e.1, f e.2) := by
  induction es with
  | nil => rfl
  | cons e es ih =>
    obtain ⟨k, b⟩ := e
    rw [List.map_cons, set, set]
    split_ifs
    · rfl
    · rw [ih, List.map_cons]

/-- Of two changes of one entry the later one stays. -/
theorem set_set (es : Entries α) (key : String) (a b : α) :
    set (set es key a) key b = set es key b := by
  induction es with
  | nil => simp [set]
  | cons e es ih =>
    obtain ⟨k, c⟩ := e
    rw [set, set]
    split_ifs with hk
    · rw [set, if_pos hk]
    · rw [set, if_neg hk, ih]

/-- An entry that is there is not changed. -/
theorem set_get? {es : Entries α} {key : String} {a : α} (h : get? es key = some a) :
    set es key a = es := by
  induction es with
  | nil => cases h
  | cons e es ih =>
    obtain ⟨k, b⟩ := e
    rw [get?_cons] at h
    rw [set]
    split_ifs at h ⊢ with hk
    · rw [Option.some.inj h]
    · rw [ih h]

/-- A changed entry keeps its place, a new one comes at the end. -/
theorem keys_set (es : Entries α) (key : String) (a : α) :
    keys (set es key a) = if key ∈ keys es then keys es else keys es ++ [key] := by
  induction es with
  | nil => rfl
  | cons e es ih =>
    obtain ⟨k, b⟩ := e
    rw [set]
    by_cases hk : k = key
    · simp [hk]
    · rw [if_neg hk, keys_cons, ih, keys_cons]
      by_cases hmem : key ∈ keys es
      · simp [hmem]
      · simp [hmem, Ne.symm hk]

/-- A change keeps keys distinct. -/
theorem nodup_keys_set {es : Entries α} (hkeys : (keys es).Nodup) (key : String) (a : α) :
    (keys (set es key a)).Nodup := by
  rw [keys_set]
  split_ifs with hmem
  · exact hkeys
  · exact List.nodup_append.mpr ⟨hkeys, List.nodup_singleton key, by
      rintro k hk _ hkey rfl
      exact hmem (List.mem_singleton.mp hkey ▸ hk)⟩

/-- Pairs of distinct keys are the entries that they make. -/
theorem ofPairs_eq_self {es : Entries α} (hkeys : (keys es).Nodup) : ofPairs es = es := by
  suffices h : ∀ before : Entries α, (keys (before ++ es)).Nodup →
      es.foldl (fun entries e => set entries e.1 e.2) before = before ++ es from h [] hkeys
  clear hkeys
  induction es with
  | nil => intro before _; simp
  | cons e es ih =>
    obtain ⟨k, a⟩ := e
    intro before hnodup
    have hnew : ∀ before : Entries α, k ∉ keys before → set before k a = before ++ [(k, a)] := by
      intro before hk
      induction before with
      | nil => rfl
      | cons f before ih =>
        obtain ⟨k', b⟩ := f
        rw [keys_cons, List.mem_cons, not_or] at hk
        rw [set, if_neg (Ne.symm hk.1), ih hk.2, List.cons_append]
    have hk : k ∉ keys before := by
      rw [keys_append, List.nodup_append] at hnodup
      intro hmem
      exact hnodup.2.2 k hmem k (by simp) rfl
    rw [List.foldl_cons, hnew before hk, ih _ (by simpa using hnodup)]
    simp

/-! ## Sorting -/

/-- Inserting an entry in order adds that entry. -/
theorem insertSorted_perm (key : String) (a : α) (es : Entries α) :
    (insertSorted key a es).Perm ((key, a) :: es) := by
  induction es with
  | nil => exact List.Perm.refl _
  | cons e es ih =>
    obtain ⟨k, b⟩ := e
    rw [insertSorted]
    split_ifs
    · exact List.Perm.refl _
    · exact (ih.cons (k, b)).trans (List.Perm.swap _ _ _)

/-- Inserting a new entry keeps the keys in order. -/
theorem pairwise_insertSorted {key : String} (a : α) {es : Entries α}
    (hes : es.Pairwise fun e f => e.1 < f.1) (hkey : key ∉ keys es) :
    (insertSorted key a es).Pairwise fun e f => e.1 < f.1 := by
  induction es with
  | nil => exact List.pairwise_singleton _ _
  | cons e es ih =>
    obtain ⟨k, b⟩ := e
    rw [List.pairwise_cons] at hes
    rw [keys_cons, List.mem_cons, not_or] at hkey
    rw [insertSorted]
    split_ifs with hlt
    · refine List.pairwise_cons.mpr ⟨fun f hf => ?_, List.pairwise_cons.mpr hes⟩
      rcases List.mem_cons.mp hf with rfl | hf
      · exact hlt
      · exact hlt.trans (hes.1 f hf)
    · refine List.pairwise_cons.mpr ⟨fun f hf => ?_, ih hes.2 hkey.2⟩
      rcases List.mem_cons.mp ((insertSorted_perm key a es).mem_iff.mp hf) with rfl | hf
      · exact lt_of_le_of_ne (not_lt.mp hlt) (Ne.symm hkey.1)
      · exact hes.1 f hf

/-- Entries whose keys are in order are told by what they are, not by where they came from. -/
theorem eq_of_perm_of_pairwise {es fs : Entries α} (h : es.Perm fs)
    (hes : es.Pairwise fun e f => e.1 < f.1) (hfs : fs.Pairwise fun e f => e.1 < f.1) : es = fs :=
  h.eq_of_pairwise (fun _ _ _ _ hab hba => absurd (hab.trans hba) (lt_irrefl _)) hes hfs

/-- The entries in the order of their keys. -/
def inOrder : Entries α → Entries α
  | [] => []
  | (k, a) :: es => insertSorted k a (inOrder es)

/-- The entries in order are the entries. -/
theorem inOrder_perm (es : Entries α) : (inOrder es).Perm es := by
  induction es with
  | nil => exact List.Perm.refl _
  | cons e es ih => exact (insertSorted_perm e.1 e.2 _).trans (ih.cons e)

/-- The keys in order are the keys. -/
theorem keys_inOrder (es : Entries α) : (keys (inOrder es)).Perm (keys es) :=
  (inOrder_perm es).map Prod.fst

/-- Distinct keys are put in order. -/
theorem pairwise_inOrder {es : Entries α} (hkeys : (keys es).Nodup) :
    (inOrder es).Pairwise fun e f => e.1 < f.1 := by
  induction es with
  | nil => exact List.Pairwise.nil
  | cons e es ih =>
    rw [keys_cons, List.nodup_cons] at hkeys
    exact pairwise_insertSorted e.2 (ih hkeys.2) fun hmem =>
      hkeys.1 ((keys_inOrder es).mem_iff.mp hmem)

/-- Entries with distinct keys have one order of keys. -/
theorem inOrder_eq_of_perm {es fs : Entries α} (hkeys : (keys es).Nodup) (h : es.Perm fs) :
    inOrder es = inOrder fs :=
  eq_of_perm_of_pairwise ((inOrder_perm es).trans (h.trans (inOrder_perm fs).symm))
    (pairwise_inOrder hkeys) (pairwise_inOrder ((h.map Prod.fst).nodup_iff.mp hkeys))

/-- Changing the values does not matter to the order. -/
theorem inOrder_map (f : α → β) (es : Entries α) :
    inOrder (es.map fun e => (e.1, f e.2)) = (inOrder es).map fun e => (e.1, f e.2) := by
  have hinsert (k : String) (a : α) (es : Entries α) :
      insertSorted k (f a) (es.map fun e => (e.1, f e.2)) =
        (insertSorted k a es).map fun e => (e.1, f e.2) := by
    induction es with
    | nil => rfl
    | cons e es ih =>
      simp only [List.map_cons, insertSorted]
      split_ifs
      · rfl
      · rw [ih, List.map_cons]
  induction es with
  | nil => rfl
  | cons e es ih => rw [List.map_cons, inOrder, ih, hinsert, inOrder]

end TwinStore.Entries

/-- Entries are sorted at every level by sorting their values and putting them in order. -/
theorem TwinStore.Value.sortedEntries_eq (es : List (String × Value)) :
    sortedEntries es = (Entries.inOrder es).map fun e => (e.1, e.2.sorted) := by
  rw [← Entries.inOrder_map]
  induction es with
  | nil => rfl
  | cons e es ih => rw [sortedEntries, ih, List.map_cons, Entries.inOrder]

/-! ## Updates of records -/

/-- The value that an update gives to a field of a record. -/
def TwinStore.Cache.revised (types : Entries AttributeType) (record : Record) (field : String)
    (v : Value) : Outcome Value := do
  coerceFor field (Entries.get? types field) (← newValue record field v)

namespace TwinStore

open Cache

variable {types : Entries AttributeType} {record updated : Record} {spec : Entries Value}

/-- A field gets the new value in the form of the field. -/
theorem revised_eq_ok {field : String} {v u : Value} : revised types record field v = .ok u ↔
    ∃ w, newValue record field v = .ok w ∧ coerceFor field (Entries.get? types field) w = .ok u :=
  Outcome.bind_eq_ok

/-- New values are made of the record before the update, whatever was set already. -/
theorem revise_eq_foldlM (spec : Entries Value) (record : Record) (types : Entries AttributeType) :
    revise spec record types =
      spec.foldlM (fun before e => (revised types record e.1 e.2).map (Entries.set before e.1)) record := by
  unfold revise
  congr 1
  funext before e
  obtain ⟨field, v⟩ := e
  dsimp only [revised]
  cases newValue record field v with
  | error fault => rfl
  | ok value => cases coerceFor field (Entries.get? types field) value <;> rfl

/-- What a record has, and keeps when a new value is set, it has after an update. -/
theorem revise_induction {P : Record → Prop} (h : revise spec record types = .ok updated)
    (hrecord : P record)
    (hset : ∀ before, P before → ∀ e ∈ spec, ∀ v, revised types record e.1 e.2 = .ok v →
      P (Entries.set before e.1 v)) : P updated := by
  rw [revise_eq_foldlM] at h
  suffices hfold : ∀ before, P before → spec.foldlM (fun before e =>
      (revised types record e.1 e.2).map (Entries.set before e.1)) before = .ok updated → P updated from
    hfold record hrecord h
  clear h
  induction spec with
  | nil => exact fun before hbefore h => Except.ok.inj h ▸ hbefore
  | cons e spec ih =>
    intro before hbefore h
    rw [List.foldlM_cons] at h
    obtain ⟨after, hafter, h⟩ := Outcome.bind_eq_ok.mp h
    obtain ⟨v, hv, rfl⟩ := Outcome.map_eq_ok.mp hafter
    exact ih (fun before hbefore e he => hset before hbefore e (List.mem_cons_of_mem _ he)) _
      (hset before hbefore e List.mem_cons_self v hv) h

end TwinStore
