import TwinStore.Proofs.LosslessMembers

/-!
# Documents that were read

What a reader makes of a text can be written again: no integer in it is too long, and no name of an
object occurs twice.  So every record that comes from a member has a member itself, whatever was in
the text, as far as its fields are restored to values that have documents.

Main definition:

- `Cache.HasDocument`: that a value has a document.

Main results:

- Theorem `Json.isDocument_of_read`: what is read lacks no part of a document.
- Theorem `Cache.hasDocument_of_restore`: a restored value has a document, decimal numbers apart.
- Theorem `Cache.exists_encode`: a record of values that have documents has a member.
-/

namespace TwinStore

open Number

namespace Entries

variable {α : Type}

theorem mem_of_mem_set {es : Entries α} {k : String} {v : α} {e : String × α} (h : e ∈ set es k v) :
    e = (k, v) ∨ e ∈ es := by
  induction es with
  | nil => exact .inl (List.mem_singleton.mp h)
  | cons f es ih =>
    rw [set] at h
    split_ifs at h with hk
    · exact (List.mem_cons.mp h).imp (fun heq => hk ▸ heq) (List.mem_cons_of_mem f)
    · rcases List.mem_cons.mp h with rfl | h
      · exact .inr List.mem_cons_self
      · exact (ih h).imp id (List.mem_cons_of_mem f)

/-- Pairs of which later ones replace earlier ones are some of the pairs, with distinct keys. -/
theorem ofPairs_spec (pairs : List (String × α)) :
    (keys (ofPairs pairs)).Nodup ∧ ∀ e ∈ ofPairs pairs, e ∈ pairs := by
  suffices hfold : ∀ (pairs : List (String × α)) (es : Entries α), (keys es).Nodup →
      (keys (pairs.foldl (fun es e => set es e.1 e.2) es)).Nodup ∧
        ∀ e ∈ pairs.foldl (fun es e => set es e.1 e.2) es, e ∈ es ∨ e ∈ pairs by
    obtain ⟨hkeys, hmem⟩ := hfold pairs [] List.nodup_nil
    exact ⟨hkeys, fun e he => (hmem e he).resolve_left List.not_mem_nil⟩
  intro pairs
  induction pairs with
  | nil => exact fun es hes => ⟨hes, fun e he => .inl he⟩
  | cons pair pairs ih =>
    intro es hes
    obtain ⟨hkeys, hmem⟩ := ih (set es pair.1 pair.2) (nodup_keys_set hes _ _)
    refine ⟨hkeys, fun e he => ?_⟩
    rcases hmem e he with hset | hpairs
    · rcases mem_of_mem_set hset with rfl | hes
      · exact .inr List.mem_cons_self
      · exact .inl hes
    · exact .inr (List.mem_cons_of_mem pair hpairs)

end Entries

namespace Value

theorem areDocuments_iff {vs : List Value} : AreDocuments vs ↔ ∀ v ∈ vs, v.IsDocument := by
  induction vs with
  | nil => exact ⟨nofun, fun _ => trivial⟩
  | cons v vs ih => rw [AreDocuments, ih, List.forall_mem_cons]

theorem holdDocuments_iff {es : Entries Value} : HoldDocuments es ↔ ∀ e ∈ es, e.2.IsDocument := by
  induction es with
  | nil => exact ⟨nofun, fun _ => trivial⟩
  | cons e es ih => rw [HoldDocuments, ih, List.forall_mem_cons]

end Value

namespace Json

/-! ## Reading -/

variable {α β : Type}

theorem found_eq_ok {x : Option α} {a : α} : found x = .ok a ↔ x = some a := by
  cases x with
  | none => exact ⟨nofun, nofun⟩
  | some b => exact ⟨fun h => congrArg some (Except.ok.inj h), fun h => congrArg _ (Option.some.inj h)⟩

theorem Unreadable.bind_eq_ok {x : Except Unreadable α} {f : α → Except Unreadable β} {b : β} :
    x >>= f = .ok b ↔ ∃ a, x = .ok a ∧ f a = .ok b := by
  cases x with
  | error e => exact ⟨nofun, nofun⟩
  | ok a => exact ⟨fun h => ⟨a, rfl, h⟩, fun ⟨_, ha, h⟩ => Except.ok.inj ha ▸ h⟩

theorem Unreadable.map_eq_ok {x : Except Unreadable α} {f : α → β} {b : β} :
    x.map f = .ok b ↔ ∃ a, x = .ok a ∧ f a = b := by
  cases x with
  | error e => exact ⟨nofun, nofun⟩
  | ok a =>
    exact ⟨fun h => ⟨a, rfl, Except.ok.inj h⟩, fun ⟨_, ha, h⟩ => h ▸ Except.ok.inj ha ▸ rfl⟩

/-- A number is an integer or a double. -/
theorem number?_cases {negative : Bool} {cs rest : List Char} {j : Json}
    (h : number? negative cs = some (j, rest)) : (∃ n, j = .int n) ∨ ∃ x, j = .float x := by
  simp only [number?, Option.bind_eq_bind] at h
  split at h
  · cases h
  all_goals
    obtain ⟨parts, _, h⟩ := Option.bind_eq_some_iff.mp h
    obtain ⟨coefficient, _, h⟩ := Option.bind_eq_some_iff.mp h
    split at h
    · exact .inl ⟨_, (Prod.mk.inj (Option.some.inj h)).1.symm⟩
    · exact .inr ⟨_, (Prod.mk.inj (Option.some.inj h)).1.symm⟩

theorem isDocument_of_number {negative : Bool} {cs rest : List Char} {j : Json}
    (h : number negative cs = .ok (j, rest)) : j.toValue.IsDocument := by
  obtain ⟨⟨i, tail⟩, hfound, h⟩ := Unreadable.bind_eq_ok.mp h
  rcases number?_cases (found_eq_ok.mp hfound) with ⟨n, rfl⟩ | ⟨x, rfl⟩
  · simp only at h
    split_ifs at h with hlong
    obtain ⟨rfl, -⟩ := Prod.mk.inj (Except.ok.inj h)
    exact not_lt.mp hlong
  · obtain ⟨rfl, -⟩ := Prod.mk.inj (Except.ok.inj h)
    trivial

theorem eq_of_word {expected : String} {i j : Json} {cs rest : List Char}
    (h : word expected i cs = .ok (j, rest)) : j = i := by
  obtain ⟨tail, _, h⟩ := Unreadable.map_eq_ok.mp h
  exact (Prod.mk.inj h).1.symm

/-- An object of parts that lack nothing lacks nothing. -/
theorem isDocument_object {ms : List (String × Json)} (h : ∀ m ∈ ms, m.2.toValue.IsDocument) :
    (object (Entries.ofPairs ms)).toValue.IsDocument := by
  obtain ⟨hkeys, hmem⟩ := Entries.ofPairs_spec ms
  rw [toValue, toEntries_eq_map]
  refine ⟨?_, Value.holdDocuments_iff.mpr ?_⟩
  · rwa [Entries.keys, List.map_map]
  · rw [List.forall_mem_map]
    exact fun m hm => h m (hmem m hm)

/-- A list of items that lack nothing lacks nothing. -/
theorem isDocument_list {xs : List Json} (h : ∀ x ∈ xs, x.toValue.IsDocument) :
    (list xs).toValue.IsDocument := by
  rw [toValue, toValues_eq_map]
  exact Value.areDocuments_iff.mpr (List.forall_mem_map.mpr h)

mutual

theorem isDocument_of_value : ∀ (steps : Nat) {cs rest : List Char} {j : Json},
    value steps cs = .ok (j, rest) → j.toValue.IsDocument
  | 0, _, _, _, h => nomatch h
  | steps + 1, cs, rest, j, h => by
    unfold value at h
    split at h
    · obtain ⟨⟨s, tail⟩, _, h⟩ := Unreadable.map_eq_ok.mp h
      obtain ⟨rfl, -⟩ := Prod.mk.inj h
      trivial
    · split at h
      · obtain ⟨rfl, -⟩ := Prod.mk.inj (Except.ok.inj h)
        exact ⟨List.nodup_nil, trivial⟩
      · obtain ⟨⟨ms, tail⟩, hms, h⟩ := Unreadable.map_eq_ok.mp h
        obtain ⟨rfl, -⟩ := Prod.mk.inj h
        exact isDocument_object (holdDocuments_of_members steps hms)
    · split at h
      · obtain ⟨rfl, -⟩ := Prod.mk.inj (Except.ok.inj h)
        trivial
      · obtain ⟨⟨xs, tail⟩, hxs, h⟩ := Unreadable.map_eq_ok.mp h
        obtain ⟨rfl, -⟩ := Prod.mk.inj h
        exact isDocument_list (areDocuments_of_items steps hxs)
    all_goals first
      | exact isDocument_of_number h
      | (rw [eq_of_word h]; trivial)

/-- Items that were read lack nothing. -/
theorem areDocuments_of_items : ∀ (steps : Nat) {cs rest : List Char} {xs : List Json},
    items steps cs = .ok (xs, rest) → ∀ x ∈ xs, x.toValue.IsDocument
  | 0, _, _, _, h => nomatch h
  | steps + 1, cs, rest, xs, h => by
    unfold items at h
    obtain ⟨⟨item, tail⟩, hitem, h⟩ := Unreadable.bind_eq_ok.mp h
    have hfirst := isDocument_of_value steps hitem
    simp only at h
    split at h
    · obtain ⟨rfl, -⟩ := Prod.mk.inj (Except.ok.inj h)
      exact List.forall_mem_singleton.mpr hfirst
    · obtain ⟨⟨more, tail'⟩, hmore, h⟩ := Unreadable.bind_eq_ok.mp h
      obtain ⟨rfl, -⟩ := Prod.mk.inj (Except.ok.inj h)
      exact List.forall_mem_cons.mpr ⟨hfirst, areDocuments_of_items steps hmore⟩
    · cases h

/-- Members that were read lack nothing. -/
theorem holdDocuments_of_members : ∀ (steps : Nat) {cs rest : List Char}
    {ms : List (String × Json)}, members steps cs = .ok (ms, rest) →
    ∀ m ∈ ms, m.2.toValue.IsDocument
  | 0, _, _, _, h => nomatch h
  | steps + 1, cs, rest, ms, h => by
    unfold members at h
    split at h
    · obtain ⟨⟨name, tail⟩, _, h⟩ := Unreadable.bind_eq_ok.mp h
      simp only at h
      split at h
      · obtain ⟨⟨member, tail'⟩, hmember, h⟩ := Unreadable.bind_eq_ok.mp h
        have hfirst := isDocument_of_value steps hmember
        simp only at h
        split at h
        · obtain ⟨rfl, -⟩ := Prod.mk.inj (Except.ok.inj h)
          exact List.forall_mem_singleton.mpr hfirst
        · obtain ⟨⟨more, tail''⟩, hmore, h⟩ := Unreadable.bind_eq_ok.mp h
          obtain ⟨rfl, -⟩ := Prod.mk.inj (Except.ok.inj h)
          exact List.forall_mem_cons.mpr ⟨hfirst, holdDocuments_of_members steps hmore⟩
        · cases h
      · cases h
    · cases h

end

/-- What is read from a text lacks no part of a document. -/
theorem isDocument_of_read {s : String} {j : Json} (h : Json.read s = .ok j) :
    j.toValue.IsDocument := by
  unfold Json.read at h
  split at h
  · next i hparse =>
    obtain rfl := Except.ok.inj h
    obtain ⟨⟨k, rest⟩, hvalue, hparse⟩ := Unreadable.bind_eq_ok.mp hparse
    simp only at hparse
    split_ifs at hparse
    obtain rfl := Except.ok.inj hparse
    exact isDocument_of_value _ hvalue
  · cases h
  · cases h

end Json

namespace Cache

/-! ## Members -/

variable {types : Entries AttributeType} {type : Option AttributeType} {v w : Value}
  {raw : String} {record : Record}

/-- Whether a value has a document. -/
def HasDocument (v : Value) : Prop := ∃ j, document v = .ok j

/-- What is a document by itself has one. -/
theorem hasDocument_of_isDocument (h : v.IsDocument) : HasDocument v := by
  obtain ⟨j, hj, _⟩ := hasOwnDocument h
  exact ⟨j, hj⟩

/-- A record of values that have documents has a member. -/
theorem exists_encode (h : ∀ e ∈ record, HasDocument e.2) : ∃ raw, encode record = .ok raw := by
  have hmembers : ∀ e ∈ Entries.inOrder record, ∃ m, entryDocument e = .ok m ∧ True := by
    intro e he
    obtain ⟨j, hj⟩ := h e ((Entries.inOrder_perm record).mem_iff.mp he)
    exact ⟨(e.1, j), by rw [entryDocument, hj]; rfl, trivial⟩
  obtain ⟨ms, hms, _⟩ := Outcome.exists_mapM hmembers
  exact ⟨_, by rw [encode, document_map, hms]; rfl⟩

/-- The fields of a member that can be read are restored from the members of an object. -/
theorem exists_object (h : decode raw types = .ok record) :
    ∃ members, Json.read raw = .ok (.object members) ∧ ∀ e ∈ record, ∃ m ∈ members,
      m.1 = e.1 ∧ m.2.toValue.IsDocument ∧
        restore (Entries.get? types e.1) m.2.toValue = .ok e.2 := by
  obtain ⟨j, hj, h⟩ := Outcome.bind_eq_ok.mp h
  have hdocument := Json.isDocument_of_read hj
  split at h
  · next ms =>
    rw [Json.toValue, Json.toEntries_eq_map] at hdocument
    refine ⟨ms, hj, fun e he => ?_⟩
    obtain ⟨m, hm, hrestore⟩ := Outcome.exists_of_mem_mapM h he
    obtain ⟨w, hw, heq⟩ := Outcome.bind_eq_ok.mp hrestore
    obtain rfl := Except.ok.inj heq
    exact ⟨m, hm, rfl, Value.holdDocuments_iff.mp hdocument.2 _ (List.mem_map_of_mem hm), hw⟩
  · cases h

/-- The fields of a member that can be read are restored from documents. -/
theorem exists_restored (h : decode raw types = .ok record) :
    ∀ e ∈ record, ∃ v, v.IsDocument ∧ restore (Entries.get? types e.1) v = .ok e.2 := by
  obtain ⟨_, _, hfields⟩ := exists_object h
  intro e he
  obtain ⟨m, _, _, hdocument, hrestore⟩ := hfields e he
  exact ⟨m.2.toValue, hdocument, hrestore⟩

/-- A restored value has a document, if it is no decimal number or that has one. -/
theorem hasDocument_of_restore (hv : v.IsDocument) (h : restore type v = .ok w)
    (hdecimal : ∀ d, w = .decimal d → HasDocument w) : HasDocument w := by
  cases restores_of_restore h with
  | null | instant | date | uuid => exact ⟨_, rfl⟩
  | decimal => exact hdecimal _ rfl
  | undeclared | unparsed => exact hasDocument_of_isDocument hv

end Cache

end TwinStore
