import Mathlib
import TwinStore.Proofs.CacheEndings
import TwinStore.Proofs.Members
import TwinStore.Proofs.ServerSets
import TwinStore.Proofs.WrittenRows

/-!
# What the answer to an update tells

An update of the cache removes the old members and adds the new ones in two commands, each of which
can fail.  Its answer tells which of the two steps were taken, and so what is left in the set.

Main definitions:

- `Matches`, `Renews`: which members an update replaces, and by which.
- `Tells`: what an answer says of the set.

Main result:

- Theorem `update_tells_set`: the answer tells the set, and every set of another model stays.
-/

namespace TwinStore.Cache

open Action Filter

variable {d : Deployment} {model : String} {spec where_ : Value} {raw text : String}

/-! ## Members that are replaced -/

/-- Whether a member can be read and satisfies a filter. -/
def Matches (d : Deployment) (model : String) (where_ : Value) (raw : String) : Prop :=
  ∃ predicate record,
    (Predicate.ofFilter where_ (some (d.registry.attributeTypes model))).run.2 = .ok predicate ∧
    decode raw (d.registry.attributeTypes model) = .ok record ∧ predicate record = .ok true

/-- Whether a member stands for the record of another one after an update. -/
def Renews (d : Deployment) (model : String) (spec : Value) (raw text : String) : Prop :=
  ∃ record fields updated, decode raw (d.registry.attributeTypes model) = .ok record ∧
    spec.entries = .ok fields ∧
    revise fields record (d.registry.attributeTypes model) = .ok updated ∧
    memberOf d.registry.modelNames (.map updated) = .ok text

/-- What the answer to an update says of a set, given the members that were in it, those of them that
match, and those that renew the matching ones. -/
def Tells (old matched renewed new : Set String) : Option ChangeCounts → Prop
  | none => new = old
  | some ⟨found, updated, staleCopies⟩ =>
    found = matched.ncard ∧ (found = 0 → new = old) ∧
    (updated = found → staleCopies = false → new = (old \ matched) ∪ renewed) ∧
    (staleCopies = true → updated = found ∧ new = old ∪ renewed) ∧
    (updated ≠ found → updated = 0 ∧ staleCopies = false ∧ new = old \ matched)

/-- The set of a model. -/
def heldSet (d : Deployment) (model : String) (s : Stores) : Set String :=
  {raw | raw ∈ s.server.members (setKey d model)}

/-- The members of the set of a model that match a filter. -/
def matchedSet (d : Deployment) (model : String) (where_ : Value) (s : Stores) : Set String :=
  {raw ∈ heldSet d model s | Matches d model where_ raw}

/-- The members that renew matching ones. -/
def renewedSet (d : Deployment) (model : String) (spec where_ : Value) (s : Stores) : Set String :=
  {text | ∃ raw ∈ matchedSet d model where_ s, Renews d model spec raw text}

theorem mem_matchedIn {members : List String} {e : String × Record} :
    e ∈ matchedIn d model where_ members ↔ e.1 ∈ members ∧
      decode e.1 (d.registry.attributeTypes model) = .ok e.2 ∧ ∃ predicate,
      (Predicate.ofFilter where_ (some (d.registry.attributeTypes model))).run.2 = .ok predicate ∧
      predicate e.2 = .ok true := by
  rw [matchedIn]
  cases (Predicate.ofFilter where_ (some (d.registry.attributeTypes model))).run.2 with
  | error fault => simp
  | ok predicate =>
    simp only [List.mem_filterMap, matchedBy_eq_some, Except.ok.injEq, exists_eq_left']
    constructor
    · rintro ⟨raw, hmem, rfl, hdecode, htrue⟩
      exact ⟨hmem, hdecode, htrue⟩
    · rintro ⟨hmem, hdecode, htrue⟩
      exact ⟨e.1, hmem, rfl, hdecode, htrue⟩

/-- A matching member is found once. -/
theorem nodup_matchedIn {members : List String} (hmembers : members.Nodup) :
    ((matchedIn d model where_ members).map (·.1)).Nodup := by
  rw [matchedIn]
  cases (Predicate.ofFilter where_ (some (d.registry.attributeTypes model))).run.2 with
  | error fault => exact List.nodup_nil
  | ok predicate =>
    rw [List.map_filterMap]
    refine hmembers.filterMap fun raw raw' b hraw hraw' => ?_
    obtain ⟨e, he, rfl⟩ := Option.map_eq_some_iff.mp hraw
    obtain ⟨e', he', heq⟩ := Option.map_eq_some_iff.mp hraw'
    rw [← (matchedBy_eq_some.mp he).1, ← (matchedBy_eq_some.mp he').1]
    exact heq.symm

theorem matchedSet_eq (s : Stores) : matchedSet d model where_ s =
    {raw | raw ∈ (matchedIn d model where_ (s.server.members (setKey d model))).map (·.1)} := by
  ext raw
  simp only [matchedSet, heldSet, Matches, Set.mem_ofPred_eq, List.mem_map, mem_matchedIn]
  constructor
  · rintro ⟨hmem, predicate, record, hfilter, hdecode, htrue⟩
    exact ⟨(raw, record), ⟨hmem, hdecode, predicate, hfilter, htrue⟩, rfl⟩
  · rintro ⟨e, ⟨hmem, hdecode, predicate, hfilter, htrue⟩, rfl⟩
    exact ⟨hmem, predicate, e.2, hfilter, hdecode, htrue⟩

theorem ncard_matchedSet {s : Stores} (hs : AreSorted s.server.sets) :
    (matchedSet d model where_ s).ncard =
      (matchedIn d model where_ (s.server.members (setKey d model))).length := by
  have hnodup := @nodup_matchedIn d model where_ (s.server.members _) (hs.nodup (setKey d model))
  have hfinset : matchedSet d model where_ s = ((matchedIn d model where_
      (s.server.members (setKey d model))).map (·.1)).toFinset := by
    rw [matchedSet_eq, List.coe_toFinset]
  rw [hfinset, Set.ncard_coe_finset, List.toFinset_card_of_nodup hnodup, List.length_map]

/-- A member has one record, and one member renews it. -/
theorem Renews.unique {text' : String} (hrenews : Renews d model spec raw text)
    (hrenews' : Renews d model spec raw text') : text = text' := by
  obtain ⟨record, fields, updated, hdecode, hfields, hupdated, htext⟩ := hrenews
  obtain ⟨record', fields', updated', hdecode', hfields', hupdated', htext'⟩ := hrenews'
  rw [hdecode] at hdecode'
  obtain rfl := Except.ok.inj hdecode'
  rw [hfields] at hfields'
  obtain rfl := Except.ok.inj hfields'
  rw [hupdated] at hupdated'
  obtain rfl := Except.ok.inj hupdated'
  exact Except.ok.inj (htext.symm.trans htext')

section

variable {found : List (String × Record)} {members : List String}

/-- Each found member is renewed by a member of the updated records. -/
theorem exists_renewed
    (hfound : ∀ e ∈ found, decode e.1 (d.registry.attributeTypes model) = .ok e.2)
    (hmembers : updatedMembers d model spec (found.map (·.2)) = .ok members)
    {e : String × Record} (he : e ∈ found) : ∃ text ∈ members, Renews d model spec e.1 text := by
  obtain ⟨fields, hfields, hmembers⟩ := Outcome.bind_eq_ok.mp hmembers
  obtain ⟨updated, hupdated, hmembers⟩ := Outcome.bind_eq_ok.mp hmembers
  obtain ⟨u, hu, hrevised⟩ := Outcome.exists_result_of_mem hupdated (List.mem_map_of_mem he)
  obtain ⟨text, htext, hencoded⟩ := Outcome.exists_result_of_mem hmembers hu
  exact ⟨text, htext, e.2, fields, u, hfound e he, hfields, hrevised, hencoded⟩

/-- Each member of the updated records renews a found member. -/
theorem exists_found_of_renewed
    (hfound : ∀ e ∈ found, decode e.1 (d.registry.attributeTypes model) = .ok e.2)
    (hmembers : updatedMembers d model spec (found.map (·.2)) = .ok members)
    (htext : text ∈ members) : ∃ e ∈ found, Renews d model spec e.1 text := by
  obtain ⟨fields, hfields, hmembers⟩ := Outcome.bind_eq_ok.mp hmembers
  obtain ⟨updated, hupdated, hmembers⟩ := Outcome.bind_eq_ok.mp hmembers
  obtain ⟨u, hu, hencoded⟩ := Outcome.exists_of_mem_mapM hmembers htext
  obtain ⟨record, hrecord, hrevised⟩ := Outcome.exists_of_mem_mapM hupdated hu
  obtain ⟨e, he, rfl⟩ := List.mem_map.mp hrecord
  exact ⟨e, he, e.2, fields, u, hfound e he, hfields, hrevised, hencoded⟩

end

/-- The new members of a search are those that renew the matching ones. -/
theorem renewedSet_eq {s : Stores} {members : List String}
    (hmembers : updatedMembers d model spec
      ((matchedIn d model where_ (s.server.members (setKey d model))).map (·.2)) = .ok members) :
    renewedSet d model spec where_ s = {text | text ∈ members} := by
  have hfound : ∀ e ∈ matchedIn d model where_ (s.server.members (setKey d model)),
      decode e.1 (d.registry.attributeTypes model) = .ok e.2 :=
    fun e he => (mem_matchedIn.mp he).2.1
  ext text
  simp only [renewedSet, matchedSet_eq, Set.mem_ofPred_eq, List.mem_map]
  constructor
  · rintro ⟨_, ⟨e, he, rfl⟩, hrenews⟩
    obtain ⟨text', htext', hrenews'⟩ := exists_renewed hfound hmembers he
    rw [hrenews.unique hrenews']
    exact htext'
  · intro htext
    obtain ⟨e, he, hrenews⟩ := exists_found_of_renewed hfound hmembers htext
    exact ⟨e.1, ⟨e, he, rfl⟩, hrenews⟩

/-- Where the records of a search have new members, each matching member is renewed. -/
theorem exists_renews_of_matched {s : Stores} {members : List String}
    (hmembers : updatedMembers d model spec
      ((matchedIn d model where_ (s.server.members (setKey d model))).map (·.2)) = .ok members)
    {raw : String} (hraw : raw ∈ matchedSet d model where_ s) : ∃ text, Renews d model spec raw text := by
  rw [matchedSet_eq] at hraw
  obtain ⟨e, he, rfl⟩ := List.mem_map.mp hraw
  obtain ⟨text, _, hrenews⟩ := exists_renewed (fun e he => (mem_matchedIn.mp he).2.1) hmembers he
  exact ⟨text, hrenews⟩

section

variable {s s' : Stores} {old new : List String} {other : String}

theorem heldSet_eq (hsets : s'.server.sets = s.server.sets) (other : String) :
    heldSet d other s' = heldSet d other s := by
  rw [heldSet, Server.members, hsets]
  rfl

theorem heldSet_removed
    (hsets : s'.server.sets = (({ sets := s.server.sets } : Server).remove (setKey d model) old).sets) :
    heldSet d model s' = heldSet d model s \ {raw | raw ∈ old} ∧
    ∀ other ≠ model, heldSet d other s' = heldSet d other s := by
  have hmem (other raw : String) : raw ∈ heldSet d other s' ↔
      raw ∈ heldSet d other s ∧ ¬(other = model ∧ raw ∈ old) := by
    rw [heldSet, Set.mem_ofPred_eq, Server.members, hsets, ← @setKey_inj d]
    exact Server.mem_members_remove
  refine ⟨?_, fun other hother => ?_⟩
  · ext raw
    rw [hmem]
    simp
  · ext raw
    rw [hmem]
    simp [hother]

theorem heldSet_added
    (hsets : s'.server.sets = (({ sets := s.server.sets } : Server).add (setKey d model) new).sets) :
    heldSet d model s' = heldSet d model s ∪ {raw | raw ∈ new} ∧
    ∀ other ≠ model, heldSet d other s' = heldSet d other s := by
  have hmem (other raw : String) : raw ∈ heldSet d other s' ↔
      raw ∈ heldSet d other s ∨ other = model ∧ raw ∈ new := by
    rw [heldSet, Set.mem_ofPred_eq, Server.members, hsets, ← @setKey_inj d]
    exact Server.mem_members_add
  refine ⟨?_, fun other hother => ?_⟩
  · ext raw
    rw [hmem]
    simp
  · ext raw
    rw [hmem]
    simp [hother]

end

/-- How a replacement of the matching members by new ones ends tells what is in the sets, and a failure
after which something is missing is that of an addition after a removal. -/
theorem tells_of_replaceEnd {s s' : Stores} {o : Outcome (Option ChangeCounts)} {c : Holding}
    {members : List String} (hs : AreSorted s.server.sets)
    (hsome : matchedIn d model where_ (s.server.members (setKey d model)) ≠ [])
    (hmembers : updatedMembers d model spec
      ((matchedIn d model where_ (s.server.members (setKey d model))).map (·.2)) = .ok members)
    (hsets : s'.server.sets = c.sets)
    (hend : ReplaceEnd s.holding (setKey d model)
      ((matchedIn d model where_ (s.server.members (setKey d model))).map (·.1)) members o c) :
    (∀ answer, o = .ok answer → Tells (heldSet d model s) (matchedSet d model where_ s)
      (renewedSet d model spec where_ s) (heldSet d model s') answer) ∧
    (∀ fault, o = .error fault → heldSet d model s' = heldSet d model s ∨
      s.server.outage? .remove = none ∧ s.server.outage? .add = some .badValue ∧
        heldSet d model s' = heldSet d model s \ matchedSet d model where_ s) ∧
    ∀ other ≠ model, heldSet d other s' = heldSet d other s := by
  have hcount : ((matchedIn d model where_ (s.server.members (setKey d model))).map (·.1)).length =
      (matchedSet d model where_ s).ncard := by
    rw [ncard_matchedSet hs, List.length_map]
  have hpositive :
      ((matchedIn d model where_ (s.server.members (setKey d model))).map (·.1)).length ≠ 0 := by
    rw [List.length_map]
    exact fun h => hsome (List.length_eq_zero_iff.mp h)
  rw [renewedSet_eq hmembers]
  have hold := @matchedSet_eq d model where_ s
  generalize (matchedIn d model where_ (s.server.members (setKey d model))).map (·.1) = old at *
  cases hend with
  | replaced =>
    let between : Stores := { s with server := s.server.remove (setKey d model) old }
    obtain ⟨hremoved, hothers⟩ := @heldSet_removed d model s between old rfl
    obtain ⟨hadded, hothers'⟩ := @heldSet_added d model between s' members hsets
    refine ⟨fun answer heq => ?_, nofun, fun other hother =>
      (hothers' other hother).trans (hothers other hother)⟩
    obtain rfl := Except.ok.inj heq
    refine ⟨hcount, fun h => absurd h hpositive, fun _ _ => ?_, nofun, fun h => absurd rfl h⟩
    rw [hadded, hremoved, hold]
  | removed =>
    obtain ⟨hset, hothers⟩ := heldSet_removed hsets
    refine ⟨fun answer heq => ?_, nofun, hothers⟩
    obtain rfl := Except.ok.inj heq
    refine ⟨hcount, fun h => absurd h hpositive, fun h => absurd h.symm hpositive, nofun,
      fun _ => ⟨rfl, rfl, ?_⟩⟩
    rw [hset, hold]
  | added =>
    obtain ⟨hset, hothers⟩ := heldSet_added hsets
    refine ⟨fun answer heq => ?_, nofun, hothers⟩
    obtain rfl := Except.ok.inj heq
    exact ⟨hcount, fun h => absurd h hpositive, nofun, fun _ => ⟨rfl, hset⟩, fun h => absurd rfl h⟩
  | refused =>
    exact ⟨fun answer heq => Except.ok.inj heq ▸ heldSet_eq hsets model, nofun,
      fun other _ => heldSet_eq hsets other⟩
  | ended | unadded =>
    exact ⟨nofun, fun _ _ => .inl (heldSet_eq hsets model), fun other _ => heldSet_eq hsets other⟩
  | torn hanswers hfails =>
    obtain ⟨hset, hothers⟩ := heldSet_removed hsets
    refine ⟨nofun, fun _ _ => .inr ⟨hanswers, hfails, ?_⟩, hothers⟩
    rw [hset, hold]

/-- The answer to an update tells the set of its model: nothing is written unless the update applies
to every matching record and the results have members, and the sets of other models stay.  Only
where the addition breaks off after the removal, the failure leaves the set without the matching
members. -/
theorem update_tells_set (d : Deployment) (given : Option CorrelationRef) (model : String)
    (spec where_ : Value) {s s' : Stores} {o : Outcome (Option ChangeCounts)}
    (hs : AreSorted s.server.sets)
    (hrun : runFrom (update d given model spec where_) s = (o, s')) :
    (∀ answer, o = .ok answer → Tells (heldSet d model s) (matchedSet d model where_ s)
      (renewedSet d model spec where_ s) (heldSet d model s') answer) ∧
    (∀ fault, o = .error fault → heldSet d model s' = heldSet d model s ∨
      s.server.outage? .remove = none ∧ s.server.outage? .add = some .badValue ∧
        heldSet d model s' = heldSet d model s \ matchedSet d model where_ s) ∧
    ((∃ raw ∈ matchedSet d model where_ s, ∀ text, ¬ Renews d model spec raw text) →
      s'.server.sets = s.server.sets) ∧
    ∀ other ≠ model, heldSet d other s' = heldSet d other s := by
  have hend := update_ends d given model spec where_ s rfl
  rw [hrun] at hend
  have hkept (hsets : s'.server.sets = s.server.sets) :
      heldSet d model s' = heldSet d model s ∧
      ((∃ raw ∈ matchedSet d model where_ s, ∀ text, ¬ Renews d model spec raw text) →
        s'.server.sets = s.server.sets) ∧
      ∀ other ≠ model, heldSet d other s' = heldSet d other s :=
    ⟨heldSet_eq hsets model, fun _ => hsets, fun other _ => heldSet_eq hsets other⟩
  generalize hholding : s'.holding = c at hend
  have hsets : s'.server.sets = c.sets := congrArg Holding.sets hholding
  cases hend with
  | failed =>
    obtain ⟨hset, hrest⟩ := hkept hsets
    exact ⟨nofun, fun _ _ => .inl hset, hrest⟩
  | refused =>
    obtain ⟨hset, hrest⟩ := hkept hsets
    exact ⟨fun answer heq => Except.ok.inj heq ▸ hset, nofun, hrest⟩
  | nothing hunmatched =>
    obtain ⟨hset, hrest⟩ := hkept hsets
    have hnone : matchedSet d model where_ s = ∅ := by
      rw [matchedSet_eq, show matchedIn d model where_ (s.server.members _) = [] from hunmatched]
      simp
    refine ⟨fun answer heq => ?_, nofun, hrest⟩
    obtain rfl := Except.ok.inj heq
    have hrenewed : renewedSet d model spec where_ s = ∅ := by
      simp [renewedSet, hnone]
    refine ⟨?_, fun _ => hset, fun _ _ => ?_, nofun, fun hne => absurd rfl hne⟩
    · rw [hnone, Set.ncard_empty]
    · rw [hnone, hrenewed, hset, Set.sdiff_empty, Set.union_empty]
  | written _ hmatched hsome hmembers _ hreplaces =>
    subst hmatched
    obtain ⟨htells, hfails, hothers⟩ := tells_of_replaceEnd hs hsome hmembers hsets hreplaces
    refine ⟨htells, hfails, ?_, hothers⟩
    rintro ⟨raw, hraw, hno⟩
    obtain ⟨text, hrenews⟩ := exists_renews_of_matched hmembers hraw
    exact absurd hrenews (hno text)

/-! ## A broken addition -/

/-- Stores with one item in the cache, the commands of which fail as told. -/
def cachedItem (outages : Entries Outage) : Stores :=
  { server := { sets := [("item", [memberText [("id", .int 1), ("n", .int 5)]])], outages } }

/-- The update that sets the number of an item to six. -/
def toSix : Value := .map [("n", .int 6)]

theorem areSorted_cachedItem (outages : Entries Outage) :
    AreSorted (cachedItem outages).server.sets := by
  intro key
  rw [cachedItem]
  by_cases hkey : key = "item"
  · subst hkey
    exact List.pairwise_singleton _ _
  · rw [Entries.get?_cons, if_neg (Ne.symm hkey), Entries.get?_nil]
    exact List.Pairwise.nil

theorem update_tells_set_of_item :
    AreSorted (cachedItem []).server.sets ∧ ∃ s',
      runFrom (update countedItems none "item" toSix .null) (cachedItem []) =
        (.ok (some ⟨1, 1, false⟩), s') ∧
      Tells (heldSet countedItems "item" (cachedItem []))
        (matchedSet countedItems "item" .null (cachedItem []))
        (renewedSet countedItems "item" toSix .null (cachedItem []))
        (heldSet countedItems "item" s') (some ⟨1, 1, false⟩) := by
  have hanswer : (runFrom (update countedItems none "item" toSix .null) (cachedItem [])).1 =
      .ok (some ⟨1, 1, false⟩) := by
    rw [update, runFrom_inScope]
    cbv
  have hrun := runFrom_eq hanswer
  exact ⟨areSorted_cachedItem [], _, hrun,
    (update_tells_set countedItems none "item" toSix .null (areSorted_cachedItem []) hrun).1 _ rfl⟩

/-- An addition that breaks off after the removal leaves the set empty, though the update fails. -/
theorem update_fails_and_loses_item : ∃ s',
    runFrom (update countedItems none "item" toSix .null) (cachedItem [("sadd", .badValue)]) =
      (.error (.badValue "sadd failed"), s') ∧
    heldSet countedItems "item" (cachedItem [("sadd", .badValue)]) =
      {memberText [("id", .int 1), ("n", .int 5)]} ∧
    heldSet countedItems "item" s' = ∅ := by
  have hanswer : (runFrom (update countedItems none "item" toSix .null)
      (cachedItem [("sadd", .badValue)])).1 = .error (.badValue "sadd failed") := by
    rw [update, runFrom_inScope]
    cbv
  have hleft : (runFrom (update countedItems none "item" toSix .null)
      (cachedItem [("sadd", .badValue)])).2.server.members (setKey countedItems "item") = [] := by
    rw [update, runFrom_inScope]
    cbv
  refine ⟨_, runFrom_eq hanswer, ?_, ?_⟩
  · ext raw
    exact List.mem_singleton
  · simp only [heldSet, hleft, List.not_mem_nil, Set.ofPred_false]

end TwinStore.Cache
