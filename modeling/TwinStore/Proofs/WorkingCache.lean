import TwinStore.Proofs.CacheEffects
import TwinStore.Proofs.FilterAgreement

/-!
# A cache that answers

Where the cache can be reached and no command fails, its operations answer with what the sets hold.
They change nothing but the sets that they are meant to change.

Main definitions:

- `Stores.IsUp`: stores whose cache answers every command.
- `Stores.Stands`: such stores with given sets and a given primary store.

Main results:

- Theorem `connect_leads`, `request_leads`: the cache connects, and a command is carried out.
- Theorem `matching_leads`: a search gives the members whose records satisfy the filter.
-/

namespace TwinStore

open Filter

/-- Whether the cache of some stores can be reached and answers every command. -/
structure Stores.IsUp (d : Deployment) (s : Stores) : Prop where
  answers : ∀ command, s.server.outage? command = none
  reachable : s.connected = true ∨ s.hasClient = true ∨ Cache.addressProblem? d = none

/-- Whether the cache of some stores answers and they have given sets and a given primary store. -/
structure Stores.Stands (d : Deployment) (sets : Entries (List String))
    (primary : Primary.Database × List (Option Bool)) (s : Stores) : Prop where
  isUp : s.IsUp d
  sets_eq : s.server.sets = sets
  primary_eq : s.primary = primary

namespace Cache

open Action

variable {d : Deployment} {ref : CorrelationRef} {sets sets' : Entries (List String)}
  {primary : Primary.Database × List (Option Bool)} {P : Stores → Prop}

/-! ## Commands -/

/-- A command is carried out. -/
theorem request_leads (command : Command) {change : Server → Server}
    (hchange : ∀ server : Server, server.sets = sets →
      (change server).sets = sets' ∧ (change server).outages = server.outages) :
    (request command change).Leads (Stores.Stands d sets primary) (.ok none)
      (Stores.Stands d sets' primary) := by
  refine Leads.bind (R := Stores.Stands d sets primary) (Leads.of_modify fun s hs => ?_) ?_
  · exact ⟨⟨hs.isUp.answers, hs.isUp.reachable⟩, hs.sets_eq, hs.primary_eq⟩
  · refine Leads.get_bind fun s hs => ?_
    have hanswer : s.server.outage? command = none := hs.isUp.answers command
    simp only [hanswer]
    refine Leads.bind (R := Stores.Stands d sets' primary) (Leads.of_modify fun s' hs' => ?_)
      (Leads.pure none _)
    have hs' : Stores.Stands d sets primary s'.content := hs' ▸ hs
    obtain ⟨hsets, houtages⟩ := hchange s'.server hs'.sets_eq
    refine ⟨⟨fun c => ?_, hs'.isUp.reachable⟩, hsets, hs'.primary_eq⟩
    show Entries.get? (change s'.server).outages c.name = none
    rw [houtages]
    exact hs'.isUp.answers c

/-- The server is greeted. -/
theorem greet_leads (d : Deployment) (ref : CorrelationRef) :
    (greet d ref).Leads (Stores.Stands d sets primary) (.ok true) (Stores.Stands d sets primary) := by
  have hping : (request .ping id).Leads (Stores.Stands d sets primary) (.ok none)
      (Stores.Stands d sets primary) := request_leads .ping fun server hserver => ⟨hserver, rfl⟩
  refine Leads.bind hping.attempt (Leads.bind (R := Stores.Stands d sets primary)
    (Leads.of_modify fun s hs => ?_) ?_)
  · exact ⟨⟨hs.isUp.answers, Or.inl rfl⟩, hs.sets_eq, hs.primary_eq⟩
  · split_ifs
    · exact Leads.bind (Leads.report _ _ _ _ _ _) (Leads.pure true _)
    · exact Leads.pure true _

/-- The cache connects if it has to. -/
theorem connect_leads (d : Deployment) (ref : CorrelationRef) :
    (connect d ref).Leads (Stores.Stands d sets primary) (.ok true) (Stores.Stands d sets primary) := by
  refine Leads.get_bind fun s hs => ?_
  have hstands (c : Stores) (hc : c = s.content) : Stores.Stands d sets primary c := hc ▸ hs
  by_cases hconnected : s.connected = true
  · rw [if_pos hconnected]
    exact (Leads.pure true _).weaken (fun _ => id) hstands
  · rw [if_neg hconnected]
    show (if s.hasClient = true then greet d ref else _ : Action Bool).Leads _ _ _
    by_cases hclient : s.hasClient = true
    · rw [if_pos hclient]
      exact (greet_leads d ref).weaken hstands fun _ => id
    · rw [if_neg hclient]
      have haddress : addressProblem? d = none :=
        (hs.isUp.reachable.resolve_left hconnected).resolve_left hclient
      simp only [haddress]
      refine Leads.bind (a := ⟨⟩) (R := Stores.Stands d sets primary) ?_ (greet_leads d ref)
      intro s' hs'
      refine ⟨_, runFrom_set _ s', ?_⟩
      exact ⟨⟨hs.isUp.answers, Or.inr (Or.inl rfl)⟩, hs.sets_eq, hs.primary_eq⟩

/-! ## Searches -/

/-- Members that can be read are tested one by one. -/
theorem readMembers_leads {predicate : Predicate} {model : String} {members : List String}
    {read : String → Record} {p : Record → Bool}
    (hread : ∀ raw ∈ members, decode raw (d.registry.attributeTypes model) = .ok (read raw) ∧
      predicate (read raw) = .ok (p (read raw))) :
    (readMembers d ref model predicate members).Leads P
      (.ok ((members.filter fun raw => p (read raw)).map fun raw => (raw, read raw))) P := by
  induction members with
  | nil => exact Leads.pure [] P
  | cons raw rest ih =>
    obtain ⟨hdecode, hholds⟩ := hread raw List.mem_cons_self
    have hrest := ih fun raw' h => hread raw' (List.mem_cons_of_mem raw h)
    have hfirst : (readMember d ref model predicate raw).Leads P
        (.ok (if p (read raw) then some (raw, read raw) else none)) P := by
      unfold readMember
      simp only [hdecode, hholds]
      refine Leads.bind (Leads.ofOutcome (.ok _) P) ?_
      exact Leads.pure _ P
    refine Leads.bind hfirst (Leads.bind hrest ?_)
    have hresult : (if p (read raw) then some (raw, read raw) else none).toList ++
        (rest.filter fun raw => p (read raw)).map (fun raw => (raw, read raw)) =
        ((raw :: rest).filter fun raw => p (read raw)).map fun raw => (raw, read raw) := by
      rw [List.filter_cons]
      split_ifs <;> rfl
    rw [← hresult]
    exact Leads.pure _ P

/-- A set whose members can all be read is searched. -/
theorem scan_leads {predicate : Predicate} {model : String} {members : List String}
    (hmembers : (Entries.get? sets (setKey d model)).getD [] = members)
    {read : String → Record} {p : Record → Bool}
    (hread : ∀ raw ∈ members, decode raw (d.registry.attributeTypes model) = .ok (read raw) ∧
      predicate (read raw) = .ok (p (read raw))) :
    (scan d ref model predicate).Leads (Stores.Stands d sets primary)
      (.ok (some ((members.filter fun raw => p (read raw)).map fun raw => (raw, read raw))))
      (Stores.Stands d sets primary) := by
  refine Leads.bind (connect_leads d ref) (Leads.bind (request_leads .members
    fun server hserver => ⟨hserver, rfl⟩) ?_)
  refine Leads.get_bind fun s hs => ?_
  have hstands (c : Stores) (hc : c = s.content) : Stores.Stands d sets primary c := hc ▸ hs
  have hset : s.server.members (setKey d model) = members := by
    rw [Server.members, show s.server.sets = sets from hs.sets_eq, hmembers]
  simp only [hset]
  have hmatched := @readMembers_leads d ref (· = s.content) predicate model members read p hread
  exact Leads.bind hmatched ((Leads.pure (some _) _).weaken (fun _ => id) hstands)

/-- A filter is read as a predicate. -/
theorem predicateOf_leads_of_read {model : String} {where_ : Value} {predicate : Predicate}
    (h : (Predicate.ofFilter where_ (some (d.registry.attributeTypes model))).run.2 =
      .ok predicate) :
    (predicateOf? d ref model where_).Leads P (.ok (some predicate)) P := by
  have hread := Leads.ofReported (Predicate.ofFilter where_ (some (d.registry.attributeTypes model))) P
  rw [h] at hread
  exact Leads.bind hread.attempt (Leads.pure _ P)

/-- By a filter with a mistake nothing is searched. -/
theorem matching_mistaken_leads {model : String} {where_ : Value} {e : FilterError}
    (h : (Predicate.ofFilter where_ (some (d.registry.attributeTypes model))).run.2 =
      .error (.filter e)) :
    (matching d ref model where_).Leads P (.ok none) P := by
  have hread := Leads.ofReported (Predicate.ofFilter where_ (some (d.registry.attributeTypes model))) P
  rw [h] at hread
  have hpredicate : (predicateOf? d ref model where_).Leads P (.ok none) P :=
    Leads.bind hread.attempt (Leads.bind (Leads.report _ _ _ _ _ _) (Leads.pure _ P))
  exact Leads.bind hpredicate (Leads.pure _ P)

/-- The predicate of an accepted filter is its checks. -/
theorem predicateOf_leads {model : String} {m : Model} {where_ : Value} {f : Formula Requirement}
    (hf : Requires m where_ f) (htypes : d.registry.attributeTypes model = m.attributeTypes) :
    (predicateOf? d ref model where_).Leads P
      (.ok (some fun record => (checksOf m f).holdsFor record)) P := by
  obtain ⟨lines, _, hpredicate⟩ := hf.run_eq
  refine predicateOf_leads_of_read ?_
  rw [htypes, hpredicate]

/-- A search gives the members whose records satisfy the filter. -/
theorem matching_leads {model : String} {m : Model} {where_ : Value} {f : Formula Requirement}
    (hf : Requires m where_ f) (htypes : d.registry.attributeTypes model = m.attributeTypes)
    {members : List String} (hmembers : (Entries.get? sets (setKey d model)).getD [] = members)
    {read : String → Record} {p : Record → Bool}
    (hread : ∀ raw ∈ members, decode raw m.attributeTypes = .ok (read raw) ∧
      (checksOf m f).holdsFor (read raw) = .ok (p (read raw))) :
    (matching d ref model where_).Leads (Stores.Stands d sets primary)
      (.ok (some ((members.filter fun raw => p (read raw)).map fun raw => (raw, read raw))))
      (Stores.Stands d sets primary) := by
  rw [← htypes] at hread
  exact Leads.bind (predicateOf_leads hf htypes) (scan_leads hmembers hread)

end Cache

end TwinStore
