import TwinStore.Proofs.CalmCaches
import TwinStore.Proofs.Coherence
import TwinStore.Proofs.Disruptions
import TwinStore.Proofs.OrderlyCaches

/-!
# Searches of which a command fails

A search reads one set for each part of a request.  If it finds something, no command of it has failed:
the failure of any of them, at whatever depth, makes all searches above it find nothing.

Main definitions:

- `Action.Settles`: operations with one result in all correlations.
- `Disruption.Certified`: what was found tells that no command since then failed.
- `Filter.Answers`: filters that are read as predicates that answer.

Main results:

- Theorem `scan_settles`: the reading of one set.
- Theorem `findAmid_settles`: a search with related records during which commands fail.
-/

namespace TwinStore

open Action Cache Filter Include

/-! ## One result in all correlations -/

namespace Action

variable {ι κ α β : Type} {c c₁ : Stores} {x : ι → Action α} {f : ι → α → Action β}
  {Q R : α → Stores → Prop} {T : β → Stores → Prop}

/-- Whether operations on stores of some content have one result and leave one content, for both of
which a condition holds. -/
def Settles (c : Stores) (x : ι → Action α) (Q : α → Stores → Prop) : Prop :=
  ∃ a c', (∀ i, (x i).Gives c (.ok a) c') ∧ Q a c'

namespace Settles

theorem pure {a : α} (h : Q a c) : Settles c (fun _ : ι => (Pure.pure a : Action α)) Q :=
  ⟨a, c, fun _ => Gives.pure a c, h⟩

theorem of_gives {a : α} (hx : ∀ i, (x i).Gives c (.ok a) c₁) (h : Q a c₁) : Settles c x Q :=
  ⟨a, c₁, hx, h⟩

theorem weaken (hx : Settles c x R) (h : ∀ a c', R a c' → Q a c') : Settles c x Q := by
  obtain ⟨a, c', hgives, hR⟩ := hx
  exact ⟨a, c', hgives, h a c' hR⟩

theorem bind (hx : Settles c x R) (hf : ∀ a c', R a c' → Settles c' (fun i => f i a) T) :
    Settles c (fun i => x i >>= f i) T := by
  obtain ⟨a, c₁, hx, hR⟩ := hx
  obtain ⟨b, c', hf, hT⟩ := hf a c₁ hR
  exact ⟨b, c', fun i => Gives.bind (hx i) (hf i), hT⟩

/-- What follows an operation with a known result. -/
theorem gives_bind {a : α} (hx : ∀ i, (x i).Gives c (.ok a) c₁)
    (hf : Settles c₁ (fun i => f i a) T) : Settles c (fun i => x i >>= f i) T := by
  obtain ⟨b, c', hf, hT⟩ := hf
  exact ⟨b, c', fun i => Gives.bind (hx i) (hf i), hT⟩

/-- Operations side by side. -/
theorem both {y : ι → Action β} {U : α → β → Stores → Prop} (hx : Settles c x R)
    (hy : ∀ a c', R a c' → Settles c' y (U a)) :
    Settles c (fun i => Action.both (x i) (y i)) fun p c' => U p.1 p.2 c' := by
  obtain ⟨a, c₁, hx, hR⟩ := hx
  obtain ⟨b, c', hy, hU⟩ := hy a c₁ hR
  exact ⟨(a, b), c', fun i => Leads.both (hx i) (hy i), hU⟩

/-- Operations in a scope. -/
theorem inScope {body : CorrelationRef → Action α} (h : Settles c body Q) :
    Settles c (fun given => Action.inScope given body) Q := by
  obtain ⟨a, c', hbody, hQ⟩ := h
  exact ⟨a, c', fun _ => Gives.inScope hbody, hQ⟩

end Settles

end Action

/-! ## Commands that read -/

/-- Whether stores came from others by sending some commands that read: only the connection, the
commands received and those that fail may differ. -/
structure Stores.Sent (sent : List Command) (c c' : Stores) : Prop where
  sets : c'.server.sets = c.server.sets
  received : c'.server.received = c.server.received ++ sent
  primary : c'.primary = c.primary

/-- Stores of the same content have the same server and the same connection. -/
theorem Stores.same_of_content {s c : Stores} (h : s.content = c) :
    s.server = c.server ∧ s.connected = c.connected ∧ s.hasClient = c.hasClient := by
  subst h
  exact ⟨rfl, rfl, rfl⟩

namespace Disruption

variable {p : Disruption} {c c₁ c' : Stores} {F G : Prop}

/-- Whether the next commands fail as a pattern says. -/
def Armed (p : Disruption) (c : Stores) : Prop :=
  ∀ command, c.server.outage? command = p.next c command

/-- Whether a pattern makes commands fail by an answer, if at all. -/
def Answers (p : Disruption) : Prop := ∀ before command, p before command ≠ some .badValue

/-- Where the next commands fail as a pattern says, so does the reading of a set. -/
theorem Armed.members (h : p.Armed c) : c.server.outage? .members =
    p (c.server.received ++ if c.connected then [] else [.ping]) .members := h .members

theorem armed_arm (p : Disruption) (c : Stores) : p.Armed (p.arm c) := by
  intro command
  rw [outage?_arm]
  cases command <;> rfl

/-- Whether stores came from others by commands that read, none of which failed if something was
found. -/
def Certified (p : Disruption) (c : Stores) (found : Prop) (c' : Stores) : Prop :=
  ∃ sent, Stores.Sent sent c c' ∧ (found → p.Spares c.server.received sent)

/-- Where nothing was sent, nothing failed. -/
theorem Certified.of_silent (h : Stores.Sent [] c c') : p.Certified c F c' := ⟨[], h, fun _ => trivial⟩

theorem Certified.refl : p.Certified c F c := .of_silent ⟨rfl, (List.append_nil _).symm, rfl⟩

theorem Certified.trans (h : p.Certified c F c₁) (h' : p.Certified c₁ G c') :
    p.Certified c (F ∧ G) c' := by
  obtain ⟨sent, hsent, hspares⟩ := h
  obtain ⟨rest, hrest, hspares'⟩ := h'
  refine ⟨sent ++ rest, ⟨hrest.sets.trans hsent.sets, ?_, hrest.primary.trans hsent.primary⟩, ?_⟩
  · rw [hrest.received, hsent.received, List.append_assoc]
  · rintro ⟨hF, hG⟩
    exact spares_append.mpr ⟨hspares hF, hsent.received ▸ hspares' hG⟩

theorem Certified.mono (h : p.Certified c F c') (hG : G → F) : p.Certified c G c' := by
  obtain ⟨sent, hsent, hspares⟩ := h
  exact ⟨sent, hsent, fun hfound => hspares (hG hfound)⟩

/-- One command certifies that it did not fail. -/
theorem Certified.of_command {command : Command} (hsent : Stores.Sent [command] c c')
    (h : F → p c.server.received command = none) : p.Certified c F c' :=
  ⟨[command], hsent, fun hfound => ⟨h hfound, trivial⟩⟩

/-- Setting stores up for failures sends nothing. -/
theorem certified_arm (p : Disruption) (c : Stores) : p.Certified c F (p.arm c) :=
  .of_silent ⟨rfl, (List.append_nil _).symm, rfl⟩

end Disruption

namespace Cache

variable {d : Deployment} {p : Disruption} {c : Stores}

/-- The outcome of a command that fails in some way, or does not. -/
def reply (command : Command) : Option Outage → Outcome (Option String)
  | none => .ok none
  | some .badValue => .error (.badValue command.failure)
  | some _ => .ok (some command.failure)

/-- Stores that have received a command. -/
def sent (c : Stores) (command : Command) : Stores :=
  { c with server := { c.server with received := c.server.received ++ [command] } }

/-- A command that reads is received, and answered or not. -/
theorem request_gives (command : Command) (c : Stores) :
    (request command id).Gives c (reply command (c.server.outage? command)) (sent c command) := by
  have hreceived : (modify fun s => { s with server := { s.server with
      received := s.server.received ++ [command] } } : Action PUnit).Gives c (.ok ⟨⟩)
      (sent c command) := by
    refine Gives.of_modify fun s hs => ?_
    rw [← hs]
    rfl
  refine Gives.bind hreceived (Gives.get_bind fun s hs => ?_)
  rw [(Stores.same_of_content hs).1, show (sent c command).server.outage? command = c.server.outage? command from rfl]
  cases c.server.outage? command with
  | none => exact Gives.bind (Gives.of_modify fun s hs => hs) (Gives.pure none _)
  | some outage =>
    cases outage with
    | badValue => exact Gives.throw _ _
    | _ => exact Gives.pure _ _

/-- Whether the reading of sets fails in stores, as a pattern says. -/
def ReadsAs (p : Disruption) (c : Stores) : Prop :=
  c.server.outage? .members = p c.server.received .members

/-- A connection certifies that the greeting did not fail. -/
theorem greet_settles (hp : p.Armed c) (hconnected : c.connected = false) :
    Settles c (fun ref => greet d ref) fun connected c' =>
      p.Certified c (connected = true) c' ∧ (connected = true → ReadsAs p c') := by
  have hping := (request_gives .ping c).attempt
  have hanswer : c.server.outage? .ping = p c.server.received .ping := hp .ping
  rw [hanswer] at hping
  have hsent (connected : Bool) :
      Stores.Sent [.ping] c { sent c .ping with connected := connected } := ⟨rfl, rfl, rfl⟩
  cases hgreeting : p c.server.received .ping with
  | none =>
    rw [hgreeting] at hping
    have hconnects : (modify fun s => { s with connected := true } : Action PUnit).Gives
        (sent c .ping) (.ok ⟨⟩) { sent c .ping with connected := true } := by
      refine Gives.of_modify fun s hs => ?_
      rw [← hs]
      rfl
    refine Settles.gives_bind (fun _ => hping) (Settles.gives_bind (fun _ => hconnects) ?_)
    have hreads : ReadsAs p { sent c .ping with connected := true } := by
      have hmembers := hp.members
      rw [hconnected] at hmembers
      exact hmembers
    have hcertified : p.Certified c (true = true) { sent c .ping with connected := true } :=
      .of_command (hsent true) fun _ => hgreeting
    by_cases hgreets : d.greets = true
    · simp only [if_pos hgreets]
      exact Settles.gives_bind (fun ref => Gives.report ref _ _ _ _ _)
        (Settles.pure ⟨hcertified, fun _ => hreads⟩)
    · simp only [if_neg hgreets]
      exact Settles.pure ⟨hcertified, fun _ => hreads⟩
  | some outage =>
    rw [hgreeting] at hping
    have hrefused : Settles (sent c .ping)
        (fun ref => unavailable ref s!"Redis unavailable: {Command.ping.failure}")
        fun connected c' => p.Certified c (connected = true) c' ∧ (connected = true → ReadsAs p c') :=
      Settles.gives_bind (fun ref => Gives.report ref _ _ _ _ _)
        (Settles.pure ⟨.of_command ⟨rfl, rfl, rfl⟩ nofun, nofun⟩)
    cases outage with
    | _ => exact Settles.gives_bind (fun _ => hping) hrefused

/-- A connection certifies that no greeting failed. -/
theorem connect_settles (hp : p.Armed c) :
    Settles c (fun ref => connect d ref) fun connected c' =>
      p.Certified c (connected = true) c' ∧ (connected = true → ReadsAs p c') := by
  by_cases hconnected : c.connected = true
  · have hreads : ReadsAs p c := by
      have hmembers := hp.members
      rw [if_pos hconnected, List.append_nil] at hmembers
      exact hmembers
    refine Settles.of_gives (a := true) (fun ref => Gives.get_bind fun s hs => ?_)
      ⟨.refl, fun _ => hreads⟩
    rw [(Stores.same_of_content hs).2.1, if_pos hconnected]
    exact Gives.pure true c
  · have hgreets (hasClient : Bool) :
        Settles { c with hasClient } (fun ref => greet d ref) fun connected c' =>
          p.Certified c (connected = true) c' ∧ (connected = true → ReadsAs p c') := by
      refine (@greet_settles d p { c with hasClient } hp (Bool.eq_false_iff.mpr hconnected)).weaken ?_
      rintro connected c' ⟨hcertified, hreads⟩
      have hsilent : p.Certified c True { c with hasClient } :=
        .of_silent ⟨rfl, (List.append_nil _).symm, rfl⟩
      exact ⟨(hsilent.trans hcertified).mono fun h => ⟨trivial, h⟩, hreads⟩
    have hsame {s : Stores} (hs : s.content = c) :
        ¬ s.connected = true ∧ (s.hasClient = true ↔ c.hasClient = true) := by
      rw [(Stores.same_of_content hs).2.1, (Stores.same_of_content hs).2.2]
      exact ⟨hconnected, .rfl⟩
    by_cases hclient : c.hasClient = true
    · obtain ⟨connected, c', hgreet, hends⟩ := hgreets c.hasClient
      refine Settles.of_gives (fun ref => Gives.get_bind fun s hs => ?_) hends
      rw [if_neg (hsame hs).1]
      show (if s.hasClient = true then greet d ref else _ : Action Bool).Gives _ _ _
      rw [if_pos ((hsame hs).2.mpr hclient)]
      exact hgreet ref
    · cases haddress : addressProblem? d with
      | some message =>
        refine Settles.of_gives (a := false) (fun ref => Gives.get_bind fun s hs => ?_)
          ⟨.refl, nofun⟩
        rw [if_neg (hsame hs).1]
        show (if s.hasClient = true then greet d ref else _ : Action Bool).Gives _ _ _
        rw [if_neg (mt (hsame hs).2.mp hclient), haddress]
        exact Gives.bind (Gives.report ref _ _ _ _ _) (Gives.pure false c)
      | none =>
        obtain ⟨connected, c', hgreet, hends⟩ := hgreets true
        refine Settles.of_gives (fun ref => Gives.get_bind fun s hs => ?_) hends
        rw [if_neg (hsame hs).1]
        show (if s.hasClient = true then greet d ref else _ : Action Bool).Gives _ _ _
        rw [if_neg (mt (hsame hs).2.mp hclient), haddress]
        have hset : (set { s with hasClient := true } : Action PUnit).Gives c (.ok ⟨⟩)
            { c with hasClient := true } := fun s' _ => ⟨_, runFrom_set _ s', by rw [← hs]; rfl⟩
        exact Gives.bind hset (hgreet ref)

/-! ## Searching one set -/

/-- Whether the members of all sets are read with naive points of time, or skipped. -/
def AreTame (d : Deployment) (sets : Entries (List String)) : Prop :=
  ∀ name, d.registry.hasModel name = true → ∀ raw ∈ setOf d sets name,
    IsTame (d.registry.attributeTypes name) raw

section

variable {model : String} {predicate : Predicate} {raws : List String}

/-- Tame members are read and tested. -/
theorem readMembers_settles (htypes : ∀ e ∈ d.registry.attributeTypes model, e.2 ≠ .decimal)
    (hsure : predicate.IsSure (d.registry.attributeTypes model))
    (htame : ∀ raw ∈ raws, IsTame (d.registry.attributeTypes model) raw) :
    Settles c (fun ref => readMembers d ref model predicate raws) fun found c' =>
      c' = c ∧ ∀ e ∈ found, Value.HoldQuiet e.2 := by
  induction raws with
  | nil => exact Settles.pure ⟨rfl, List.forall_mem_nil _⟩
  | cons raw raws ih =>
    have hraw := htame raw List.mem_cons_self
    have hfirst : Settles c (fun ref => readMember d ref model predicate raw) fun found c' =>
        c' = c ∧ ∀ e ∈ found.toList, Value.HoldQuiet e.2 := by
      unfold readMember
      cases hread : decode raw (d.registry.attributeTypes model) with
      | ok record =>
        have hheld := isHeld_of_decode htypes hraw hread
        obtain ⟨b, hb⟩ := hsure record (areTestable_of_isHeld hheld)
        refine Settles.gives_bind (fun _ => Leads.of_eq_ok hb _) (Settles.pure ⟨rfl, ?_⟩)
        intro e he
        cases b with
        | false => cases he
        | true =>
          obtain rfl := List.mem_singleton.mp he
          exact Value.holdQuiet_iff.mpr fun e he => (hheld e he).isQuiet
      | error fault =>
        rw [IsTame, hread] at hraw
        have hskipped : isUndecodable fault = true := hraw
        simp only [hskipped, if_true]
        exact Settles.gives_bind (fun ref => Gives.report ref _ _ _ _ _) (Settles.pure ⟨rfl, List.forall_mem_nil _⟩)
    refine Settles.bind hfirst fun found c₁ hfound => ?_
    obtain ⟨rfl, hfound⟩ := hfound
    refine Settles.bind (ih fun raw' h => htame raw' (List.mem_cons_of_mem raw h)) fun rest c₂ hrest => ?_
    obtain ⟨rfl, hrest⟩ := hrest
    exact Settles.pure ⟨rfl, fun e he => (List.mem_append.mp he).elim (hfound e) (hrest e)⟩

/-- The reading of a set certifies that no command of it failed, if it gives anything. -/
theorem scan_settles (hp : p.Armed c) (hanswers : p.Answers)
    (hmodel : d.registry.hasModel model = true)
    (htypes : ∀ e ∈ d.registry.attributeTypes model, e.2 ≠ .decimal)
    (hsure : predicate.IsSure (d.registry.attributeTypes model)) (htame : AreTame d c.server.sets) :
    Settles c (fun ref => scan d ref model predicate) fun found c' =>
      p.Certified c (found.isSome = true) c' ∧
        ∀ members, found = some members → ∀ e ∈ members, Value.HoldQuiet e.2 := by
  refine Settles.bind (connect_settles hp) fun connected c₁ hconnects => ?_
  obtain ⟨hcertified, hreads⟩ := hconnects
  cases connected with
  | false => exact Settles.pure ⟨hcertified.mono nofun, nofun⟩
  | true =>
    have hanswer := request_gives .members c₁
    rw [show c₁.server.outage? .members = p c₁.server.received .members from hreads rfl] at hanswer
    have hsent : Stores.Sent [.members] c₁ (sent c₁ .members) := ⟨rfl, rfl, rfl⟩
    have hsets : (sent c₁ .members).server.sets = c.server.sets := by
      obtain ⟨_, hsent, _⟩ := hcertified
      exact hsent.sets
    cases hfails : p c₁.server.received .members with
    | some outage =>
      rw [hfails] at hanswer
      have hcertified' : p.Certified c (false = true) (sent c₁ .members) :=
        (hcertified.trans (.of_command hsent (F := False) nofun)).mono nofun
      have hrefused (failure : String) : Settles (sent c₁ .members) (fun ref => do
            Action.report ref .error component s!"Cache read failed: {failure}"
              [("model", .text model)]
            return none) fun found c' => p.Certified c (found.isSome = true) c' ∧
              ∀ members : List (String × Record), found = some members →
                ∀ e ∈ members, Value.HoldQuiet e.2 :=
        Settles.gives_bind (fun ref => Gives.report ref _ _ _ _ _) (Settles.pure ⟨hcertified', nofun⟩)
      cases outage with
      | badValue => exact absurd hfails (hanswers _ _)
      | _ => exact Settles.gives_bind (fun _ => hanswer) (hrefused _)
    | none =>
      rw [hfails] at hanswer
      have hcertified' : p.Certified c True (sent c₁ .members) :=
        (hcertified.trans (.of_command hsent (F := True) fun _ => hfails)).mono fun _ => ⟨rfl, trivial⟩
      have hmembers : ∀ raw ∈ (sent c₁ .members).server.members (setKey d model),
          IsTame (d.registry.attributeTypes model) raw := by
        intro raw hraw
        rw [Server.members, hsets] at hraw
        exact htame model hmodel raw hraw
      obtain ⟨found, c₂, hread, hc₂, hquiet⟩ := @readMembers_settles d (sent c₁ .members) model predicate
        ((sent c₁ .members).server.members (setKey d model)) htypes hsure hmembers
      subst hc₂
      refine Settles.gives_bind (fun _ => hanswer) (Settles.of_gives (a := some found) (fun ref =>
        Gives.get_bind fun s hs => ?_) ⟨hcertified'.mono fun _ => trivial, ?_⟩)
      · rw [(Stores.same_of_content hs).1]
        exact Gives.bind (hread ref) (Gives.pure _ _)
      · rintro _ ⟨rfl⟩
        exact hquiet

end

end Cache

/-! ## Searching with related records -/

/-- Whether a filter is read as a predicate that answers. -/
def Filter.Answers (types : Entries AttributeType) (where_ : Value) : Prop :=
  ∃ predicate, (Predicate.ofFilter where_ (some types)).run.2 = .ok predicate ∧ predicate.IsSure types

namespace Cache

variable {d : Deployment} {p : Disruption} {c : Stores} {model : String} {where_ : Value}

/-- No filter is a predicate that answers. -/
theorem answers_null (types : Entries AttributeType) : Answers types .null :=
  ⟨_, rfl, fun _ _ => ⟨true, rfl⟩⟩

/-- A search by a filter certifies that no command failed, if it gives anything. -/
theorem matching_settles (hp : p.Armed c) (hanswers : p.Answers)
    (hmodel : d.registry.hasModel model = true)
    (htypes : ∀ e ∈ d.registry.attributeTypes model, e.2 ≠ .decimal)
    (hwhere : Answers (d.registry.attributeTypes model) where_) (htame : AreTame d c.server.sets) :
    Settles c (fun ref => matching d ref model where_) fun found c' =>
      p.Certified c (found.isSome = true) c' ∧
        ∀ members, found = some members → ∀ e ∈ members, Value.HoldQuiet e.2 := by
  obtain ⟨predicate, hreads, hsure⟩ := hwhere
  have hread := (Gives.ofReported (Predicate.ofFilter where_ (some (d.registry.attributeTypes model)))
    c).attempt
  rw [hreads] at hread
  have hpredicate (ref : CorrelationRef) :
      (predicateOf? d ref model where_).Gives c (.ok (some predicate)) c :=
    Gives.bind hread (Gives.pure _ _)
  exact Settles.gives_bind hpredicate (scan_settles hp hanswers hmodel htypes hsure htame)

/-- A search certifies that no command failed, if it gives anything and the search for related records
does so. -/
theorem findWith_settles {φ : Type} (hp : p.Armed c) (hanswers : p.Answers)
    (htypes : ∀ e ∈ d.registry.attributeTypes model, e.2 ≠ .decimal)
    (hwhere : Answers (d.registry.attributeTypes model) where_) (htame : AreTame d c.server.sets)
    {plans : List (Plan φ)} {related : CorrelationRef → Action (List (Option (List Record)))}
    (hrelated : ∀ c₁, AreTame d c₁.server.sets → Settles c₁ related fun found c' =>
      p.Certified c₁ (∀ o ∈ found, o.isSome = true) c' ∧ ∀ o ∈ found, FindsQuiet o) :
    Settles c (fun ref => findWith d ref model where_ plans (related ref)) fun found c' =>
      p.Certified c (found.isSome = true) c' ∧ FindsQuiet found := by
  by_cases hmodel : d.registry.hasModel model = true
  · refine Settles.gives_bind (fun ref => Gives.knows hmodel ref component c) ?_
    refine Settles.bind (matching_settles hp hanswers hmodel htypes hwhere htame)
      fun found c₁ hfound => ?_
    obtain ⟨hcertified, hquiet⟩ := hfound
    cases found with
    | none => exact Settles.pure ⟨hcertified, nofun⟩
    | some members =>
      have hrecords : ∀ record ∈ members.map (·.2), Value.HoldQuiet record := by
        intro record hrecord
        obtain ⟨e, he, rfl⟩ := List.mem_map.mp hrecord
        exact hquiet members rfl e he
      by_cases hdone : (plans.isEmpty || (members.map (·.2)).isEmpty) = true
      · simp only [hdone, if_true]
        refine Settles.pure ⟨hcertified, ?_⟩
        rintro _ ⟨rfl⟩
        exact hrecords
      · simp only [hdone]
        have htame' : AreTame d c₁.server.sets := by
          obtain ⟨_, hsent, _⟩ := hcertified
          rw [hsent.sets]
          exact htame
        refine Settles.bind (hrelated c₁ htame') fun lists c₂ hlists => ?_
        obtain ⟨hcertified', hquiet'⟩ := hlists
        have hboth := hcertified.trans hcertified'
        cases hall : lists.mapM id with
        | none => exact Settles.pure ⟨hboth.mono nofun, nofun⟩
        | some found =>
          have hlists := eq_map_of_mapM_id hall
          have hplans : ∀ e ∈ plans.zip found, ∀ child ∈ e.2, Value.HoldQuiet child := by
            intro e he child hchild
            have hmem : some e.2 ∈ lists := by
              rw [hlists]
              exact List.mem_map_of_mem (List.of_mem_zip he).2
            exact hquiet' _ hmem e.2 rfl child hchild
          have hjoins := @either_joinRecords φ d.registry.modelNames (plans.zip found) hplans
            (members.map (·.2)) hrecords
          cases hjoined : joinRecords d.registry.modelNames (plans.zip found) (members.map (·.2)) with
          | error fault =>
            rw [hjoined] at hjoins
            exact hjoins.elim
          | ok joined =>
            rw [hjoined] at hjoins
            refine Settles.gives_bind (fun _ => Leads.of_eq_ok hjoined _) (Settles.pure ⟨?_, ?_⟩)
            · refine hboth.mono fun _ => ⟨rfl, fun o ho => ?_⟩
              rw [hlists] at ho
              obtain ⟨_, _, rfl⟩ := List.mem_map.mp ho
              rfl
            · rintro _ ⟨rfl⟩
              exact hjoins
  · have hunknown : Settles c (fun ref => Action.knows d ref component model) fun known c' =>
        known = false ∧ c' = c := by
      simp only [Action.knows, if_neg hmodel]
      exact Settles.gives_bind (fun ref => Gives.report ref _ _ _ _ _) (Settles.pure ⟨rfl, rfl⟩)
    refine Settles.bind hunknown fun known c' hknown => ?_
    obtain ⟨rfl, rfl⟩ := hknown
    exact Settles.pure ⟨.refl, nofun⟩

/-- A search for which stores are set up certifies that no command failed, if it gives anything. -/
theorem armed_settles {α : Type} {x : CorrelationRef → Action α} {isFound : α → Prop}
    {Q : α → Prop} (hx : Settles (p.arm c) x fun a c' => p.Certified (p.arm c) (isFound a) c' ∧ Q a) :
    Settles c (fun ref => do modify p.arm; x ref) fun a c' => p.Certified c (isFound a) c' ∧ Q a := by
  have harms : (modify p.arm : Action PUnit).Gives c (.ok ⟨⟩) (p.arm c) := by
    refine Gives.of_modify fun s hs => ?_
    rw [← hs]
    rfl
  refine Settles.gives_bind (fun _ => harms) (hx.weaken ?_)
  rintro a c' ⟨hcertified, hQ⟩
  exact ⟨((p.certified_arm c).trans (F := True) hcertified).mono fun h => ⟨trivial, h⟩, hQ⟩

mutual

/-- The search for a plan certifies that no command failed, if it gives anything. -/
theorem findPlanAmid_settles (hr : d.registry.IsSound) (hexact : d.registry.IsExact)
    (hanswers : p.Answers) : ∀ {plan : Builder} {parent : String} (c : Stores),
    IsShaped d.registry (fun model w => Answers (d.registry.attributeTypes model) (.map w)) parent
      plan → AreTame d c.server.sets →
    Settles c (fun ref => findPlanAmid p.arm d ref plan) fun found c' =>
      p.Certified c (found.isSome = true) c' ∧ FindsQuiet found
  | .node model _ _ where_ _ children, _, c, ⟨_, hwhere, hchildren⟩, htame => by
    simp only [findPlanAmid]
    have hreads : Answers (d.registry.attributeTypes model) ((where_.map Value.map).getD .null) := by
      cases where_ with
      | none => exact answers_null _
      | some w => exact hwhere w rfl
    exact armed_settles (findWith_settles (p.armed_arm c) hanswers (hexact.ne_decimal hr model) hreads
      htame fun c₁ htame' => findPlansAmid_settles hr hexact hanswers c₁ hchildren htame')

/-- The searches for plans certify that no command failed, if all of them give something. -/
theorem findPlansAmid_settles (hr : d.registry.IsSound) (hexact : d.registry.IsExact)
    (hanswers : p.Answers) : ∀ {plans : List Builder} {parent : String} (c : Stores),
    AreShaped d.registry (fun model w => Answers (d.registry.attributeTypes model) (.map w)) parent
      plans → AreTame d c.server.sets →
    Settles c (fun ref => findPlansAmid p.arm d ref plans) fun found c' =>
      p.Certified c (∀ o ∈ found, o.isSome = true) c' ∧ ∀ o ∈ found, FindsQuiet o
  | [], _, _, _, _ => by
    simp only [findPlansAmid]
    exact Settles.pure ⟨.refl, nofun⟩
  | plan :: rest, _, c, ⟨hplan, hrest⟩, htame => by
    simp only [findPlansAmid]
    refine Settles.bind (Settles.both (U := fun found others c' =>
      p.Certified c (∀ o ∈ found :: others, o.isSome = true) c' ∧ ∀ o ∈ found :: others, FindsQuiet o)
      (findPlanAmid_settles hr hexact hanswers c hplan htame) fun found c₁ hfound => ?_)
      fun found c' hfound => Settles.pure hfound
    obtain ⟨⟨sent, hsent, hspares⟩, hquiet⟩ := hfound
    have htame' : AreTame d c₁.server.sets := by
      rw [hsent.sets]
      exact htame
    refine (findPlansAmid_settles hr hexact hanswers c₁ hrest htame').weaken ?_
    rintro others c' ⟨hcertified, hothers⟩
    have hboth := Disruption.Certified.trans ⟨sent, hsent, hspares⟩ hcertified
    exact ⟨hboth.mono List.forall_mem_cons.mp, List.forall_mem_cons.mpr ⟨hquiet, hothers⟩⟩

end

/-- A search with related records certifies that no command failed, if it gives anything. -/
theorem findAmid_settles (hr : d.registry.IsSound) (hexact : d.registry.IsExact) (hanswers : p.Answers)
    (c : Stores) (hwhere : Answers (d.registry.attributeTypes model) where_)
    {plans : List Builder} (hplans : AreShaped d.registry
      (fun model w => Answers (d.registry.attributeTypes model) (.map w)) model plans)
    (htame : AreTame d c.server.sets) :
    Settles c (fun given => findAmid p.arm d given model where_ plans) fun found c' =>
      p.Certified c (found.isSome = true) c' ∧ FindsQuiet found :=
  Settles.inScope (armed_settles (findWith_settles (p.armed_arm c) hanswers (hexact.ne_decimal hr model)
    hwhere htame fun c₁ htame' => findPlansAmid_settles hr hexact hanswers c₁ hplans htame'))

end Cache

end TwinStore
