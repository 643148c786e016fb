import TwinStore.Proofs.CacheChanges
import TwinStore.Proofs.CacheEndings
import TwinStore.Proofs.Correlations
import TwinStore.Proofs.TestedMembers

/-!
# Members that are skipped

A member that cannot be read costs a search one warning and nothing else: what is found, removed and
replaced is the same with and without it.  That needs members that a search gets past; an identifier
written as a number, or a decimal number written as some other text, is neither read nor skipped.

Main definitions:

- `Trace.warnings`: the warnings that a sink was told.
- `Action.Warns`: the outcome of an operation, what it leaves, and the warnings that it adds.
- `Cache.Replaces`: sets of which some members of one set were replaced by others.
- `Cache.ChangesFound`: an operation that replaces some of the members that a search finds.
- `Stores.withMembers`, `Cache.SameBut`: stores with more members in one set, and runs that differ in
  such members only.

Main results:

- Theorem `readMembers_warns`: one warning for each member that is skipped.
- Theorem `delete_changesFound`, `update_changesFound`: what a removal or an update replaces depends on
  what the search finds, and on nothing else in the sets.
- Theorem `undecodable_members_are_skipped`: searches, removals and updates among such members.
- Theorem `numeric_uuid_breaks_find`: a member that is neither read nor skipped.
-/

namespace TwinStore

open Filter

/-! ## Warnings -/

/-- The warning that the sink is told, if it is told one. -/
def SinkCall.warning? : SinkCall → Option Event
  | annotate _ event => if event.severity = .warning then some event else none
  | _ => none

namespace Trace

variable {t : Trace}

/-- The warnings that the sink was told, in order. -/
def warnings (t : Trace) : List Event := t.calls.filterMap SinkCall.warning?

theorem warnings_tell (call : SinkCall) :
    (t.tell call).warnings = t.warnings ++ call.warning?.toList := by
  rw [warnings, calls_tell, List.filterMap_append]
  cases h : call.warning? <;> simp [warnings, h]

theorem warnings_annotate (ref : CorrelationRef) (event : Event) :
    (t.annotate ref event).warnings =
      t.warnings ++ (if event.severity = .warning then some event else none).toList :=
  warnings_tell _

/-- Entering a scope warns of nothing. -/
theorem warnings_enter (given : Option CorrelationRef) : (t.enter given).1.warnings = t.warnings := by
  cases given with
  | some ref => rfl
  | none =>
    cases hactive : t.active with
    | some ref =>
      rw [enter_of_active hactive, warnings_tell]
      exact List.append_nil _
    | none =>
      obtain ⟨opened, henter, hcalls, -⟩ := enter_of_idle hactive
      rw [henter, warnings, hcalls, List.filterMap_append]
      exact List.append_nil _

/-- Leaving a scope warns of nothing. -/
theorem warnings_leave (ref : CorrelationRef) (hold : Hold) :
    (t.leave ref hold).warnings = t.warnings := by
  cases hold with
  | given | borrowed => rfl
  | owned =>
    rw [leave, finish]
    split_ifs
    · rfl
    · rw [warnings_tell]
      exact List.append_nil _

end Trace

namespace Action

variable {α β : Type} {x : Action α} {f : α → Action β} {a : α} {o : Outcome α} {o' : Outcome β}
  {P Q R : Stores → Prop} {ws ws' : List Event}

/-- The warnings are apart from the cache. -/
theorem isApart_warnings : IsApart fun s => s.trace.warnings where
  server _ _ := rfl
  connection _ _ _ := rfl
  log _ _ := rfl
  report ref severity component message context hseverity := by
    intro s
    rw [runFrom_report]
    show (s.trace.annotate _ _).warnings = _
    rw [Trace.warnings_annotate, if_neg hseverity]
    exact List.append_nil _

/-- Whether an operation on stores whose content satisfies a condition has an outcome, leaves a content
that satisfies another, and adds some warnings. -/
def Warns (x : Action α) (P : Stores → Prop) (o : Outcome α) (Q : Stores → Prop) (ws : List Event) :
    Prop :=
  ∀ s, P s.content → ∃ s', runFrom x s = (o, s') ∧ Q s'.content ∧
    s'.trace.warnings = s.trace.warnings ++ ws

namespace Warns

theorem leads (hx : x.Warns P o Q ws) : x.Leads P o Q := by
  intro s hs
  obtain ⟨s', hrun, hs', -⟩ := hx s hs
  exact ⟨s', hrun, hs'⟩

theorem of_leads (hx : x.Leads P o Q) (hkeeps : x.Keeps fun s => s.trace.warnings) :
    x.Warns P o Q [] := by
  intro s hs
  obtain ⟨s', hrun, hs'⟩ := hx s hs
  have hwarnings := hkeeps s
  rw [hrun] at hwarnings
  exact ⟨s', hrun, hs', hwarnings.trans (List.append_nil _).symm⟩

theorem pure (a : α) (P : Stores → Prop) : (Pure.pure a : Action α).Warns P (.ok a) P [] :=
  of_leads (Leads.pure a P) (Keeps.pure a)

/-- A warning is added. -/
theorem report (ref : CorrelationRef) (component message : String) (context : Entries Value)
    (P : Stores → Prop) : (Action.report ref .warning component message context).Warns P (.ok ()) P
      [⟨.warning, component, message, context⟩] :=
  fun _ hs => ⟨_, runFrom_report .., hs, Trace.warnings_annotate _ _⟩

theorem bind (hx : x.Warns P (.ok a) R ws) (hf : (f a).Warns R o' Q ws') :
    (x >>= f).Warns P o' Q (ws ++ ws') := by
  intro s hs
  obtain ⟨s₁, hrun, hs₁, hws⟩ := hx s hs
  obtain ⟨s', hrun', hs', hws'⟩ := hf s₁ hs₁
  exact ⟨s', (runFrom_bind_of_ok hrun).trans hrun', hs', by rw [hws', hws, List.append_assoc]⟩

/-- What follows an operation that warns of nothing. -/
theorem silent_bind (hx : x.Warns P (.ok a) R []) (hf : (f a).Warns R o' Q ws) :
    (x >>= f).Warns P o' Q ws := bind hx hf

/-- Less may be known before, and less be said of the content afterwards. -/
theorem weaken {P' Q' : Stores → Prop} (hx : x.Warns P o Q ws) (hP : ∀ c, P' c → P c)
    (hQ : ∀ c, Q c → Q' c) : x.Warns P' o Q' ws := by
  intro s hs
  obtain ⟨s', hrun, hs', hws⟩ := hx s (hP _ hs)
  exact ⟨s', hrun, hQ _ hs', hws⟩

/-- What is made of a result is made of it without a warning. -/
theorem bind_pure {b : β} (hx : x.Warns P (.ok a) Q ws) (hf : f a = Pure.pure b) :
    (x >>= f).Warns P (.ok b) Q ws := by
  have hmade : (x >>= f).Warns P (.ok b) Q (ws ++ []) := bind hx (hf ▸ pure b Q)
  rwa [List.append_nil] at hmade

theorem get_bind {f : Stores → Action β}
    (h : ∀ s, P s.content → (f s).Warns (· = s.content) o' Q ws) : (get >>= f).Warns P o' Q ws := by
  intro s hs
  obtain ⟨s', hrun, hs'⟩ := h s hs s rfl
  exact ⟨s', (runFrom_bind_of_ok (runFrom_get s)).trans hrun, hs'⟩

/-- A scope adds the warnings of its body. -/
theorem inScope {given : Option CorrelationRef} {body : CorrelationRef → Action α}
    (h : ∀ ref, (body ref).Warns P o Q ws) : (Action.inScope given body).Warns P o Q ws := by
  intro s hs
  obtain ⟨s', hrun, hs', hws⟩ := h (s.trace.enter given).2.1 { s with trace := (s.trace.enter given).1 } hs
  refine ⟨{ s' with trace := s'.trace.leave (s.trace.enter given).2.1 (s.trace.enter given).2.2 }, ?_,
    hs', ?_⟩
  · rw [runFrom_inScope]
    simp only [hrun]
  · show (s'.trace.leave _ _).warnings = _
    rw [Trace.warnings_leave, hws]
    show (s.trace.enter given).1.warnings ++ ws = _
    rw [Trace.warnings_enter]

end Warns

end Action

namespace Cache

open Action

variable {d : Deployment} {ref : CorrelationRef} {model : String} {where_ : Value}
  {predicate : Predicate} {sets sets' : Entries (List String)}
  {primary : Primary.Database × List (Option Bool)} {P : Stores → Prop}

/-! ## Searches -/

/-- The warning that a member of the set of a model is skipped. -/
def skipWarning (model : String) : Event :=
  ⟨.warning, component, "Undecodable cache member skipped", [("model", .text model)]⟩

/-- Whether a member is skipped, or read and tested by a predicate. -/
def IsSettled (types : Entries AttributeType) (predicate : Predicate) (raw : String) : Prop :=
  isSkipped types raw = true ∨
    ∃ record b, decode raw types = .ok record ∧ predicate record = .ok b

/-- One warning for a member that is skipped, and none for any other. -/
theorem readMember_warns {raw : String}
    (h : IsSettled (d.registry.attributeTypes model) predicate raw) :
    (readMember d ref model predicate raw).Warns P
      (.ok (matchedBy (d.registry.attributeTypes model) predicate raw)) P
      (if isSkipped (d.registry.attributeTypes model) raw then [skipWarning model] else []) := by
  rw [readMember, matchedBy, isSkipped]
  rcases h with hskipped | ⟨record, b, hread, htest⟩
  · obtain ⟨fault, hfault, hskips⟩ := isSkipped_iff.mp hskipped
    simp only [hfault, hskips, if_true]
    exact Warns.bind (Warns.report _ _ _ _ P) (Warns.pure none P)
  · simp only [hread, htest]
    refine Warns.silent_bind (Warns.of_leads (Leads.ofOutcome (.ok b) P) (Keeps.ofOutcome _)) ?_
    cases b <;> exact Warns.pure _ P

/-- One warning for each member that is skipped. -/
theorem readMembers_warns {members : List String}
    (h : ∀ raw ∈ members, IsSettled (d.registry.attributeTypes model) predicate raw) :
    (readMembers d ref model predicate members).Warns P
      (.ok (members.filterMap (matchedBy (d.registry.attributeTypes model) predicate))) P
      (List.replicate (members.countP (isSkipped (d.registry.attributeTypes model)))
        (skipWarning model)) := by
  induction members with
  | nil => exact Warns.pure [] P
  | cons raw rest ih =>
    have hfound : (matchedBy (d.registry.attributeTypes model) predicate raw).toList ++
        rest.filterMap (matchedBy (d.registry.attributeTypes model) predicate) =
        (raw :: rest).filterMap (matchedBy (d.registry.attributeTypes model) predicate) := by
      rw [List.filterMap_cons]
      cases matchedBy (d.registry.attributeTypes model) predicate raw <;> rfl
    have hwarnings : (if isSkipped (d.registry.attributeTypes model) raw then [skipWarning model]
        else []) ++ List.replicate (rest.countP (isSkipped (d.registry.attributeTypes model)))
          (skipWarning model) =
        List.replicate ((raw :: rest).countP (isSkipped (d.registry.attributeTypes model)))
          (skipWarning model) := by
      rw [List.countP_cons]
      split_ifs <;> rfl
    rw [← hfound, ← hwarnings]
    exact Warns.bind (readMember_warns (h raw List.mem_cons_self))
      (Warns.bind_pure (ih fun raw' h' => h raw' (List.mem_cons_of_mem raw h')) rfl)

/-- A search finds the members that satisfy a filter, with one warning for each member that is
skipped. -/
theorem matching_warns
    (haccepts : (Predicate.ofFilter where_ (some (d.registry.attributeTypes model))).run.2 =
      .ok predicate) {server : Server}
    (h : ∀ raw ∈ server.members (setKey d model),
      IsSettled (d.registry.attributeTypes model) predicate raw) (ref : CorrelationRef) :
    (matching d ref model where_).Warns (Stores.Stands d server.sets primary)
      (.ok (some ((server.members (setKey d model)).filterMap
        (matchedBy (d.registry.attributeTypes model) predicate))))
      (Stores.Stands d server.sets primary)
      (List.replicate
        ((server.members (setKey d model)).countP (isSkipped (d.registry.attributeTypes model)))
        (skipWarning model)) := by
  refine Warns.silent_bind (Warns.of_leads (predicateOf_leads_of_read haccepts)
    (predicateOf_keeps isApart_warnings model where_)) ?_
  refine Warns.silent_bind (Warns.of_leads (connect_leads d ref)
    (connect_keeps isApart_warnings d)) ?_
  refine Warns.silent_bind (Warns.of_leads (request_leads .members fun server' hserver =>
    ⟨hserver, rfl⟩) (request_keeps isApart_warnings .members id)) ?_
  refine Warns.get_bind fun s hs => ?_
  have hset : s.server.members (setKey d model) = server.members (setKey d model) := by
    rw [Server.members, show s.server.sets = server.sets from hs.sets_eq, Server.members]
  rw [hset]
  have hfound : (readMembers d ref model predicate (server.members (setKey d model)) >>=
      fun found => pure (some found)).Warns (· = s.content) _ (· = s.content) _ :=
    Warns.bind_pure (readMembers_warns h) rfl
  refine hfound.weaken (fun _ => id) ?_
  rintro c rfl
  exact hs

/-- A search without related records gives the records that it finds. -/
theorem find_warns (hm : d.registry.hasModel model = true) {found : List (String × Record)}
    {ws : List Event}
    (hfound : ∀ ref, (matching d ref model where_).Warns (Stores.Stands d sets primary)
      (.ok (some found)) (Stores.Stands d sets primary) ws) (given : Option CorrelationRef) :
    (find d given model where_ []).Warns (Stores.Stands d sets primary)
      (.ok (some (found.map (·.2)))) (Stores.Stands d sets primary) ws := by
  refine Warns.inScope fun ref => Warns.silent_bind (Warns.of_leads (Leads.knows hm ref component _)
    (keeps_knows isApart_warnings d ref component model)) ?_
  exact Warns.bind_pure (hfound ref) rfl

/-! ## Changes -/

/-- Whether some members of the set under a key were replaced by others, and nothing else was changed
in the sets. -/
def Replaces (key : String) (old new : List String) (sets sets' : Entries (List String)) : Prop :=
  ∀ key' raw, raw ∈ (Entries.get? sets' key').getD [] ↔
    (raw ∈ (Entries.get? sets key').getD [] ∧ ¬(key' = key ∧ raw ∈ old)) ∨ key' = key ∧ raw ∈ new

theorem Replaces.refl (key : String) (sets : Entries (List String)) : Replaces key [] [] sets sets := by
  intro key' raw
  simp

theorem replaces_removed (key : String) (old : List String) (sets : Entries (List String)) :
    Replaces key old [] sets (removed sets key old) := by
  intro key' raw
  rw [mem_removed]
  simp

theorem replaces_added (key : String) (old new : List String) (sets : Entries (List String)) :
    Replaces key old new sets (added (removed sets key old) key new) := by
  intro key' raw
  rw [mem_added, mem_removed]

/-- Whether an operation replaces some of the members that a search finds, and depends on nothing else
in the sets. -/
def ChangesFound {α : Type} (d : Deployment) (primary : Primary.Database × List (Option Bool))
    (model : String) (where_ : Value) (found : List (String × Record)) (x : Action α) : Prop :=
  ∃ (o : Outcome α) (old new : List String), (∀ raw ∈ old, raw ∈ found.map (·.1)) ∧
    ∀ sets, (∀ ref, (matching d ref model where_).Leads (Stores.Stands d sets primary)
        (.ok (some found)) (Stores.Stands d sets primary)) →
      ∃ sets', Replaces (setKey d model) old new sets sets' ∧
        x.Leads (Stores.Stands d sets primary) o (Stores.Stands d sets' primary)

/-- An operation that leaves the sets alone. -/
theorem ChangesFound.of_nothing {α : Type} {x : Action α} {found : List (String × Record)}
    (o : Outcome α) (h : ∀ sets, (∀ ref, (matching d ref model where_).Leads
        (Stores.Stands d sets primary) (.ok (some found)) (Stores.Stands d sets primary)) →
      x.Leads (Stores.Stands d sets primary) o (Stores.Stands d sets primary)) :
    ChangesFound d primary model where_ found x :=
  ⟨o, [], [], nofun, fun sets hfound => ⟨sets, Replaces.refl _ sets, h sets hfound⟩⟩

/-- A removal removes what the search finds. -/
theorem delete_changesFound (hm : d.registry.hasModel model = true) (given : Option CorrelationRef)
    (where_ : Value) (found : List (String × Record)) :
    ChangesFound d primary model where_ found (delete d given model where_) := by
  refine ⟨.ok (some !found.isEmpty), found.map (·.1), [], fun _ => id, fun sets hfound => ?_⟩
  refine ⟨_, ?_, delete_leads hm given hfound⟩
  cases found with
  | nil => exact Replaces.refl _ sets
  | cons e found => exact replaces_removed _ _ sets

/-- An update replaces what the search finds, or nothing. -/
theorem update_changesFound (hm : d.registry.hasModel model = true) (given : Option CorrelationRef)
    (spec where_ : Value) (found : List (String × Record)) :
    ChangesFound d primary model where_ found (update d given model spec where_) := by
  cases hfields : updatedFields spec with
  | error fault => exact .of_nothing _ fun sets _ => update_unnamed_leads hm given hfields _
  | ok fields =>
    by_cases hknown : ∀ field ∈ fields, Entries.has (d.registry.attributeTypes model) field = true
    · by_cases hnone : found = []
      · exact .of_nothing _ fun sets hfound =>
          update_nothing_leads hm given hfields hknown (hnone ▸ hfound)
      · cases hmembers : updatedMembers d model spec (found.map (·.2)) with
        | error fault =>
          exact .of_nothing _ fun sets hfound =>
            update_failed_leads hm given hfields hknown hfound hmembers hnone
        | ok members =>
          refine ⟨_, found.map (·.1), members, fun _ => id, fun sets hfound => ⟨_, ?_,
            update_leads hm given hfields hknown hfound hmembers⟩⟩
          rw [if_neg (by simpa using hnone)]
          exact replaces_added _ _ _ sets
    · push Not at hknown
      obtain ⟨field, hfield, hunknown⟩ := hknown
      exact .of_nothing _ fun sets _ =>
        update_unknown_leads hm given hfields hfield (Bool.eq_false_iff.mpr hunknown) _

/-! ## Sets with more members -/

/-- More members that a selection leaves out do not change what it selects. -/
theorem filterMap_members_add {α : Type} {f : String → Option α} {server : Server} {key : String}
    {extra : List String} (h : ∀ raw ∈ extra, f raw = none) :
    ((server.add key extra).members key).filterMap f = (server.members key).filterMap f := by
  have hinsert {raw : String} (hraw : f raw = none) (members : List String) :
      (insertMember raw members).filterMap f = members.filterMap f := by
    induction members with
    | nil => simp [insertMember, hraw]
    | cons m rest ih =>
      rw [insertMember]
      split_ifs
      · rw [List.filterMap_cons, hraw]
      · rfl
      · rw [List.filterMap_cons, ih, ← List.filterMap_cons]
  rw [Server.members, Server.add, Entries.get?_set_self, Option.getD_some]
  generalize server.members key = members
  induction extra generalizing members with
  | nil => rfl
  | cons raw rest ih =>
    rw [List.foldl_cons, ih fun raw' h' => h raw' (List.mem_cons_of_mem raw h'),
      hinsert (h raw List.mem_cons_self)]

end Cache

/-- Stores with more members in the set under a key. -/
def Stores.withMembers (s : Stores) (key : String) (extra : List String) : Stores :=
  { s with server := s.server.add key extra }

namespace Cache

open Action

variable {d : Deployment} {model : String} {where_ : Value} {predicate : Predicate} {s : Stores}

/-- Whether two runs end with the same outcome and leave the same sets, but for some members of the set
under a key that only the second run leaves for sure. -/
def SameBut {α : Type} (key : String) (extra : List String) (r r' : Outcome α × Stores) : Prop :=
  r'.1 = r.1 ∧ ∀ key' raw, raw ∈ r'.2.server.members key' ↔
    raw ∈ r.2.server.members key' ∨ key' = key ∧ raw ∈ extra

/-- Replacing members of two sets, of which one has more members that are not replaced, leaves sets that
differ in these members. -/
theorem Replaces.members_iff {key : String} {old new extra : List String}
    {sets sets' left left' : Entries (List String)} (h : Replaces key old new sets left)
    (h' : Replaces key old new sets' left')
    (hsets : ∀ key' raw, raw ∈ (Entries.get? sets' key').getD [] ↔
      raw ∈ (Entries.get? sets key').getD [] ∨ key' = key ∧ raw ∈ extra)
    (hextra : ∀ raw ∈ extra, raw ∉ old) (key' raw : String) :
    raw ∈ (Entries.get? left' key').getD [] ↔
      raw ∈ (Entries.get? left key').getD [] ∨ key' = key ∧ raw ∈ extra := by
  have hkept := hextra raw
  rw [h' key' raw, h key' raw, hsets key' raw]
  tauto

/-- Stores with more members in a set stand as the stores do. -/
theorem stands_withMembers (hup : s.IsUp d) (key : String) (extra : List String) :
    Stores.Stands d (s.server.add key extra).sets s.primary (s.withMembers key extra).content :=
  ⟨⟨hup.answers, hup.reachable⟩, rfl, rfl⟩

/-- An operation that replaces what a search finds does the same with more members that are not
found. -/
theorem ChangesFound.sameBut {α : Type} {x : Action α} {found : List (String × Record)}
    (hx : ChangesFound d s.primary model where_ found x) (hup : s.IsUp d) {extra : List String}
    (hextra : ∀ raw ∈ extra, raw ∉ found.map (·.1))
    (hfound : ∀ sets, sets = s.server.sets ∨
        sets = (s.server.add (setKey d model) extra).sets → ∀ ref,
      (matching d ref model where_).Leads (Stores.Stands d sets s.primary) (.ok (some found))
        (Stores.Stands d sets s.primary)) :
    SameBut (setKey d model) extra (runFrom x s)
      (runFrom x (s.withMembers (setKey d model) extra)) := by
  obtain ⟨o, old, new, hold, hchange⟩ := hx
  obtain ⟨left, hreplaces, hleads⟩ := hchange _ (hfound _ (.inl rfl))
  obtain ⟨left', hreplaces', hleads'⟩ := hchange _ (hfound _ (.inr rfl))
  obtain ⟨s₁, hrun, hs₁⟩ := hleads s ⟨⟨hup.answers, hup.reachable⟩, rfl, rfl⟩
  obtain ⟨s₂, hrun', hs₂⟩ := hleads' (s.withMembers (setKey d model) extra)
    (stands_withMembers hup _ extra)
  rw [hrun, hrun']
  refine ⟨rfl, fun key' raw => ?_⟩
  have hmembers := hreplaces.members_iff hreplaces'
    (fun _ _ => Server.mem_members_add)
    (fun raw hraw hmem => hextra raw hraw (hold raw hmem)) key' raw
  rw [← hs₁.sets_eq, ← hs₂.sets_eq] at hmembers
  exact hmembers

/-- Among members that a search gets past, those that cannot be read cost it one warning each and
nothing else: it gives the records of the others that satisfy the filter, and with more such members in
the set the same records are found, and the same members removed and replaced. -/
theorem undecodable_members_are_skipped (hm : d.registry.hasModel model = true)
    (haccepts : (Predicate.ofFilter where_ (some (d.registry.attributeTypes model))).run.2 =
      .ok predicate) (hquiet : HasQuietOperands (d.registry.attributeTypes model) where_)
    (hup : s.IsUp d) (hpasses : ∀ raw ∈ s.server.members (setKey d model),
      Passes (d.registry.attributeTypes model) where_ raw) (given : Option CorrelationRef) :
    (∃ s', runFrom (find d given model where_ []) s =
        (.ok (some (((s.server.members (setKey d model)).filterMap
          (matchedBy (d.registry.attributeTypes model) predicate)).map (·.2))), s') ∧
      s'.trace.warnings = s.trace.warnings ++ List.replicate
        ((s.server.members (setKey d model)).countP (isSkipped (d.registry.attributeTypes model)))
        (skipWarning model)) ∧
    ∀ extra, (∀ raw ∈ extra, isSkipped (d.registry.attributeTypes model) raw = true) →
      (runFrom (find d given model where_ []) (s.withMembers (setKey d model) extra)).1 =
          (runFrom (find d given model where_ []) s).1 ∧
        SameBut (setKey d model) extra (runFrom (delete d given model where_) s)
          (runFrom (delete d given model where_) (s.withMembers (setKey d model) extra)) ∧
        ∀ spec, SameBut (setKey d model) extra (runFrom (update d given model spec where_) s)
          (runFrom (update d given model spec where_) (s.withMembers (setKey d model) extra)) := by
  have hsettled : ∀ raw ∈ s.server.members (setKey d model),
      IsSettled (d.registry.attributeTypes model) predicate raw :=
    fun raw hraw => (hpasses raw hraw).cases hquiet haccepts
  have hstands : Stores.Stands d s.server.sets s.primary s.content :=
    ⟨⟨hup.answers, hup.reachable⟩, rfl, rfl⟩
  have hmatching := @matching_warns d model where_ predicate s.primary haccepts s.server hsettled
  refine ⟨?_, fun extra hextra => ?_⟩
  · obtain ⟨s', hrun, _, hwarnings⟩ := find_warns hm hmatching given s hstands
    exact ⟨s', hrun, hwarnings⟩
  have hunmatched : ∀ raw ∈ extra,
      matchedBy (d.registry.attributeTypes model) predicate raw = none := by
    intro raw hraw
    obtain ⟨fault, hfault, _⟩ := isSkipped_iff.mp (hextra raw hraw)
    simp only [matchedBy, hfault]
  have hsettled' : ∀ raw ∈ (s.server.add (setKey d model) extra).members (setKey d model),
      IsSettled (d.registry.attributeTypes model) predicate raw := by
    intro raw hraw
    rcases Server.mem_members_add.mp hraw with hraw | ⟨_, hraw⟩
    · exact hsettled raw hraw
    · exact .inl (hextra raw hraw)
  have hmatching' := @matching_warns d model where_ predicate s.primary haccepts
    (s.server.add (setKey d model) extra) hsettled'
  rw [filterMap_members_add hunmatched] at hmatching'
  have hfound : ∀ sets, sets = s.server.sets ∨ sets = (s.server.add (setKey d model) extra).sets →
      ∀ ref, (matching d ref model where_).Leads (Stores.Stands d sets s.primary)
        (.ok (some ((s.server.members (setKey d model)).filterMap
          (matchedBy (d.registry.attributeTypes model) predicate))))
        (Stores.Stands d sets s.primary) := by
    rintro _ (rfl | rfl) ref
    · exact (hmatching ref).leads
    · exact (hmatching' ref).leads
  have hunfound : ∀ raw ∈ extra, raw ∉ ((s.server.members (setKey d model)).filterMap
      (matchedBy (d.registry.attributeTypes model) predicate)).map (·.1) := by
    intro raw hraw hmem
    obtain ⟨e, he, heq⟩ := List.mem_map.mp hmem
    obtain ⟨raw', _, hmatched⟩ := List.mem_filterMap.mp he
    have hsame : raw' = raw := (matchedBy_eq_some.mp hmatched).1.symm.trans heq
    rw [hsame, hunmatched raw hraw] at hmatched
    cases hmatched
  refine ⟨?_, (delete_changesFound hm given where_ _).sameBut hup hunfound hfound,
    fun spec => (update_changesFound hm given spec where_ _).sameBut hup hunfound hfound⟩
  obtain ⟨s₁, hrun, -⟩ := find_warns hm hmatching given s hstands
  obtain ⟨s₂, hrun', -⟩ := find_warns hm hmatching' given _ (stands_withMembers hup _ extra)
  rw [hrun, hrun']

/-! ## Parcels -/

/-- The registry of parcels, which have an identifier. -/
def parcels : Deployment :=
  ⟨(Registry.register {} [⟨"parcel", [{ name := "id", type := .int, primaryKey := true },
    { name := "code", type := .uuid }], []⟩]).1, "", true, none⟩

/-- Stores with some members in the set of parcels. -/
def withParcels (members : List String) : Stores := { server := { sets := [("parcel", members)] } }

/-- The filter for all parcels with a number. -/
def numbered : Value := .map [("id", .map [("$gte", .int 1)])]

/-- A parcel beside one whose code is no identifier. -/
def parcelSet : List String :=
  ["\x7b\"code\":\"x\",\"id\":2\x7d", "\x7b\"id\":1\x7d"]

theorem hasQuietOperands_numbered :
    HasQuietOperands (parcels.registry.attributeTypes "parcel") numbered := by
  intro c hc type htype v hv w hw
  have hmentions : mentions numbered = [⟨"id", .gte, .int 1⟩] := by cbv
  rw [hmentions, List.mem_singleton] at hc
  subst hc
  obtain rfl : AttributeType.int = type := Option.some.inj htype
  obtain rfl : v = .int 1 := List.mem_singleton.mp hv
  exact Except.ok.inj hw ▸ trivial

theorem passes_parcelSet : ∀ raw ∈ (withParcels parcelSet).server.members (setKey parcels "parcel"),
    Passes (parcels.registry.attributeTypes "parcel") numbered raw := by
  intro raw hraw
  have hmembers : (withParcels parcelSet).server.members (setKey parcels "parcel") = parcelSet := by cbv
  rw [hmembers, parcelSet] at hraw
  rcases List.mem_cons.mp hraw with rfl | hraw
  · exact .inl (by cbv)
  · obtain rfl := List.mem_singleton.mp hraw
    refine .inr fun members hread e he type htype => ?_
    have hobject : Json.read "\x7b\"id\":1\x7d" = .ok (.object [("id", .int 1)]) := by cbv
    obtain rfl := Json.object.inj (Except.ok.inj (hread.symm.trans hobject))
    obtain rfl := List.mem_singleton.mp he
    obtain rfl : AttributeType.int = type := Option.some.inj htype
    exact ⟨trivial, fun _ => trivial⟩

/-- The parcel is found, with one warning for the other one, also if rubbish is added to the set. -/
theorem readable_parcel_is_found :
    ∃ s', runFrom (find parcels none "parcel" numbered []) (withParcels parcelSet) =
        (.ok (some [[("id", .int 1)]]), s') ∧ s'.trace.warnings = [skipWarning "parcel"] ∧
      (runFrom (find parcels none "parcel" numbered [])
        ((withParcels parcelSet).withMembers "parcel" ["rubbish"])).1 =
          .ok (some [[("id", .int 1)]]) ∧
      SameBut "parcel" ["rubbish"]
        (runFrom (delete parcels none "parcel" numbered) (withParcels parcelSet))
        (runFrom (delete parcels none "parcel" numbered)
          ((withParcels parcelSet).withMembers "parcel" ["rubbish"])) := by
  have hreads : (Predicate.ofFilter numbered
      (some (parcels.registry.attributeTypes "parcel"))).run.2.toOption.isSome = true := by cbv
  have hfound : (runFrom (find parcels none "parcel" numbered []) (withParcels parcelSet)).1 =
      .ok (some [[("id", .int 1)]]) := by cbv
  cases haccepts : (Predicate.ofFilter numbered
      (some (parcels.registry.attributeTypes "parcel"))).run.2 with
  | error fault =>
    rw [haccepts] at hreads
    cases hreads
  | ok predicate =>
    obtain ⟨⟨s', hrun, hwarnings⟩, hmore⟩ := undecodable_members_are_skipped (d := parcels)
      (s := withParcels parcelSet) (by cbv) haccepts hasQuietOperands_numbered
      ⟨fun _ => rfl, .inr (.inl rfl)⟩ passes_parcelSet none
    obtain ⟨hfind, hdelete, -⟩ := hmore ["rubbish"] fun raw hraw => by
      obtain rfl := List.mem_singleton.mp hraw
      cbv
    have hcount : ((withParcels parcelSet).server.members (setKey parcels "parcel")).countP
        (isSkipped (parcels.registry.attributeTypes "parcel")) = 1 := by cbv
    rw [hcount] at hwarnings
    refine ⟨s', ?_, hwarnings, hfind.trans hfound, hdelete⟩
    rw [← hfound, hrun]

/-- An identifier written as a number is neither read nor skipped: the search of all parcels fails. -/
theorem numeric_uuid_breaks_find :
    parcels.registry.hasModel "parcel" = true ∧
      (∃ predicate, (Predicate.ofFilter .null (some (parcels.registry.attributeTypes "parcel"))).run.2 =
        .ok predicate) ∧
      (withParcels ["\x7b\"code\":5,\"id\":2\x7d", "\x7b\"id\":1\x7d"]).IsUp parcels ∧
      (runFrom (find parcels none "parcel" .null [])
        (withParcels ["\x7b\"code\":5,\"id\":2\x7d", "\x7b\"id\":1\x7d"])).1 =
        .error .missingMember := by
  refine ⟨by cbv, ⟨_, rfl⟩, ⟨fun _ => rfl, .inr (.inl rfl)⟩, by cbv⟩

end Cache

end TwinStore
