import TwinStore.Cache.Change
import TwinStore.Cache.Server
import TwinStore.Proofs.Running

/-!
# How operations of the cache end

An operation may fail, and the cache may be out of order in any way.  What matters then is what the
stores hold: the sets, the commands that fail, and the primary store.  Each operation of the cache is
described once: all its outcomes, with what it leaves in each of them and the reasons for which it
fails.

Main definitions:

- `Holding`: what stores hold, apart from the connection and from what is only written.
- `Action.Ends`: the outcomes of an operation, each with the holding that it leaves.
- `Answered`: the outcomes of a command.
- `matchedIn`: the members of a set that can be read and satisfy a filter.
- `SearchFault`, `UpdateFault`: why a search and an update fail.
- `CreateEnd`, `DeleteEnd`, `ReplaceEnd`, `UpdateEnd`: the outcomes of the changes.

Main results:

- Theorem `Ends.bind`, `Ends.inScope`: how composed operations end follows from how their parts do.
- Theorem `matching_ends`: a search changes nothing, finds exactly the matching members, and fails
  for no other reason than those named.
- Theorem `create_ends`, `delete_ends`, `update_ends`: all outcomes of the changes.
-/

namespace TwinStore

/-- What stores hold: the sets of the cache, the commands that fail, the database, and the outcomes
of deletions that are planned. -/
structure Holding where
  sets : Entries (List String)
  outages : Entries Cache.Outage
  database : Primary.Database
  planned : List (Option Bool)

/-- What some stores hold. -/
def Stores.holding (s : Stores) : Holding :=
  ⟨s.server.sets, s.server.outages, s.database, s.plannedDeletions⟩

namespace Holding

/-- How a command fails, if it does. -/
def outage? (h : Holding) (command : Cache.Command) : Option Cache.Outage :=
  Entries.get? h.outages command.name

/-- The members of the set under a key. -/
def members (h : Holding) (key : String) : List String := (Entries.get? h.sets key).getD []

end Holding

namespace Action

variable {α β : Type}

/-- Whether an operation on stores that hold what satisfies a condition ends, in whatever way, so
that another condition holds of its outcome and of what the stores hold then. -/
def Ends (P : Holding → Prop) (x : Action α) (Q : Outcome α → Holding → Prop) : Prop :=
  ∀ s, P s.holding → Q (runFrom x s).1 (runFrom x s).2.holding

namespace Ends

variable {x : Action α} {f : α → Action β} {P : Holding → Prop} {Q R : Outcome α → Holding → Prop}
  {T : Outcome β → Holding → Prop}

/-! ## Single operations -/

theorem pure {a : α} (h : ∀ c, P c → Q (.ok a) c) : Ends P (Pure.pure a) Q := fun _ hs => h _ hs

theorem throw {fault : Fault} (h : ∀ c, P c → Q (.error fault) c) :
    Ends P (MonadExcept.throw fault) Q := fun _ hs => h _ hs

theorem ofOutcome {o : Outcome α} (h : ∀ c, P c → Q o c) : Ends P (Action.ofOutcome o) Q := by
  intro s hs
  rw [runFrom_ofOutcome]
  exact h _ hs

/-! ## Composed operations -/

/-- Less may be known before, and less be said afterwards. -/
theorem weaken {P' : Holding → Prop} (hx : Ends P x R) (hP : ∀ c, P' c → P c)
    (hQ : ∀ o c, R o c → Q o c) : Ends P' x Q :=
  fun s hs => hQ _ _ (hx s (hP _ hs))

/-- What is said of each holding holds of a condition on it. -/
theorem of_each (h : ∀ c, P c → Ends (· = c) x Q) : Ends P x Q := fun s hs => h _ hs s rfl

/-- A sequence ends as its second part does, or fails as its first part does. -/
theorem bind (hx : Ends P x R) (hf : ∀ a, Ends (R (.ok a)) (f a) T)
    (hfails : ∀ fault c, R (.error fault) c → T (.error fault) c) : Ends P (x >>= f) T := by
  intro s hs
  have hfirst := hx s hs
  rw [runFrom_bind]
  split
  · next a s' hrun =>
    rw [hrun] at hfirst
    exact hf a s' hfirst
  · next fault s' hrun =>
    rw [hrun] at hfirst
    exact hfails fault _ hfirst

theorem ofOutcome_bind {o : Outcome α} (hf : ∀ a, o = .ok a → Ends P (f a) T)
    (hfails : ∀ fault, o = .error fault → ∀ c, P c → T (.error fault) c) :
    Ends P (Action.ofOutcome o >>= f) T := by
  cases o with
  | ok a => exact hf a rfl
  | error fault => exact fun s hs => hfails fault rfl _ hs

theorem modify_bind {S : Holding → Prop} {g : Stores → Stores} {f : PUnit → Action β}
    (hg : ∀ s, P s.holding → S (g s).holding) (hf : Ends S (f ⟨⟩) T) :
    Ends P ((modify g : Action PUnit) >>= f) T := fun s hs => hf (g s) (hg s hs)

/-- An operation that looks at the stores sees what they hold. -/
theorem get_bind {f : Stores → Action β} (h : ∀ s, P s.holding → Ends (· = s.holding) (f s) T) :
    Ends P (get >>= f) T := by
  intro s hs
  rw [runFrom_bind_of_ok (runFrom_get s)]
  exact h s hs s rfl

/-- The outcome of an attempt is a result. -/
theorem attempt_bind {f : Outcome α → Action β} (hx : Ends P x R) (hf : ∀ o, Ends (R o) (f o) T) :
    Ends P (Action.attempt x >>= f) T := by
  intro s hs
  rw [runFrom_bind_of_ok (runFrom_attempt x s)]
  exact hf _ _ (hx s hs)

/-- A report is only written. -/
theorem report_bind (ref : CorrelationRef) (severity : Severity) (component message : String)
    (context : Entries Value) {f : Unit → Action β} (hf : Ends P (f ()) T) :
    Ends P (Action.report ref severity component message context >>= f) T := fun _ hs => hf _ hs

theorem ofReported (r : Filter.Reported α) (h : ∀ c, P c → Q r.run.2 c) :
    Ends P (Action.ofReported r) Q := by
  intro s hs
  rw [runFrom_ofReported]
  exact h _ hs

/-- A model is known if it is registered. -/
theorem knows_bind (d : Deployment) (ref : CorrelationRef) (component model : String)
    {f : Bool → Action β} (hf : ∀ known, d.registry.hasModel model = known → Ends P (f known) T) :
    Ends P (Action.knows d ref component model >>= f) T := by
  rw [Action.knows]
  split_ifs with hm
  · exact hf true hm
  · exact fun _ hs => hf false (Bool.eq_false_iff.mpr hm) _ hs

/-- A scope leaves its trace behind and nothing else. -/
theorem inScope {given : Option CorrelationRef} {body : CorrelationRef → Action α}
    (h : ∀ ref, Ends P (body ref) Q) : Ends P (Action.inScope given body) Q := by
  intro s hs
  rw [runFrom_inScope]
  exact h _ _ hs

theorem ite {c : Prop} [Decidable c] {y : Action α} (hx : c → Ends P x Q) (hy : ¬c → Ends P y Q) :
    Ends P (if c then x else y) Q := by
  split_ifs with h
  · exact hx h
  · exact hy h

end Ends

end Action

end TwinStore

namespace TwinStore.Cache

open Action Filter

variable {d : Deployment} {ref : CorrelationRef} {h : Holding}

/-! ## Commands -/

/-- The outcomes of a command at some holding that would change the sets: it is carried out, is
answered with a failure, or ends the operation. -/
inductive Answered (command : Command) (h : Holding) (sets : Entries (List String)) :
    Outcome (Option String) → Holding → Prop where
  | carriedOut (answers : h.outage? command = none) :
    Answered command h sets (.ok none) { h with sets }
  | refused (failure : String) (fails : (h.outage? command).isSome) :
    Answered command h sets (.ok (some failure)) h
  | ended (fails : h.outage? command = some .badValue) :
    Answered command h sets (.error (.badValue command.failure)) h

theorem request_ends (command : Command) {change : Server → Server} {sets : Entries (List String)}
    (hchange : ∀ server : Server, server.sets = h.sets →
      (change server).sets = sets ∧ (change server).outages = server.outages) :
    Ends (· = h) (request command change) (Answered command h sets) := by
  refine Ends.modify_bind (S := (· = h)) (fun _ => id) (Ends.get_bind ?_)
  rintro s rfl
  have hanswer : s.server.outage? command = s.holding.outage? command := rfl
  rw [hanswer]
  split
  · next hnone =>
    refine Ends.modify_bind (S := (· = { s.holding with sets })) (fun s' hs' => ?_)
      (Ends.pure ?_)
    · obtain ⟨hsets, houtages⟩ := hchange s'.server (congrArg Holding.sets hs')
      show Holding.mk (change s'.server).sets (change s'.server).outages s'.database
        s'.plannedDeletions = { s.holding with sets }
      rw [hsets, houtages, ← hs']
      rfl
    · rintro _ rfl
      exact .carriedOut hnone
  · next hbad =>
    refine Ends.throw ?_
    rintro _ rfl
    exact .ended hbad
  · next hsome =>
    refine Ends.pure ?_
    rintro _ rfl
    exact .refused _ (by rw [hsome]; rfl)

/-- Members are added to a set. -/
theorem add_ends (key : String) (members : List String) :
    Ends (· = h) (request .add (·.add key members))
      (Answered .add h (({ sets := h.sets } : Server).add key members).sets) := by
  refine request_ends .add fun server hserver => ⟨?_, rfl⟩
  rw [← hserver]
  rfl

/-- Members are removed from a set. -/
theorem remove_ends (key : String) (members : List String) :
    Ends (· = h) (request .remove (·.remove key members))
      (Answered .remove h (({ sets := h.sets } : Server).remove key members).sets) := by
  refine request_ends .remove fun server hserver => ⟨?_, rfl⟩
  rw [← hserver]
  rfl

/-- Connecting changes nothing and does not fail, whether or not there is a connection then. -/
theorem connect_ends (d : Deployment) (ref : CorrelationRef) :
    Ends (· = h) (connect d ref) (fun o c => c = h ∧ ∃ connected, o = .ok connected) := by
  have hunavailable (message : String) : Ends (· = h) (unavailable ref message)
      (fun o c => c = h ∧ ∃ connected, o = .ok connected) :=
    Ends.report_bind _ _ _ _ _ (Ends.pure fun _ hc => ⟨hc, _, rfl⟩)
  have hping : Ends (· = h) (request .ping id) fun _ c => c = h := by
    refine (request_ends .ping fun server hserver => ⟨hserver, rfl⟩).weaken (fun _ => id) ?_
    intro o c hanswer
    cases hanswer <;> rfl
  have hgreet : Ends (· = h) (greet d ref) (fun o c => c = h ∧ ∃ connected, o = .ok connected) := by
    refine Ends.attempt_bind hping fun o => ?_
    split
    · refine Ends.modify_bind (S := (· = h)) (fun _ => id) ?_
      split_ifs
      · exact Ends.report_bind _ _ _ _ _ (Ends.pure fun _ hc => ⟨hc, _, rfl⟩)
      · exact Ends.pure fun _ hc => ⟨hc, _, rfl⟩
    · exact hunavailable _
  refine Ends.get_bind fun s hs => ?_
  rw [hs]
  refine Ends.ite (fun _ => Ends.pure fun _ hc => ⟨hc, _, rfl⟩) fun _ =>
    Ends.ite (fun _ => hgreet) fun _ => ?_
  split
  · exact hunavailable _
  · intro s' hs'
    exact hgreet _ hs

/-! ## Searches -/

/-- A member with its record, if it can be read and satisfies a predicate. -/
def matchedBy (types : Entries AttributeType) (predicate : Predicate) (raw : String) :
    Option (String × Record) :=
  match decode raw types with
  | .ok record =>
    match predicate record with
    | .ok true => some (raw, record)
    | _ => none
  | .error _ => none

theorem matchedBy_eq_some {types : Entries AttributeType} {predicate : Predicate} {raw : String}
    {e : String × Record} : matchedBy types predicate raw = some e ↔
      e.1 = raw ∧ decode raw types = .ok e.2 ∧ predicate e.2 = .ok true := by
  constructor
  · intro h
    rw [matchedBy] at h
    split at h
    · next record hdecode =>
      split at h
      · next htrue =>
        obtain rfl := Option.some.inj h
        exact ⟨rfl, hdecode, htrue⟩
      · cases h
    · cases h
  · rintro ⟨rfl, hdecode, htrue⟩
    simp [matchedBy, hdecode, htrue]

/-- The members of the set of a model that can be read and satisfy a filter, with their records. -/
def matchedIn (d : Deployment) (model : String) (where_ : Value) (members : List String) :
    List (String × Record) :=
  let types := d.registry.attributeTypes model
  match (Predicate.ofFilter where_ (some types)).run.2 with
  | .ok predicate => members.filterMap (matchedBy types predicate)
  | .error _ => []

/-- Why a search of the set of a model fails: the filter makes no sense beyond a mistake in it, the
command does not, or a member can neither be read nor skipped, or cannot be tested. -/
inductive SearchFault (d : Deployment) (model : String) (where_ : Value) (h : Holding) :
    Fault → Prop where
  | filter {fault : Fault}
    (reads : (Predicate.ofFilter where_ (some (d.registry.attributeTypes model))).run.2 =
      .error fault)
    (isNoMistake : ∀ e, fault ≠ .filter e) : SearchFault d model where_ h fault
  | command (fails : h.outage? .members = some .badValue) :
    SearchFault d model where_ h (.badValue Command.members.failure)
  | member {raw : String} {fault : Fault} (isMember : raw ∈ h.members (setKey d model))
    (reads : decode raw (d.registry.attributeTypes model) = .error fault)
    (isNotSkipped : isUndecodable fault = false) : SearchFault d model where_ h fault
  | test {raw : String} {record : Record} {predicate : Predicate} {fault : Fault}
    (isMember : raw ∈ h.members (setKey d model))
    (reads : decode raw (d.registry.attributeTypes model) = .ok record)
    (filter : (Predicate.ofFilter where_ (some (d.registry.attributeTypes model))).run.2 =
      .ok predicate)
    (tests : predicate record = .error fault) : SearchFault d model where_ h fault

/-- Why a member ends a search by a predicate: it can neither be read nor skipped, or cannot be
tested. -/
def FailsOn (d : Deployment) (model : String) (predicate : Predicate) (raw : String) (fault : Fault) :
    Prop :=
  (decode raw (d.registry.attributeTypes model) = .error fault ∧ isUndecodable fault = false) ∨
    ∃ record, decode raw (d.registry.attributeTypes model) = .ok record ∧
      predicate record = .error fault

/-- A member is read and tested. -/
theorem readMember_ends (model : String) (predicate : Predicate) (raw : String) :
    Ends (· = h) (readMember d ref model predicate raw) (fun o c => c = h ∧
      match o with
      | .ok found => found = matchedBy (d.registry.attributeTypes model) predicate raw
      | .error fault => FailsOn d model predicate raw fault) := by
  rw [readMember, matchedBy]
  cases hdecode : decode raw (d.registry.attributeTypes model) with
  | ok record =>
    refine Ends.ofOutcome_bind (fun answer hanswer => ?_) fun fault hfault c hc =>
      ⟨hc, .inr ⟨record, hdecode, hfault⟩⟩
    simp only [hanswer]
    cases answer <;> exact Ends.pure fun _ hc => ⟨hc, rfl⟩
  | error fault =>
    refine Ends.ite (fun _ => Ends.report_bind _ _ _ _ _ (Ends.pure fun _ hc => ⟨hc, rfl⟩))
      fun hskipped => Ends.throw fun c hc => ⟨hc, .inl ⟨hdecode, Bool.eq_false_iff.mpr hskipped⟩⟩

/-- Members are read and tested one by one. -/
theorem readMembers_ends (model : String) (predicate : Predicate) (members : List String) :
    Ends (· = h) (readMembers d ref model predicate members) (fun o c => c = h ∧
      match o with
      | .ok found => found = members.filterMap (matchedBy (d.registry.attributeTypes model) predicate)
      | .error fault => ∃ raw ∈ members, FailsOn d model predicate raw fault) := by
  induction members with
  | nil => exact Ends.pure fun _ hc => ⟨hc, rfl⟩
  | cons raw rest ih =>
    refine Ends.bind (readMember_ends model predicate raw) (fun found => Ends.of_each ?_)
      fun fault c hfault => ⟨hfault.1, raw, List.mem_cons_self, hfault.2⟩
    rintro _ ⟨rfl, rfl⟩
    refine Ends.bind ih (fun others => Ends.pure ?_) fun fault c ⟨hc, raw', hmem, hfault⟩ =>
      ⟨hc, raw', List.mem_cons_of_mem raw hmem, hfault⟩
    rintro c ⟨rfl, rfl⟩
    refine ⟨rfl, ?_⟩
    rw [List.filterMap_cons]
    cases matchedBy (d.registry.attributeTypes model) predicate raw <;> rfl

/-- A scan gives the members that can be read and satisfy its predicate, if the command answers. -/
theorem scan_ends (model : String) (predicate : Predicate) :
    Ends (· = h) (scan d ref model predicate) (fun o c => c = h ∧
      match o with
      | .ok found => ∀ members, found = some members → members =
        (h.members (setKey d model)).filterMap (matchedBy (d.registry.attributeTypes model) predicate)
      | .error fault =>
        (h.outage? .members = some .badValue ∧ fault = .badValue Command.members.failure) ∨
          ∃ raw ∈ h.members (setKey d model), FailsOn d model predicate raw fault) := by
  refine Ends.bind (connect_ends d ref) (fun connected => Ends.of_each ?_) fun fault c hfault =>
    (nomatch hfault.2)
  rintro c ⟨rfl, -⟩
  refine Ends.ite (fun _ => ?_) fun _ => Ends.pure fun _ hc => ⟨hc, nofun⟩
  refine Ends.bind (request_ends .members fun server hserver => ⟨hserver, rfl⟩)
    (fun failure => Ends.of_each fun c' hanswer => ?_) ?_
  · cases hanswer with
    | refused failure => exact Ends.report_bind _ _ _ _ _ (Ends.pure fun _ hc => ⟨hc, nofun⟩)
    | carriedOut =>
      refine Ends.get_bind fun s hs => ?_
      have hmembers : s.server.members (setKey d model) = c.members (setKey d model) :=
        congrArg (fun c => Holding.members c (setKey d model)) hs
      rw [hs, hmembers]
      refine Ends.bind (readMembers_ends model predicate _) (fun found => Ends.pure ?_) ?_
      · rintro c ⟨rfl, rfl⟩
        exact ⟨rfl, fun members heq => (Option.some.inj heq).symm⟩
      · rintro fault c ⟨hc, hmember⟩
        exact ⟨hc, .inr hmember⟩
  · intro fault c' hanswer
    cases hanswer with
    | ended hfails => exact ⟨rfl, .inl ⟨hfails, rfl⟩⟩

/-- What becomes of the reading of a filter: a mistake in the filter is reported, and there is no
predicate then. -/
def filterAnswer : Outcome Predicate → Outcome (Option Predicate)
  | .ok predicate => .ok (some predicate)
  | .error (.filter _) => .ok none
  | .error fault => .error fault

theorem filterAnswer_error {fault : Fault} (hmistake : ∀ e, fault ≠ .filter e) :
    filterAnswer (.error fault) = .error fault := by
  cases fault with
  | filter e => exact absurd rfl (hmistake e)
  | _ => rfl

/-- A predicate is the one that was read. -/
theorem eq_ok_of_filterAnswer {o : Outcome Predicate} {predicate : Predicate}
    (h : filterAnswer o = .ok (some predicate)) : o = .ok predicate := by
  cases o with
  | ok predicate' => exact congrArg Except.ok (Option.some.inj (Except.ok.inj h))
  | error fault => cases fault <;> cases h

/-- What fails is the reading, and not by a mistake in the filter. -/
theorem eq_error_of_filterAnswer {o : Outcome Predicate} {fault : Fault}
    (h : filterAnswer o = .error fault) : o = .error fault ∧ ∀ e, fault ≠ .filter e := by
  cases o with
  | ok predicate => cases h
  | error fault' =>
    cases fault' with
    | filter e => cases h
    | _ =>
      obtain rfl := Except.error.inj h
      exact ⟨rfl, nofun⟩

/-- A filter is read, and nothing changes. -/
theorem predicateOf?_ends (d : Deployment) (ref : CorrelationRef) (model : String) (where_ : Value) :
    Ends (· = h) (predicateOf? d ref model where_) fun o c => c = h ∧
      o = filterAnswer (Predicate.ofFilter where_ (some (d.registry.attributeTypes model))).run.2 := by
  refine Ends.attempt_bind (R := fun o c => c = h ∧
    (Predicate.ofFilter where_ (some (d.registry.attributeTypes model))).run.2 = o)
    (Ends.ofReported _ fun _ hc => ⟨hc, rfl⟩) fun o => ?_
  split
  · exact Ends.pure fun c hc => ⟨hc.1, by rw [hc.2]; rfl⟩
  · exact Ends.report_bind _ _ _ _ _ (Ends.pure fun c hc => ⟨hc.1, by rw [hc.2]; rfl⟩)
  · next fault hno =>
    refine Ends.throw fun c hc => ⟨hc.1, ?_⟩
    rw [hc.2, filterAnswer_error fun e he => hno e (he ▸ rfl)]

/-- A search changes nothing, finds exactly the members that can be read and satisfy the filter, and
fails for a named reason only. -/
theorem matching_ends (d : Deployment) (ref : CorrelationRef) (model : String) (where_ : Value) :
    Ends (· = h) (matching d ref model where_) (fun o c => c = h ∧
      match o with
      | .ok found => ∀ members, found = some members →
        members = matchedIn d model where_ (h.members (setKey d model))
      | .error fault => SearchFault d model where_ h fault) := by
  refine Ends.bind (predicateOf?_ends d ref model where_) (fun found => Ends.of_each ?_) ?_
  · rintro c ⟨rfl, hfound⟩
    cases found with
    | none => exact Ends.pure fun c hc => ⟨hc, nofun⟩
    | some predicate =>
      have hreads := eq_ok_of_filterAnswer hfound.symm
      refine (scan_ends model predicate).weaken (fun _ => id) fun o c' hend => ⟨hend.1, ?_⟩
      cases o with
      | ok found =>
        intro members heq
        simp only [matchedIn, hreads]
        exact hend.2 members heq
      | error fault =>
        rcases hend.2 with ⟨hfails, rfl⟩ | ⟨raw, hmem, ⟨hread, hskip⟩ | ⟨record, hread, htest⟩⟩
        · exact .command hfails
        · exact .member hmem hread hskip
        · exact .test hmem hread hreads htest
  · rintro fault c ⟨hc, hfault⟩
    obtain ⟨hreads, hmistake⟩ := eq_error_of_filterAnswer hfault.symm
    exact ⟨hc, .filter hreads hmistake⟩

/-- A search by a filter that makes no sense, beyond a mistake in it, fails. -/
theorem matching_throws {model : String} {where_ : Value} {fault : Fault}
    (hreads : (Predicate.ofFilter where_ (some (d.registry.attributeTypes model))).run.2 = .error fault)
    (hmistake : ∀ e, fault ≠ .filter e) :
    Ends (· = h) (matching d ref model where_) fun o c => o = .error fault ∧ c = h := by
  refine Ends.bind (predicateOf?_ends d ref model where_) (fun found => Ends.of_each ?_) ?_
  · rintro c ⟨-, hfound⟩
    rw [hreads, filterAnswer_error hmistake] at hfound
    cases hfound
  · rintro fault' c ⟨hc, hfault⟩
    rw [hreads, filterAnswer_error hmistake] at hfault
    exact ⟨congrArg Except.error (Except.error.inj hfault), hc⟩

/-! ## Addition and removal -/

/-- The outcomes of adding records to the set of a model. -/
inductive CreateEnd (d : Deployment) (model : String) (records : Value) (h : Holding) :
    Outcome (Option Bool) → Holding → Prop where
  | refused : CreateEnd d model records h (.ok none) h
  | nothing (isEmpty : records.isTruthy = false) : CreateEnd d model records h (.ok (some false)) h
  | unwritable {fault : Fault} (encodes : membersOf d.registry.modelNames records = .error fault)
    (isNoKind : ∀ detail, fault ≠ .wrongKind detail) : CreateEnd d model records h (.error fault) h
  | ended (fails : h.outage? .add = some .badValue) :
    CreateEnd d model records h (.error (.badValue Command.add.failure)) h
  | added {members : List String}
    (encodes : membersOf d.registry.modelNames records = .ok members) :
    CreateEnd d model records h (.ok (some true))
      { h with sets := (({ sets := h.sets } : Server).add (setKey d model) members).sets }

theorem create_ends (d : Deployment) (given : Option CorrelationRef) (model : String)
    (records : Value) : Ends (· = h) (create d given model records) (CreateEnd d model records h) := by
  have hrefused : Ends (· = h) (pure none) (CreateEnd d model records h) := by
    refine Ends.pure ?_
    rintro _ rfl
    exact .refused
  refine Ends.inScope fun ref => Ends.knows_bind _ _ _ _ fun known _ => Ends.ite (fun _ => ?_)
    fun _ => hrefused
  refine Ends.ite (fun _ => ?_) fun hempty => ?_
  · split
    · exact Ends.report_bind _ _ _ _ _ hrefused
    · next fault hkind hencodes =>
      refine Ends.throw ?_
      rintro _ rfl
      exact .unwritable hencodes hkind
    · next members hencodes =>
      refine Ends.bind (connect_ends d ref) (fun connected => Ends.of_each ?_)
        fun fault c hfault => (nomatch hfault.2)
      rintro _ ⟨rfl, -⟩
      refine Ends.ite (fun _ => ?_) fun _ => hrefused
      refine Ends.bind (add_ends (setKey d model) members) (fun failure => Ends.of_each ?_) ?_
      · intro c hanswer
        cases hanswer with
        | refused failure => exact Ends.report_bind _ _ _ _ _ hrefused
        | carriedOut =>
          refine Ends.pure ?_
          rintro _ rfl
          exact .added hencodes
      · intro fault c hanswer
        cases hanswer with
        | ended hfails => exact .ended hfails
  · refine Ends.pure ?_
    rintro _ rfl
    exact .nothing (Bool.eq_false_iff.mpr hempty)

/-- The outcomes of removing the records that satisfy a filter from the set of a model. -/
inductive DeleteEnd (d : Deployment) (model : String) (where_ : Value) (h : Holding) :
    Outcome (Option Bool) → Holding → Prop where
  | refused : DeleteEnd d model where_ h (.ok none) h
  | nothing (unmatched : matchedIn d model where_ (h.members (setKey d model)) = []) :
    DeleteEnd d model where_ h (.ok (some false)) h
  | failed {fault : Fault} (isKnown : d.registry.hasModel model = true)
    (searches : SearchFault d model where_ h fault) : DeleteEnd d model where_ h (.error fault) h
  | ended (fails : h.outage? .remove = some .badValue) :
    DeleteEnd d model where_ h (.error (.badValue Command.remove.failure)) h
  | removed {found : List (String × Record)}
    (matched : matchedIn d model where_ (h.members (setKey d model)) = found)
    (isSome : found ≠ []) :
    DeleteEnd d model where_ h (.ok (some true))
      { h with sets := (({ sets := h.sets } : Server).remove (setKey d model)
        (found.map (·.1))).sets }

theorem delete_ends (d : Deployment) (given : Option CorrelationRef) (model : String)
    (where_ : Value) : Ends (· = h) (delete d given model where_) (DeleteEnd d model where_ h) := by
  have hrefused : Ends (· = h) (pure none) (DeleteEnd d model where_ h) := by
    refine Ends.pure ?_
    rintro _ rfl
    exact .refused
  refine Ends.inScope fun ref => Ends.knows_bind _ _ _ _ fun known hknown => Ends.ite (fun hk => ?_)
    fun _ => hrefused
  refine Ends.bind (matching_ends d ref model where_) (fun found => Ends.of_each ?_) ?_
  · rintro c ⟨hc, hfound⟩
    subst hc
    split
    · exact hrefused
    · refine Ends.pure ?_
      rintro _ rfl
      exact .nothing (hfound [] rfl).symm
    · next found hsome =>
      have hmatched := (hfound found rfl).symm
      have hremove := @remove_ends c (setKey d model) (found.map (·.1))
      refine Ends.bind hremove (fun failure => Ends.of_each fun c hanswer => ?_) ?_
      · cases hanswer with
        | refused failure => exact Ends.report_bind _ _ _ _ _ hrefused
        | carriedOut =>
          refine Ends.pure ?_
          rintro _ rfl
          exact .removed hmatched hsome
      · intro fault c hanswer
        cases hanswer with
        | ended hfails => exact .ended hfails
  · rintro fault _ ⟨rfl, hfault⟩
    exact .failed (hknown.trans hk) hfault

/-! ## Replacement -/

/-- The outcomes of replacing members of a set, by the commands that are carried out. -/
inductive ReplaceEnd (h : Holding) (key : String) (old new : List String) :
    Outcome (Option ChangeCounts) → Holding → Prop where
  | replaced (removes : h.outage? .remove = none) (adds : h.outage? .add = none) :
    ReplaceEnd h key old new (.ok (some ⟨old.length, old.length, false⟩))
      { h with sets := (({ sets := h.sets } : Server).remove key old |>.add key new).sets }
  | removed (removes : h.outage? .remove = none) (refuses : (h.outage? .add).isSome) :
    ReplaceEnd h key old new (.ok (some ⟨old.length, 0, false⟩))
      { h with sets := (({ sets := h.sets } : Server).remove key old).sets }
  | added (refuses : (h.outage? .remove).isSome) (adds : h.outage? .add = none) :
    ReplaceEnd h key old new (.ok (some ⟨old.length, old.length, true⟩))
      { h with sets := (({ sets := h.sets } : Server).add key new).sets }
  | refused (refuses : (h.outage? .remove).isSome) (refuses' : (h.outage? .add).isSome) :
    ReplaceEnd h key old new (.ok none) h
  | ended (fails : h.outage? .remove = some .badValue) :
    ReplaceEnd h key old new (.error (.badValue Command.remove.failure)) h
  | unadded (refuses : (h.outage? .remove).isSome) (fails : h.outage? .add = some .badValue) :
    ReplaceEnd h key old new (.error (.badValue Command.add.failure)) h
  | torn (removes : h.outage? .remove = none) (fails : h.outage? .add = some .badValue) :
    ReplaceEnd h key old new (.error (.badValue Command.add.failure))
      { h with sets := (({ sets := h.sets } : Server).remove key old).sets }

theorem replace_ends (model : String) (old new : List String) :
    Ends (· = h) (replace d ref model old new) (ReplaceEnd h (setKey d model) old new) := by
  refine Ends.bind (remove_ends (setKey d model) old) (fun removal => Ends.of_each ?_) ?_
  · intro c hremoval
    cases hremoval with
    | carriedOut hremoves =>
      refine Ends.bind (add_ends (setKey d model) new) (fun addition => Ends.of_each ?_) ?_
      · intro c haddition
        cases haddition with
        | carriedOut hadds =>
          refine Ends.pure ?_
          rintro _ rfl
          exact .replaced hremoves hadds
        | refused failure hrefuses =>
          refine Ends.report_bind _ _ _ _ _ (Ends.pure ?_)
          rintro _ rfl
          exact .removed hremoves hrefuses
      · intro fault c haddition
        cases haddition with
        | ended hfails => exact .torn hremoves hfails
    | refused failure hrefuses =>
      refine Ends.report_bind _ _ _ _ _ (Ends.bind (add_ends (setKey d model) new)
        (fun addition => Ends.of_each ?_) ?_)
      · intro c haddition
        cases haddition with
        | carriedOut hadds =>
          refine Ends.report_bind _ _ _ _ _ (Ends.pure ?_)
          rintro _ rfl
          exact .added hrefuses hadds
        | refused failure hrefuses' =>
          refine Ends.report_bind _ _ _ _ _ (Ends.pure ?_)
          rintro _ rfl
          exact .refused hrefuses hrefuses'
      · intro fault c haddition
        cases haddition with
        | ended hfails => exact .unadded hrefuses hfails
  · intro fault c hremoval
    cases hremoval with
    | ended hfails => exact .ended hfails

/-! ## Updates -/

/-- Whether an update names fields of a model only. -/
def KnowsFields (d : Deployment) (model : String) (spec : Value) : Prop :=
  ∃ fields, updatedFields spec = .ok fields ∧
    ∀ field ∈ fields, Entries.has (d.registry.attributeTypes model) field = true

/-- Why an update of the set of a model fails before it changes the set: its fields cannot be named,
the search fails, or a found record has no new member. -/
inductive UpdateFault (d : Deployment) (model : String) (spec where_ : Value) (h : Holding) :
    Fault → Prop where
  | fields {fault : Fault} (names : updatedFields spec = .error fault) :
    UpdateFault d model spec where_ h fault
  | search {fault : Fault} (knows : KnowsFields d model spec)
    (searches : SearchFault d model where_ h fault) : UpdateFault d model spec where_ h fault
  | members {fault : Fault}
    (renews : updatedMembers d model spec
      ((matchedIn d model where_ (h.members (setKey d model))).map (·.2)) = .error fault)
    (knows : KnowsFields d model spec)
    (isNoMistake : ∀ e, fault ≠ .update e) (isNoKind : ∀ detail, fault ≠ .wrongKind detail) :
    UpdateFault d model spec where_ h fault

/-- The outcomes of an update of the set of a model. -/
inductive UpdateEnd (d : Deployment) (model : String) (spec where_ : Value) (h : Holding) :
    Outcome (Option ChangeCounts) → Holding → Prop where
  | failed {fault : Fault} (isKnown : d.registry.hasModel model = true)
    (cause : UpdateFault d model spec where_ h fault) : UpdateEnd d model spec where_ h (.error fault) h
  | refused : UpdateEnd d model spec where_ h (.ok none) h
  | nothing (unmatched : matchedIn d model where_ (h.members (setKey d model)) = []) :
    UpdateEnd d model spec where_ h (.ok (some ⟨0, 0, false⟩)) h
  | written {found : List (String × Record)} {members : List String}
    {o : Outcome (Option ChangeCounts)} {c : Holding} (isKnown : d.registry.hasModel model = true)
    (matched : matchedIn d model where_ (h.members (setKey d model)) = found)
    (isSome : found ≠ []) (renews : updatedMembers d model spec (found.map (·.2)) = .ok members)
    (knows : KnowsFields d model spec)
    (replaces : ReplaceEnd h (setKey d model) (found.map (·.1)) members o c) :
    UpdateEnd d model spec where_ h o c

/-- All outcomes of an update. -/
theorem update_ends (d : Deployment) (given : Option CorrelationRef) (model : String)
    (spec where_ : Value) :
    Ends (· = h) (update d given model spec where_) (UpdateEnd d model spec where_ h) := by
  have hrefused {x : Action Unit} (hx : Ends (· = h) x fun o c => o = .ok () ∧ c = h) :
      Ends (· = h) (x >>= fun _ => pure none) (UpdateEnd d model spec where_ h) := by
    refine Ends.bind hx (fun _ => Ends.pure ?_) nofun
    rintro _ ⟨-, rfl⟩
    exact .refused
  have hreport (ref : CorrelationRef) (message : String) (context : Entries Value) :
      Ends (· = h) (Action.report ref .error component message context)
        fun o c => o = .ok () ∧ c = h := fun s hs => ⟨rfl, hs⟩
  have hpure : Ends (· = h) (pure none) (UpdateEnd d model spec where_ h) := by
    refine Ends.pure ?_
    rintro _ rfl
    exact .refused
  refine Ends.inScope fun ref => Ends.knows_bind _ _ _ _ fun known hknown => Ends.ite (fun hk => ?_)
    fun _ => hpure
  have hmodel := hknown.trans hk
  refine Ends.ofOutcome_bind (fun fields hfields => Ends.ite (fun hall => ?_) fun _ =>
    hrefused (hreport _ _ _)) ?_
  · have hknows : KnowsFields d model spec := by
      refine ⟨fields, hfields, fun field hfield => ?_⟩
      have hnone := List.filter_eq_nil_iff.mp (List.isEmpty_iff.mp hall) field hfield
      simpa using hnone
    refine Ends.bind (matching_ends d ref model where_) (fun found => Ends.of_each ?_) ?_
    · rintro _ ⟨rfl, hfound⟩
      split
      · exact hpure
      · refine Ends.pure ?_
        rintro _ rfl
        exact .nothing (hfound [] rfl).symm
      · next found hsome =>
        have hmatched := (hfound found rfl).symm
        split
        · exact hrefused (hreport _ _ _)
        · exact hrefused (hreport _ _ _)
        · next fault hmistake hkind hrenews =>
          refine Ends.throw ?_
          rintro _ rfl
          exact .failed hmodel (.members (hmatched ▸ hrenews) hknows hmistake hkind)
        · next members hrenews =>
          refine (replace_ends model _ members).weaken (fun _ => id) fun o c hreplaced => ?_
          exact .written hmodel hmatched (fun hnone => hsome (hnone ▸ rfl)) hrenews hknows hreplaced
    · rintro fault _ ⟨rfl, hfault⟩
      exact .failed hmodel (.search hknows hfault)
  · rintro fault hfault _ rfl
    exact .failed hmodel (.fields hfault)

end TwinStore.Cache
