import Mathlib
import TwinStore.Proofs.CacheEndings
import TwinStore.Proofs.CacheRefinement
import TwinStore.Proofs.LastingCaches
import TwinStore.Proofs.LegibleValues
import TwinStore.Proofs.Maintained
import TwinStore.Proofs.SkippedMembers

/-!
# Writes that can be read back

A new record is written with the values that it has, and coercion passes on the new values of an update
that it makes nothing of.  So what the cache says it has written can be read back if these values can,
and a truth value as a point of time cannot.  Where every call writes readable values, a search of all
records of a model gives the record of every member, whatever calls came before.

Main definitions:

- `Call.WritesReadably`: calls whose values can be read back once they are written.
- `AddsReadable`: sets of which every member that is not in some sets before can be read back.
- `Reply.reportsWriting`: answers that say that records were written.
- `Call.Writes`: the members that a call is to write.

Main results:

- Theorem `find_gives_all`: a search of members that can be read back gives all their records.
- Theorem `perform_adds_readable`, `performAll_adds_readable`: calls add members that can be read back.
- Theorem `Call.Writes.mem`: a call that says so has written what it is to write.
- Theorem `written_members_are_read`: what readable calls write is found.
- Theorem `true_instant_is_lost`: a truth value as a point of time is written and cannot be read.
-/

namespace TwinStore.Cache

open Calendar Filter Action

/-! ## Members that can be read back -/

/-- Whether a member can be read back as a record of some types. -/
def CanDecode (types : Entries AttributeType) (raw : String) : Prop :=
  ∃ record, decode raw types = .ok record

section

variable {types : Entries AttributeType} {members : List String}

/-- A predicate that all records satisfy matches all members that can be read back, and none of them is
skipped. -/
theorem matchedBy_all (h : ∀ raw ∈ members, CanDecode types raw) :
    List.Forall₂ (fun raw record => decode raw types = .ok record) members
        ((members.filterMap (matchedBy types fun _ => .ok true)).map (·.2)) ∧
      members.countP (isSkipped types) = 0 := by
  induction members with
  | nil => exact ⟨.nil, rfl⟩
  | cons raw members ih =>
    obtain ⟨⟨record, hread⟩, hrest⟩ := List.forall_mem_cons.mp h
    obtain ⟨hall, hcount⟩ := ih hrest
    have hmatched : matchedBy types (fun _ => .ok true) raw = some (raw, record) := by
      simp only [matchedBy, hread]
    have hskipped : isSkipped types raw = false := by
      rw [isSkipped, hread]
    rw [List.filterMap_cons_some hmatched, List.map_cons, List.countP_cons, hcount, hskipped]
    exact ⟨.cons hread hall, rfl⟩

end

section

variable {d : Deployment} {model : String} {before : Entries (List String)} {members : List String}
  {s : Stores}

/-- A search of members that can be read back gives the records of all, without a warning. -/
theorem find_gives_all (hm : d.registry.hasModel model = true) (hs : s.IsUp d)
    (h : ∀ raw ∈ s.server.members (setKey d model), CanDecode (d.registry.attributeTypes model) raw)
    (given : Option CorrelationRef) :
    ∃ records s', runFrom (find d given model .null []) s = (.ok (some records), s') ∧
      s'.trace.warnings = s.trace.warnings ∧
      List.Forall₂ (fun raw record => decode raw (d.registry.attributeTypes model) = .ok record)
        (s.server.members (setKey d model)) records := by
  have hsettled : ∀ raw ∈ s.server.members (setKey d model),
      IsSettled (d.registry.attributeTypes model) (fun _ => .ok true) raw := by
    intro raw hraw
    obtain ⟨record, hread⟩ := h raw hraw
    exact .inr ⟨record, true, hread, rfl⟩
  have hstands : Stores.Stands d s.server.sets s.primary s.content :=
    ⟨⟨hs.answers, hs.reachable⟩, rfl, rfl⟩
  have haccepts : (Predicate.ofFilter .null (some (d.registry.attributeTypes model))).run.2 =
    .ok fun _ => .ok true := rfl
  obtain ⟨hall, hcount⟩ := matchedBy_all h
  obtain ⟨s', hrun, _, hwarnings⟩ :=
    find_warns hm (matching_warns haccepts hsettled) given s hstands
  rw [hcount] at hwarnings
  exact ⟨_, s', hrun, hwarnings.trans (List.append_nil _), hall⟩

/-! ## Sets -/

/-- Whether every member of the set of a known model is in that set of some sets before, or can be read
back. -/
def AddsReadable (d : Deployment) (before : Entries (List String)) : SetCondition := fun sets =>
  ∀ model, d.registry.hasModel model = true →
    ∀ raw ∈ (Entries.get? sets (setKey d model)).getD [],
      raw ∈ (Entries.get? before (setKey d model)).getD [] ∨
        CanDecode (d.registry.attributeTypes model) raw

/-- Adding members that can be read back to the set of their model. -/
theorem AddsReadable.add {server : Server} (h : AddsReadable d before server.sets)
    (hmembers : ∀ raw ∈ members, CanDecode (d.registry.attributeTypes model) raw) :
    AddsReadable d before (server.add (setKey d model) members).sets := by
  intro name hname raw hraw
  rcases Server.mem_members_add.mp hraw with hraw | ⟨hkey, hraw⟩
  · exact h name hname raw hraw
  · rw [setKey_inj.mp hkey]
    exact .inr (hmembers raw hraw)

/-- Removing members from the set of a model. -/
theorem AddsReadable.remove {server : Server} (h : AddsReadable d before server.sets) (key : String)
    (members : List String) : AddsReadable d before (server.remove key members).sets :=
  fun name hname raw hraw => h name hname raw (Server.mem_members_remove.mp hraw).1

/-! ## Calls -/

/-- Whether the values that a call writes can be read back: in every field of a declared type, a new
record has values that can be read once they are written, and an update values of which coercion makes
such.  Fields named like models are not written. -/
def Call.WritesReadably (r : Registry) : Call → Prop
  | create model records => ∀ record ∈ records, (Entries.keys record).Nodup ∧ ∀ e ∈ record,
      r.hasModel e.1 = true ∨
        ∀ type, Entries.get? (r.attributeTypes model) e.1 = some type → type.CanRead e.2
  | update model spec _ => ∀ e ∈ spec, r.hasModel e.1 = true ∨
      ∀ type, Entries.get? (r.attributeTypes model) e.1 = some type → type.Converts e.2
  | delete .. | find .. => True

/-- The own fields of a record are its fields that are not named like models. -/
theorem ownFields_eq_filter (r : Registry) (record : Record) :
    r.ownFields record = record.filter fun e => !r.hasModel e.1 :=
  List.filter_congr fun _ _ => congrArg _ (r.contains_modelNames _)

/-- The member of a new record with readable values can be read back. -/
theorem canDecode_created {records : List Record} {record : Record} {raw : String}
    (h : (Call.create model records).WritesReadably d.registry) (hrecord : record ∈ records)
    (hencode : encode (d.registry.ownFields record) = .ok raw) :
    CanDecode (d.registry.attributeTypes model) raw := by
  obtain ⟨hnodup, hvalues⟩ := h record hrecord
  have hown : IsReadable (d.registry.attributeTypes model) (d.registry.ownFields record) := by
    rw [ownFields_eq_filter]
    exact .of_shown hnodup hvalues
  exact hown.exists_decode hencode

/-- The member of a record that was read and updated by convertible values can be read back. -/
theorem canDecode_updated {spec : Entries Value} {where_ : Option (Entries Value)}
    {e : String × Record} {after : Record} {raw : String}
    (h : (Call.update model spec where_).WritesReadably d.registry)
    (hread : decode e.1 (d.registry.attributeTypes model) = .ok e.2)
    (hrevise : revise spec e.2 (d.registry.attributeTypes model) = .ok after)
    (hencode : encode (d.registry.ownFields after) = .ok raw) :
    CanDecode (d.registry.attributeTypes model) raw := by
  obtain ⟨hreadable, hcalendar⟩ := isReadable_of_decode hread
  have hown : IsReadable (d.registry.attributeTypes model) (d.registry.ownFields after) := by
    rw [ownFields_eq_filter]
    exact hreadable.revise hcalendar h hrevise
  exact hown.exists_decode hencode

/-- The members of new records are those of their own fields. -/
theorem mapM_of_membersOf {records : List Record}
    (h : membersOf d.registry.modelNames (.list (records.map .map)) = .ok members) :
    records.mapM (fun record => encode (d.registry.ownFields record)) = .ok members := by
  rw [membersOf, Value.items, Outcome.ok_bind, List.mapM_map] at h
  exact h

/-- The members of updated records are those of their own fields. -/
theorem mapM_of_updatedMembers {spec : Entries Value} {records : List Record}
    (h : updatedMembers d model (.map spec) records = .ok members) : ∃ updated,
      records.mapM (fun record => revise spec record (d.registry.attributeTypes model)) = .ok updated ∧
      updated.mapM (fun after => encode (d.registry.ownFields after)) = .ok members := by
  rw [updatedMembers, Value.entries, Outcome.ok_bind] at h
  exact Outcome.bind_eq_ok.mp h

/-- A call whose values can be read back adds members that can be read back. -/
theorem perform_adds_readable {call : Call} (h : call.WritesReadably d.registry)
    (given : Option CorrelationRef) :
    Maintains (AddsReadable d before) (fun _ => True) (call.perform d given) := by
  cases call with
  | create model records =>
    refine Maintains.bind (create_maintains given model _ fun _ members hmembers server hserver =>
      hserver.add fun raw hraw => ?_) fun _ _ => Maintains.pure trivial
    obtain ⟨record, hrecord, hencode⟩ :=
      Outcome.exists_of_mem_mapM (mapM_of_membersOf hmembers) hraw
    exact canDecode_created h hrecord hencode
  | delete model where_ =>
    exact Maintains.bind (delete_maintains given model _ fun members server hserver =>
      hserver.remove _ members) fun _ _ => Maintains.pure trivial
  | update model spec where_ =>
    refine Maintains.bind (update_maintains (P := fun _ => True) given model _ _
      (fun _ _ _ _ => trivial) (fun members server hserver => hserver.remove _ members) ?_)
      fun _ _ => Maintains.pure trivial
    intro _ fields _ _ found hfound members hmembers server hserver
    refine hserver.add fun raw hraw => ?_
    obtain ⟨updated, hupdated, hencoded⟩ := mapM_of_updatedMembers hmembers
    obtain ⟨after, hafter, hencode⟩ := Outcome.exists_of_mem_mapM hencoded hraw
    obtain ⟨record, hrecord, hrevise⟩ := Outcome.exists_of_mem_mapM hupdated hafter
    obtain ⟨e, he, rfl⟩ := List.mem_map.mp hrecord
    exact canDecode_updated h (hfound e he).2 hrevise hencode
  | find model where_ =>
    exact Maintains.bind (find_maintains given model _ []) fun _ _ => Maintains.pure trivial

/-! ## Answers -/

/-- Whether an answer says that records were written: all that were created, or found. -/
def Reply.reportsWriting : Reply → Bool
  | .done answer => answer == some true
  | .counts (some c) => 0 < c.found && c.updated == c.found
  | _ => false

/-- The members that a call is to write where its set has some members: those of its new records, and
those of the records that it finds, with its update applied. -/
inductive Call.Writes (d : Deployment) (members : List String) : Call → String → Prop
  | created {model : String} {records : List Record} {record : Record} {raw : String}
    (hrecord : record ∈ records) (hencode : encode (d.registry.ownFields record) = .ok raw) :
    Writes d members (.create model records) raw
  | updated {model : String} {spec : Entries Value} {where_ : Option (Entries Value)}
    {e : String × Record} {after : Record} {raw : String}
    (hfound : e ∈ matchedIn d model (filterValue where_) members)
    (hrevise : revise spec e.2 (d.registry.attributeTypes model) = .ok after)
    (hencode : encode (d.registry.ownFields after) = .ok raw) :
    Writes d members (.update model spec where_) raw

/-- What satisfies a filter was read. -/
theorem decode_of_mem_matchedIn {where_ : Value} {e : String × Record}
    (h : e ∈ matchedIn d model where_ members) :
    decode e.1 (d.registry.attributeTypes model) = .ok e.2 := by
  simp only [matchedIn] at h
  split at h
  · obtain ⟨raw, _, hmatched⟩ := List.mem_filterMap.mp h
    obtain ⟨rfl, hread, _⟩ := matchedBy_eq_some.mp hmatched
    exact hread
  · cases h

/-- What a call writes can be read back, if its values can. -/
theorem Call.Writes.canDecode {call : Call} {raw : String} (h : call.WritesReadably d.registry)
    (hraw : call.Writes d members raw) : CanDecode (d.registry.attributeTypes call.model) raw := by
  cases hraw with
  | created hrecord hencode => exact canDecode_created h hrecord hencode
  | updated hfound hrevise hencode =>
    exact canDecode_updated h (decode_of_mem_matchedIn hfound) hrevise hencode

/-- A creation that says so has written the members of its records. -/
theorem create_has_written {given : Option CorrelationRef} {records : List Record} {record : Record}
    {raw : String} {s' : Stores}
    (hrun : runFrom (create d given model (.list (records.map .map))) s = (.ok (some true), s'))
    (hrecord : record ∈ records) (hencode : encode (d.registry.ownFields record) = .ok raw) :
    raw ∈ s'.server.members (setKey d model) := by
  have hend := create_ends d given model (.list (records.map .map)) s rfl
  rw [hrun] at hend
  generalize hholding : s'.holding = left at hend
  cases hend with
  | added hmembers =>
    obtain ⟨raw', hraw', hencode'⟩ := Outcome.exists_result_of_mem (mapM_of_membersOf hmembers) hrecord
    obtain rfl := Except.ok.inj (hencode'.symm.trans hencode)
    rw [Server.members, show s'.server.sets = _ from congrArg Holding.sets hholding]
    exact Server.mem_members_add.mpr (.inr ⟨rfl, hraw'⟩)

/-- An update that says that it changed all records that it found has written their members. -/
theorem update_has_written {given : Option CorrelationRef} {spec : Entries Value} {where_ : Value}
    {counts : ChangeCounts} {e : String × Record} {after : Record} {raw : String} {s' : Stores}
    (hrun : runFrom (update d given model (.map spec) where_) s = (.ok (some counts), s'))
    (hpos : 0 < counts.found) (hall : counts.updated = counts.found)
    (hfound : e ∈ matchedIn d model where_ (s.server.members (setKey d model)))
    (hrevise : revise spec e.2 (d.registry.attributeTypes model) = .ok after)
    (hencode : encode (d.registry.ownFields after) = .ok raw) :
    raw ∈ s'.server.members (setKey d model) := by
  have hend := update_ends d given model (.map spec) where_ s rfl
  rw [hrun] at hend
  generalize hholding : s'.holding = left at hend
  generalize hreply : (.ok (some counts) : Outcome (Option ChangeCounts)) = reply at hend
  cases hend with
  | failed => cases hreply
  | refused => cases hreply
  | nothing =>
    obtain rfl := Option.some.inj (Except.ok.inj hreply)
    exact absurd hpos (Nat.lt_irrefl 0)
  | @written found members _ _ _ hmatched _ hmembers _ hreplaces =>
    obtain ⟨updated, hupdated, hencoded⟩ := mapM_of_updatedMembers hmembers
    obtain ⟨after', hafter', hrevise'⟩ :=
      Outcome.exists_result_of_mem hupdated (List.mem_map_of_mem (hmatched ▸ hfound))
    obtain rfl := Except.ok.inj (hrevise'.symm.trans hrevise)
    obtain ⟨raw', hraw', hencode'⟩ := Outcome.exists_result_of_mem hencoded hafter'
    obtain rfl := Except.ok.inj (hencode'.symm.trans hencode)
    rw [Server.members]
    cases hreplaces with
    | replaced | added =>
      rw [show s'.server.sets = _ from congrArg Holding.sets hholding]
      exact Server.mem_members_add.mpr (.inr ⟨rfl, hraw'⟩)
    | removed =>
      obtain rfl := Option.some.inj (Except.ok.inj hreply)
      simp only at hall hpos
      omega
    | refused | ended | unadded | torn => cases hreply

/-- A call that says so has written what it is to write. -/
theorem Call.Writes.mem {call : Call} {given : Option CorrelationRef} {reply : Reply} {raw : String}
    {s' : Stores} (hraw : call.Writes d (s.server.members (setKey d call.model)) raw)
    (hrun : runFrom (call.perform d given) s = (.ok reply, s'))
    (hwrites : reply.reportsWriting = true) :
    raw ∈ s'.server.members (setKey d call.model) := by
  cases hraw with
  | created hrecord hencode =>
    obtain ⟨answer, s₁, hcreate, hpure⟩ := runFrom_bind_eq_ok.mp hrun
    obtain ⟨rfl, rfl⟩ : Reply.done answer = reply ∧ s₁ = s' := by
      simpa using hpure
    rw [beq_iff_eq.mp hwrites] at hcreate
    exact create_has_written hcreate hrecord hencode
  | updated hfound hrevise hencode =>
    obtain ⟨answer, s₁, hupdate, hpure⟩ := runFrom_bind_eq_ok.mp hrun
    obtain ⟨rfl, rfl⟩ : Reply.counts answer = reply ∧ s₁ = s' := by
      simpa using hpure
    cases answer with
    | none => cases hwrites
    | some counts =>
      obtain ⟨hpos, hall⟩ := Bool.and_eq_true_iff.mp hwrites
      exact update_has_written hupdate (of_decide_eq_true hpos) (beq_iff_eq.mp hall) hfound hrevise
        hencode

/-! ## Runs -/

/-- Calls whose values can be read back add members that can be read back. -/
theorem performAll_adds_readable {calls : List (Option CorrelationRef × Call)}
    (h : ∀ c ∈ calls, c.2.WritesReadably d.registry) :
    Maintains (AddsReadable d before) (fun _ => True) (performAll d calls) := by
  induction calls with
  | nil => exact Maintains.pure trivial
  | cons c calls ih =>
    obtain ⟨hfirst, hrest⟩ := List.forall_mem_cons.mp h
    exact Maintains.bind (perform_adds_readable hfirst c.1).attempt fun _ _ =>
      Maintains.bind (ih hrest) fun _ _ => Maintains.pure trivial

/-- Calls leave the cache up. -/
theorem performAll_keepsUp (calls : List (Option CorrelationRef × Call)) :
    KeepsUp d (performAll d calls) := by
  induction calls with
  | nil => exact KeepsUp.pure []
  | cons c calls ih =>
    exact KeepsUp.bind (perform_keepsUp c.2 c.1).attempt fun _ =>
      KeepsUp.bind ih fun _ => KeepsUp.pure _

/-- Every call of a run has an outcome. -/
theorem exists_replies (d : Deployment) (calls : List (Option CorrelationRef × Call)) (s : Stores) :
    ∃ replies, (runFrom (performAll d calls) s).1 = .ok replies := by
  induction calls generalizing s with
  | nil => exact ⟨[], rfl⟩
  | cons c calls ih =>
    rw [performAll, runFrom_bind_of_ok (runFrom_attempt _ _)]
    obtain ⟨replies, hreplies⟩ := ih (runFrom (c.2.perform d c.1) s).2
    exact ⟨_, congrArg Prod.fst (runFrom_bind_of_ok (runFrom_eq hreplies))⟩

/-- After calls whose values can be read back, every member of a set is one that was there before or can
be read back.  A further call of this kind that says so has written what it is to write, all of which can
be read back.  If the members that were there before could be read back, the search of all records of a
model gives the record of every member, without a warning. -/
theorem written_members_are_read {calls : List (Option CorrelationRef × Call)}
    (hcalls : ∀ c ∈ calls, c.2.WritesReadably d.registry) (hs : s.IsUp d)
    (hm : d.registry.hasModel model = true) :
    ∃ replies s', runFrom (performAll d calls) s = (.ok replies, s') ∧
      (∀ raw ∈ s'.server.members (setKey d model), raw ∈ s.server.members (setKey d model) ∨
        CanDecode (d.registry.attributeTypes model) raw) ∧
      (∀ (given : Option CorrelationRef) (call : Call) (reply : Reply) (s'' : Stores),
        call.WritesReadably d.registry → call.model = model →
        runFrom (call.perform d given) s' = (.ok reply, s'') → reply.reportsWriting = true →
        ∀ raw, call.Writes d (s'.server.members (setKey d model)) raw →
          raw ∈ s''.server.members (setKey d model) ∧
            CanDecode (d.registry.attributeTypes model) raw) ∧
      ((∀ raw ∈ s.server.members (setKey d model),
          CanDecode (d.registry.attributeTypes model) raw) →
        ∀ given, ∃ records s'', runFrom (find d given model .null []) s' = (.ok (some records), s'') ∧
          s''.trace.warnings = s'.trace.warnings ∧
          List.Forall₂ (fun raw record => decode raw (d.registry.attributeTypes model) = .ok record)
            (s'.server.members (setKey d model)) records) := by
  obtain ⟨replies, hreplies⟩ := exists_replies d calls s
  have hadds : AddsReadable d s.server.sets (runFrom (performAll d calls) s).2.server.sets :=
    (performAll_adds_readable hcalls s fun _ _ _ hraw => .inl hraw).1
  have hup : (runFrom (performAll d calls) s).2.IsUp d := performAll_keepsUp calls s hs
  refine ⟨replies, _, runFrom_eq hreplies, hadds model hm, ?_, fun hbefore given =>
    find_gives_all hm hup (fun raw hraw => (hadds model hm raw hraw).elim (hbefore raw) id) given⟩
  rintro given call reply s'' hcall rfl hrun hwrites raw hraw
  exact ⟨hraw.mem hrun hwrites, hraw.canDecode hcall⟩

end

/-! ## Meetings -/

/-- The registry of meetings, which start at a point of time. -/
def meetings : Deployment :=
  ⟨(Registry.register {} [⟨"meeting", [{ name := "id", type := .int, primaryKey := true },
    { name := "starts_at", type := .datetime }], []⟩]).1, "", true, none⟩

/-- A meeting is created, and then put off to the time of a number. -/
def meetingCalls : List (Option CorrelationRef × Call) :=
  [(none, .create "meeting" [[("id", .int 1), ("starts_at", .text "2024-05-01T10:00")]]),
    (none, .update "meeting" [("starts_at", .int 86400000)] none)]

theorem writesReadably_meetingCalls : ∀ c ∈ meetingCalls, c.2.WritesReadably meetings.registry := by
  have htypes : meetings.registry.attributeTypes "meeting" =
      [("id", .int), ("starts_at", .datetime)] := by cbv
  simp only [meetingCalls, List.forall_mem_cons, List.not_mem_nil, false_implies, implies_true,
    and_true, Call.WritesReadably, htypes]
  refine ⟨⟨by decide, .inr fun type htype => ?_, .inr fun type htype => ?_⟩,
    .inr fun type htype => ?_⟩
  · obtain rfl : AttributeType.int = type := Option.some.inj htype
    exact .unparsed rfl
  · obtain rfl : AttributeType.datetime = type := Option.some.inj htype
    have hread : (StoredReader.dateTime? "2024-05-01T10:00").isSome = true := by cbv
    obtain ⟨t, ht⟩ := Option.isSome_iff_exists.mp hread
    exact .instantText ht
  · obtain rfl : AttributeType.datetime = type := Option.some.inj htype
    exact .time rfl rfl trivial

/-- The meeting is found after both calls. -/
theorem postponed_meeting_is_read :
    (∀ c ∈ meetingCalls, c.2.WritesReadably meetings.registry) ∧ ({} : Stores).IsUp meetings ∧
      meetings.registry.hasModel "meeting" = true ∧
      ∃ replies s', runFrom (performAll meetings meetingCalls) {} = (.ok replies, s') ∧
        (∀ raw ∈ s'.server.members (setKey meetings "meeting"),
          CanDecode (meetings.registry.attributeTypes "meeting") raw) ∧
        ∀ given, ∃ records s'', runFrom (find meetings given "meeting" .null []) s' =
            (.ok (some records), s'') ∧ s''.trace.warnings = s'.trace.warnings ∧
          List.Forall₂ (fun raw record =>
            decode raw (meetings.registry.attributeTypes "meeting") = .ok record)
            (s'.server.members (setKey meetings "meeting")) records := by
  have hup : ({} : Stores).IsUp meetings := ⟨fun _ => rfl, .inr (.inl rfl)⟩
  have hm : meetings.registry.hasModel "meeting" = true := by cbv
  obtain ⟨replies, s', hrun, hadded, -, hfind⟩ :=
    written_members_are_read writesReadably_meetingCalls hup hm
  refine ⟨writesReadably_meetingCalls, hup, hm, replies, s', hrun, fun raw hraw => ?_, hfind (List.forall_mem_nil _)⟩
  exact (hadded raw hraw).resolve_left List.not_mem_nil

/-- Stores with some members in the set of meetings. -/
def withMeetings (members : List String) : Stores := { server := { sets := [("meeting", members)] } }

/-- The member of a meeting that starts at a truth value. -/
def lostMeeting : String := "\x7b\"id\":1,\"starts_at\":true\x7d"

/-- A truth value as a point of time is created, and is set by an update; both say that they did it, and
leave a member that cannot be read and is not found. -/
theorem true_instant_is_lost :
    (∃ s', runFrom (performAll meetings
          [(none, .create "meeting" [[("id", .int 1), ("starts_at", .bool true)]]),
            (none, .find "meeting" none)]) {} =
          (.ok [.ok (.done (some true)), .ok (.found (some []))], s') ∧
        s'.server.members "meeting" = [lostMeeting] ∧
        s'.trace.warnings = [skipWarning "meeting"]) ∧
      (∃ s', runFrom (performAll meetings
          [(none, .update "meeting" [("starts_at", .bool true)] none), (none, .find "meeting" none)])
          (withMeetings ["\x7b\"id\":1\x7d"]) =
          (.ok [.ok (.counts (some { found := 1, updated := 1 })), .ok (.found (some []))], s') ∧
        s'.server.members "meeting" = [lostMeeting] ∧
        s'.trace.warnings = [skipWarning "meeting"]) ∧
      ¬CanDecode (meetings.registry.attributeTypes "meeting") lostMeeting := by
  refine ⟨⟨_, runFrom_eq (by cbv), by cbv, by cbv⟩, ⟨_, runFrom_eq (by cbv), by cbv, by cbv⟩, ?_⟩
  rintro ⟨record, hread⟩
  have hlost : (decode lostMeeting (meetings.registry.attributeTypes "meeting")).toBool = false := by
    cbv
  rw [hread] at hlost
  cases hlost

end TwinStore.Cache
