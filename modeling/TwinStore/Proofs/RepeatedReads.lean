import TwinStore.Proofs.CoherentRuns
import TwinStore.Proofs.PartialJoin

/-!
# Reads that are repeated

A read that the cache cannot answer leaves the records of its answer there, and the related ones of
which no field was left out.  The same read is then answered by the cache, which still holds some rows
only, yet gives the same records with the same related ones.

Main definition:

- `AsksFields`: the values that ask for fields.

Main results:

- Theorem `isRowRecord_answer`: the records of an answer are those of rows, at every level.
- Theorem `Grown.isStored_answer`: after an answer was written into the cache, all that the join of
  the tables attaches to its records is stored.
- Theorem `repeated_read_is_alike`: a read that misses the cache gives the same when it is repeated.
- Theorem `repeated_read_loses_projected`: what was left out of related records is missed later.
-/

namespace TwinStore

open Primary Filter Include Action Twin

namespace Twin

variable {d : Deployment} {sets sets' : Entries (List String)} {db : Database} {name : String}
  {m : Model} {r : Registry}

/-! ## Fields that are asked for -/

/-- Whether a value asks for fields: all, one, or some. -/
def AsksFields : Value → Prop
  | .text _ => True
  | v => v.isNull = true ∨ ∃ names, v.names = .ok names

/-- All records are shown with the same fields. -/
theorem exists_shown {attributes : Value} (h : AsksFields attributes) (modelNames : List String) :
    ∃ wanted, ∀ records, shown modelNames attributes records =
      .ok (records.map (·.project wanted modelNames)) := by
  have hall (records : List Record) : records.map (·.project none modelNames) = records :=
    List.map_id records
  have hvalue {v : Value} (h : v.isNull = true ∨ ∃ names, v.names = .ok names) :
      ∃ wanted, ∀ records : List Record, records.mapM (projectNamed modelNames v) =
        .ok (records.map (·.project wanted modelNames)) := by
    rcases h with hnull | ⟨names, hnames⟩
    · exact ⟨none, fun records => Outcome.mapM_eq_ok fun record _ => by
        rw [projectNamed, if_pos hnull]
        rfl⟩
    · by_cases hnull : v.isNull = true
      · exact ⟨none, fun records => Outcome.mapM_eq_ok fun record _ => by
          rw [projectNamed, if_pos hnull]
          rfl⟩
      · exact ⟨some names, fun records => Outcome.mapM_eq_ok fun record _ => by
          rw [projectNamed, if_neg hnull, hnames]
          rfl⟩
  cases attributes with
  | text field =>
    by_cases hfield : field = allAttributes
    · exact ⟨none, fun records => by rw [shown, if_pos hfield, hall]⟩
    · exact ⟨some [field], fun records => by rw [shown, if_neg hfield]⟩
  | _ => exact hvalue h

/-- Answers that match are shown alike. -/
theorem alike_shown {xs ys : List Record} (h : Matched m.Matches xs ys)
    (wanted : Option (List String)) (modelNames : List String) :
    (asValue (xs.map (·.project wanted modelNames))).Alike
      (asValue (ys.map (·.project wanted modelNames))) := by
  refine Matched.alike ?_
  rw [List.map_map, List.map_map]
  exact h.map fun x y hxy => hxy.alike_project wanted modelNames

/-! ## Plain plans in both forms -/

mutual

/-- A plan that agrees with a plain one is plain. -/
theorem isPlain_of_agrees : ∀ {parent : String} {p : Builder} {q : ClausePlan},
    Agrees r parent p q → IsPlain p → IsPlain q
  | _, .node _ _ _ _ _ _, _, h, hplain => by
    cases h with
    | node _ _ hchildren => exact ⟨hplain.1, arePlain_of_agree hchildren hplain.2⟩

/-- Plans that agree with plain ones are plain. -/
theorem arePlain_of_agree : ∀ {parent : String} {ps : List Builder} {qs : List ClausePlan},
    AllAgree r parent ps qs → ArePlain ps → ArePlain qs
  | _, [], _, h, _ => by
    cases h
    trivial
  | _, p :: ps, _, h, hplain => by
    cases h with
    | @cons _ _ q _ qs hp hps =>
      refine ⟨isPlain_of_agrees hp hplain.1, fun q' hq' => ?_, arePlain_of_agree hps hplain.2.2⟩
      obtain ⟨p', hp', hagrees⟩ := hps.exists_of_mem hq'
      rw [hagrees.model_eq, hp.model_eq]
      exact hplain.2.1 p' hp'

end

/-! ## What an answer leaves in the cache -/

variable {ps : List Builder} {qs : List ClausePlan} {rows : List Record}
  {clause : Option (Clause Comparison)}

/-- The records of an answer are those of rows, at every level. -/
theorem isRowRecord_answer (hr : r.IsMirrored) (hdb : db.IsTyped r) (hm : r.table name = .ok m)
    (h : AllAgree r name ps qs) (hplain : ArePlain qs)
    (hrows : Matched m.Matches rows (join r db qs (selected r db name clause))) :
    ∀ record ∈ rows, IsRowRecord r db name record ∧ EachBelowAll (IsRowRecord r db) record qs := by
  intro record hrecord
  obtain ⟨joined, hjoined, hmatches⟩ := hrows.exists_of_mem hrecord
  obtain ⟨selected, hselected, _, rfl⟩ := mem_joinFound.mp hjoined
  have hrow := isRowRecord_attachEach hr hdb hm hselected
    (@hasModel_of_zip _ _ _ (joinedEach r db qs) (h.hasModel hr.sound))
  refine ⟨hrow.of_alike hr hdb hmatches.alike.symm, ?_⟩
  exact EachBelowAll.of_alike (fun _ _ _ hx hxy => hx.of_alike hr hdb hxy)
    (fun _ _ ⟨_, _, _, _, _, _, hnodup, _⟩ => hnodup) qs hplain
    (fun key => (hmatches.fields key).symm) (rows_below hr hdb h hplain (selected, true))

/-- What goes into the cache with an answer are records of rows. -/
theorem isRowRecord_group (hr : r.IsMirrored) (hdb : db.IsTyped r) (hm : r.table name = .ok m)
    (h : AllAgree r name ps qs) (hplain : ArePlain qs)
    (hrows : Matched m.Matches rows (join r db qs (selected r db name clause))) :
    ∀ group ∈ (name, rows) :: relatedRowsOf rows qs, ∀ record ∈ group.2,
      IsRowRecord r db group.1 record := by
  have hanswer := isRowRecord_answer hr hdb hm h hplain hrows
  exact List.forall_mem_cons.mpr ⟨fun record hrecord => (hanswer record hrecord).1,
    (eachBelowAll_iff qs).mp fun record hrecord => (hanswer record hrecord).2⟩

/-- The record of a row has a member. -/
theorem exists_memberOf (hr : d.registry.IsMirrored) (hdb : db.IsTyped d.registry)
    {record : Record} (h : IsRowRecord d.registry db name record) :
    d.registry.hasModel name = true ∧ ∃ raw, IsMemberOf d record raw := by
  obtain ⟨m, t, row, hm, ht, hrow, _, hperm⟩ := h
  obtain ⟨t', ht', htyped⟩ := hdb name m hm
  obtain rfl := Except.ok.inj (ht.symm.trans ht')
  exact ⟨Registry.hasModel_of_table hm, _, (isMemberOf_iff hr hm htyped hrow hperm).mpr rfl⟩

namespace Grown

variable {groups : List (String × List Record)}

/-- Sets to which the members of records of rows were added hold members of rows only. -/
theorem reflects (hr : d.registry.IsMirrored) (hdb : db.IsTyped d.registry)
    (hgroups : ∀ group ∈ groups, ∀ record ∈ group.2, IsRowRecord d.registry db group.1 record)
    (hgrown : Grown d groups sets sets') (h : Reflects d sets db) : Reflects d sets' db := by
  intro name m t hm ht raw hraw
  rcases (hgrown.mem_iff name raw).mp hraw with hold | ⟨group, hgroup, rfl, record, hrecord, hmember⟩
  · exact h name m t hm ht raw hold
  · obtain ⟨m', t', row, hm', ht', hrow, _, hperm⟩ := hgroups group hgroup record hrecord
    obtain rfl : m = m' := Except.ok.inj (hm.symm.trans hm')
    obtain ⟨t'', ht'', htyped⟩ := hdb _ m hm
    obtain rfl : t = t' := Except.ok.inj (ht.symm.trans ht')
    obtain rfl : t = t'' := Except.ok.inj (ht.symm.trans ht'')
    exact ⟨row, hrow, (isMemberOf_iff hr hm htyped hrow hperm).mp hmember⟩

/-- After an answer was written into the cache, all that the join of the tables attaches to its
records is stored. -/
theorem isStored_answer (hr : d.registry.IsMirrored) (hdb : db.IsTyped d.registry)
    (hm : d.registry.table name = .ok m) (h : AllAgree d.registry name ps qs) (hplain : ArePlain qs)
    (hrows : Matched m.Matches rows (join d.registry db qs (selected d.registry db name clause)))
    (hgrown : Grown d ((name, rows) :: relatedRowsOf rows qs) sets sets') :
    ∀ record ∈ join d.registry db qs (selected d.registry db name clause),
      IsStored d sets' db name record ∧ EachBelowAll (IsStored d sets' db) record qs := by
  have hstored : ∀ group ∈ (name, rows) :: relatedRowsOf rows qs, ∀ record ∈ group.2,
      IsStored d sets' db group.1 record := fun group hgroup record hrecord =>
    ⟨isRowRecord_group hr hdb hm h hplain hrows group hgroup record hrecord, fun raw hraw =>
      (hgrown.mem_iff _ raw).mpr (.inr ⟨group, hgroup, rfl, record, hrecord, hraw⟩)⟩
  obtain ⟨hanswer, hrelated⟩ := List.forall_mem_cons.mp hstored
  have hbelow := (eachBelowAll_iff qs).mpr hrelated
  intro joined hjoined
  obtain ⟨record, hrecord, hmatches⟩ := hrows.symm.exists_of_mem hjoined
  refine ⟨(hanswer record hrecord).of_alike hr hdb hmatches.alike, ?_⟩
  exact EachBelowAll.of_alike (fun _ _ _ hx hxy => hx.of_alike hr hdb hxy)
    (fun _ _ ⟨⟨_, _, _, _, _, _, hnodup, _⟩, _⟩ => hnodup) qs hplain hmatches.fields
    (hbelow record hrecord)

end Grown

end Twin

/-! ## The same read again -/

section

variable {d : Deployment} {name : String} {where_ attributes : Value} {tokens : List Token}
  {plans : List Builder}

/-- A search of sets that reflect the tables gives the join of the mirrored rows. -/
theorem find_part_leads {sets : Entries (List String)} {db : Database} {m : Model}
    {qs : List ClausePlan} (hr : d.registry.IsMirrored) (hdb : db.IsTyped d.registry)
    (hsorted : Cache.AreSorted sets) (h : Reflects d sets db) (hm : d.registry.table name = .ok m)
    {f : Formula Requirement} (hf : Requires m where_ f) (hagree : AllAgree d.registry name plans qs)
    (planned : List (Option Bool)) :
    ∃ found, (∀ given, (Cache.find d given name where_ plans).Leads
        (Stores.Stands d sets (db, planned)) (.ok (some found)) (Stores.Stands d sets (db, planned))) ∧
      Matched m.Matches found (join d.registry (mirroredPart d sets db) qs
        (selected d.registry (mirroredPart d sets db) name (some (clauseOf m f)))) :=
  Cache.find_matches hr (isTyped_mirroredPart hdb) (h.coherent hr hdb hsorted) hm hf hagree

/-- A read that misses the cache gives the same when it is repeated: the same records, with the same
related records, up to their order. -/
theorem repeated_read_is_alike (hr : d.registry.IsMirrored) {s : Stores} (hs : s.IsUp d)
    (hdb : s.database.IsTyped d.registry) (hsorted : Cache.AreSorted s.server.sets)
    (hreflects : Reflects d s.server.sets s.database)
    (hwhere : AcceptedFor d.registry name where_)
    (htokens : AcceptsRequest d.registry name none tokens)
    (hplans : (resolve d.registry cacheForm name tokens).run.2 = .ok plans) (hplain : ArePlain plans)
    (hattributes : AsksFields attributes)
    (hmiss : (runFrom (Cache.find d none name where_ plans) s).1 = .ok (some []))
    (given given' : Option CorrelationRef) :
    ∃ first second s₁ s₂,
      runFrom (Twin.read d given name where_ attributes tokens) s = (.ok (some first), s₁) ∧
      runFrom (Twin.read d given' name where_ attributes tokens) s₁ = (.ok (some second), s₂) ∧
      (asValue second).Alike (asValue first) := by
  obtain ⟨m, f, hm, hf⟩ := hwhere
  have hknown := Registry.hasModel_of_table hm
  obtain ⟨plans₀, plans', hplans₀, hplans', hagree⟩ := resolve_agree hr.sound htokens
  obtain rfl : plans = plans₀ := Except.ok.inj (hplans.symm.trans hplans₀)
  have hplain' := arePlain_of_agree hagree hplain
  obtain ⟨wanted, hshown⟩ := exists_shown hattributes d.registry.modelNames
  have hstands : Stores.Stands d s.server.sets (s.database, s.plannedDeletions) s.content :=
    ⟨⟨hs.answers, hs.reachable⟩, rfl, rfl⟩
  obtain ⟨found, hfind, _⟩ := find_part_leads hr hdb hsorted hreflects hm hf hagree s.plannedDeletions
  obtain rfl : found = [] := by
    obtain ⟨s', hrun, _⟩ := hfind none s hstands
    rw [hrun] at hmiss
    exact Option.some.inj (Except.ok.inj hmiss)
  obtain ⟨rows, hselect, hrows⟩ := selectWith_matches hr hdb hm hf.2 hagree
  have hquery (ref : CorrelationRef) :=
    query_leads hm hf hselect s.server.sets s.plannedDeletions (some ref)
  by_cases hnone : rows = []
  · subst hnone
    have hread (given : Option CorrelationRef) :
        (Twin.read d given name where_ attributes tokens).Leads _ _ _ :=
      read_miss_leads hknown given hplans (fun ref => hfind (some ref)) hplans' hquery
        (fun _ _ => id) fun hne => absurd rfl hne
    obtain ⟨s₁, hrun₁, hs₁⟩ := hread given s hstands
    obtain ⟨s₂, hrun₂, _⟩ := hread given' s₁ hs₁
    rw [hshown] at hrun₁ hrun₂
    exact ⟨[], [], s₁, s₂, hrun₁, hrun₂, .refl _⟩
  · have hgroups := isRowRecord_group hr hdb hm hagree hplain' hrows
    have hfirst : (Twin.read d given name where_ attributes tokens).Leads _ _ fun c => ∃ sets,
        Grown d ((name, rows) :: relatedRowsOf rows plans') s.server.sets sets ∧
        Stores.Stands d sets (s.database, s.plannedDeletions) c :=
      read_miss_leads hknown given hplans (fun ref => hfind (some ref)) hplans' hquery
        (fun h => absurd h hnone) fun _ ref => by
        obtain ⟨sets, hgrown, hleads⟩ := refill_leads ref
          ((isHereditary_isNested (fun _ _ => hr.apart) _).selectWith hm (isBound_resolve hr.sound hplans')
            hselect) (isBound_resolve hr.sound hplans')
          (fun group hgroup record hrecord =>
            exists_memberOf hr hdb (hgroups group hgroup record hrecord)) s.server.sets
          (s.database, s.plannedDeletions)
        exact hleads.weaken (fun _ => id) fun c hc => ⟨sets, hgrown, hc⟩
    obtain ⟨s₁, hrun₁, sets, hgrown, hs₁⟩ := hfirst s hstands
    -- the second read is answered by the cache, which mirrors a larger part of the tables
    obtain ⟨found, hfind', hfound⟩ := find_part_leads hr hdb (hgrown.sorted hsorted)
      (hgrown.reflects hr hdb hgroups hreflects) hm hf hagree s.plannedDeletions
    have hpart := join_part_matches hr hdb hm hagree hplain' (some (clauseOf m f))
      (hgrown.isStored_answer hr hdb hm hagree hplain' hrows)
    have hne : found ≠ [] := fun heq => hnone (List.isEmpty_iff.mp
      (hrows.isEmpty_eq.trans (hpart.isEmpty_eq.symm.trans
        (hfound.isEmpty_eq.symm.trans (List.isEmpty_iff.mpr heq)))))
    have hsecond : (Twin.read d given' name where_ attributes tokens).Leads _ _ _ :=
      read_hit_leads hknown given' hplans hne fun ref => hfind' (some ref)
    obtain ⟨s₂, hrun₂, _⟩ := hsecond s₁ hs₁
    rw [hshown] at hrun₁ hrun₂
    refine ⟨_, _, s₁, s₂, hrun₁, hrun₂, ?_⟩
    have hjoin := (alike_shown hfound wanted d.registry.modelNames).trans
      (alike_shown hpart wanted d.registry.modelNames)
    exact hjoin.trans (alike_shown hrows wanted d.registry.modelNames).symm

end

/-! ## A circle, read twice -/

theorem isUp_circle : circle.IsUp nodes where
  answers _ := rfl
  reachable := Or.inr (Or.inl rfl)

theorem reflects_circle : Reflects nodes circle.server.sets circle.database :=
  fun _ _ _ _ _ _ hraw => absurd hraw List.not_mem_nil

theorem first_node_read_twice :
    circle.IsUp nodes ∧ Reflects nodes circle.server.sets circle.database ∧
    AcceptsRequest nodes.registry "node" none laterChildren ∧
    ∃ first second s₁ s₂,
      runFrom (Twin.read nodes none "node" firstNode (.text "all") laterChildren) circle =
        (.ok (some first), s₁) ∧
      runFrom (Twin.read nodes none "node" firstNode (.text "all") laterChildren) s₁ =
        (.ok (some second), s₂) ∧
      (asValue second).Alike (asValue first) := by
  obtain ⟨plans, hplans, hplain, hmiss⟩ : ∃ plans,
      (resolve nodes.registry cacheForm "node" laterChildren).run.2 = .ok plans ∧ ArePlain plans ∧
      (runFrom (Cache.find nodes none "node" firstNode plans) circle).1 = .ok (some []) :=
    ⟨_, by cbv, by exact ⟨⟨rfl, trivial⟩, List.forall_mem_nil _, trivial⟩, by cbv⟩
  exact ⟨isUp_circle, reflects_circle, accepts_laterChildren,
    repeated_read_is_alike isMirrored_nodes isUp_circle isTyped_circle Cache.AreSorted.empty
      reflects_circle ⟨node, _, rfl, requires_firstNode⟩ accepts_laterChildren hplans hplain
      (show AsksFields (.text "all") from trivial) hmiss none none⟩

/-- The request for the children, if there are any, with only one field. -/
def childNames : List Token :=
  [.plan (.node "node" (some false) none none none []), .items [.name "*", .name "id"]]

/-- The first record with its child, and without. -/
def firstWith (children : List Value) : List Record :=
  [[("id", .int 1), ("parent", .int 2), ("node", .list children)]]

/-- Records of which fields were left out do not go into the cache, so the cache, which has the record
that they belong to, knows nothing of them. -/
theorem repeated_read_loses_projected :
    circle.IsUp nodes ∧ circle.database.IsTyped nodes.registry ∧
    Reflects nodes circle.server.sets circle.database ∧
    ∃ s₁ s₂,
      runFrom (Twin.read nodes none "node" firstNode (.text "all") childNames) circle =
        (.ok (some (firstWith [.map [("id", .int 2)]])), s₁) ∧
      runFrom (Twin.read nodes none "node" firstNode (.text "all") childNames) s₁ =
        (.ok (some (firstWith [])), s₂) ∧
      ¬ (asValue (firstWith [])).Alike (asValue (firstWith [.map [("id", .int 2)]])) := by
  have hfirst : (runFrom (Twin.read nodes none "node" firstNode (.text "all") childNames) circle).1 =
      .ok (some (firstWith [.map [("id", .int 2)]])) := by cbv
  have hsecond : (runFrom (Twin.read nodes none "node" firstNode (.text "all") childNames)
      (runFrom (Twin.read nodes none "node" firstNode (.text "all") childNames) circle).2).1 =
      .ok (some (firstWith [])) := by cbv
  refine ⟨isUp_circle, isTyped_circle, reflects_circle, _, _, Prod.ext hfirst rfl,
    Prod.ext hsecond rfl, fun h => ?_⟩
  obtain ⟨_, _, heq, heq', hmatched⟩ := h.parts.resolve_left (by simp [asValue, firstWith])
    |>.resolve_right (by simp [asValue, firstWith])
  rw [← Value.list.inj heq, ← Value.list.inj heq'] at hmatched
  obtain ⟨_, hrecord, halike⟩ := hmatched.exists_of_mem List.mem_cons_self
  rw [List.mem_singleton.mp hrecord] at halike
  obtain ⟨_, hmap, _, hfields⟩ := halike.exists_map
  rw [← Value.map.inj hmap] at hfields
  obtain ⟨child, hchild, _⟩ := @exists_attached "node" _ _ [("id", .int 2)]
    (hfields (by decide) "node") List.mem_cons_self
  exact absurd hchild List.not_mem_nil

end TwinStore
