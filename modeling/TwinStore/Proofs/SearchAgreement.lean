import Mathlib
import TwinStore.Proofs.CascadeDelete
import TwinStore.Proofs.StoreJoin

/-!
# Two searches, one answer

The cache knows no queries: it finds all records that a plan may attach and joins them with a nested
loop.  Where its sets mirror the tables, that is the join of the tables, and so a search of the cache
and a query of the primary store have the same answer to a request.

Main results:

- Theorem `joinRecords_eq`: the nested loop is the join with what was found.
- Theorem `findPlans_leads`: what the cache finds for a plan is what the plan may attach.
- Theorem `find_matches`, `query_matches`: a search and a query with plans are the join of the selection.
- Theorem `find_agrees_with_query`: the cache and the primary store give the same records, up to the
  order of records and fields.
- Theorem `find_differs_from_query`: integers of more than 64 bits and values of other types tell
  the stores apart.
-/

namespace TwinStore

open Primary Filter Include Action

variable {d : Deployment} {db : Database} {name : String} {m : Model} {t : Table}
  {sets : Entries (List String)} {primary : Database × List (Option Bool)}

namespace Cache

/-! ## The nested loop -/

variable {φ : Type} {modelNames : List String}

/-- Whether the keys of a record can be compared with those of the records that were found for a
plan. -/
def CanJoin (m : Model) (p : Plan φ × List Record) : Prop :=
  (∀ a ∈ m.attributes, a.name ≠ p.1.model) ∧ ∀ relation, p.1.relation = some relation →
    ∃ a b : Attribute, a ∈ m.attributes ∧ a.name = relation.thisKey ∧ a.type = b.type ∧
      ∀ child ∈ p.2, b.type.Admits (child.field relation.otherKey)

/-- A record is given what its key refers to. -/
theorem attach_eq {p : Plan φ × List Record} (hp : CanJoin m p) {record : Record}
    (hrecord : m.Carries record) :
    attach modelNames p.1 p.2 record = .ok (attachRelated modelNames p.1 p.2 (record, true)) := by
  unfold attach attachRelated
  cases hrelation : p.1.relation with
  | none => rfl
  | some relation =>
    obtain ⟨a, b, ha, hname, htype, hfound⟩ := hp.2 relation hrelation
    have hkey := hrecord.admits a ha
    rw [hname, htype] at hkey
    have hrelated : p.2.filterM (isRelated relation record) =
        .ok (relatedTo relation p.2 (record.field relation.thisKey)) := by
      rcases hkey with hnull | hholds
      · have hnone : p.2.filterM (isRelated relation record) = .ok (p.2.filter fun _ => false) := by
          refine Outcome.filterM_eq_ok fun child _ => ?_
          rw [isRelated, hnull]
          rfl
        rw [hnone, hnull, relatedTo_null, List.filter_false]
      · have hnull := AttributeType.isNull_of_holds hholds
        rw [relatedTo, hnull, if_neg Bool.false_ne_true]
        refine Outcome.filterM_eq_ok fun child hchild => ?_
        obtain ⟨answer, hequal, _⟩ := equal?_of_admits (hfound child hchild) hholds
        rw [isRelated, hnull]
        simp only [hequal]
        cases answer <;> rfl
    simp only [hrelated, Outcome.ok_bind, Bool.true_and]
    rfl

/-- An entry that is dropped stays dropped, and nothing else depends on it. -/
theorem attachEach_eq (ps : List (Plan φ × List Record)) (entry : Record × Bool) :
    attachEach modelNames ps entry =
      ((attachEach modelNames ps (entry.1, true)).1,
        entry.2 && (attachEach modelNames ps (entry.1, true)).2) := by
  induction ps generalizing entry with
  | nil =>
    obtain ⟨record, isKept⟩ := entry
    simp [attachEach]
  | cons p ps ih =>
    obtain ⟨plan, found⟩ := p
    have hfirst : attachRelated modelNames plan found entry =
        ((attachRelated modelNames plan found (entry.1, true)).1,
          entry.2 && (attachRelated modelNames plan found (entry.1, true)).2) := by
      unfold attachRelated
      cases plan.relation <;> simp
    rw [attachEach, attachEach, hfirst, ih, ih (attachRelated modelNames plan found (entry.1, true))]
    simp [Bool.and_assoc]

/-- The nested loop gives a record what the join gives it. -/
theorem joinRecord_eq {ps : List (Plan φ × List Record)} (hps : ∀ p ∈ ps, CanJoin m p)
    {record : Record} (hrecord : m.Carries record) :
    joinRecord modelNames ps record =
      .ok (if (attachEach modelNames ps (record, true)).2 then
        some (attachEach modelNames ps (record, true)).1 else none) := by
  induction ps generalizing record with
  | nil => rfl
  | cons p ps ih =>
    obtain ⟨plan, found⟩ := p
    have hp := hps _ List.mem_cons_self
    have hcarries : m.Carries (attachRelated modelNames plan found (record, true)).1 :=
      carries_attachRelated hrecord found hp.1
    rw [joinRecord, attach_eq hp hrecord, Outcome.ok_bind, attachEach]
    generalize attachRelated modelNames plan found (record, true) = entry at hcarries ⊢
    obtain ⟨record', isKept⟩ := entry
    have hrest := ih (fun q hq => hps q (List.mem_cons_of_mem _ hq)) hcarries
    rw [attachEach_eq]
    show joinRecord modelNames ps record' >>= _ = _
    rw [hrest, Outcome.ok_bind]
    cases isKept <;> simp

/-- The nested loop is the join with what was found. -/
theorem joinRecords_eq {ps : List (Plan φ × List Record)} (hps : ∀ p ∈ ps, CanJoin m p)
    {records : List Record} (hrecords : ∀ record ∈ records, m.Carries record) :
    joinRecords modelNames ps records = .ok (joinFound modelNames ps records) := by
  have hjoined := Outcome.mapM_eq_ok fun record hrecord =>
    @joinRecord_eq m φ modelNames ps hps record (hrecords record hrecord)
  rw [joinRecords, hjoined, Outcome.ok_bind, Outcome.pure_eq_ok]
  refine congrArg Except.ok ?_
  unfold joinFound kept keptAll
  clear hjoined hrecords
  induction records with
  | nil => rfl
  | cons record records ih =>
    simp only [List.map_cons, List.filterMap_cons, List.filter_cons, id]
    by_cases hkept : (attachEach modelNames ps (record, true)).2 = true
    · simp only [hkept, if_true, List.map_cons]
      exact congrArg (List.cons _) ih
    · simp only [hkept, if_false, Bool.false_eq_true]
      exact ih

/-! ## Searches with plans -/

/-- Whether records found for a plan are what the plan may attach. -/
def IsFoundFor (r : Registry) (db : Database) (found : List Record) (plan : ClausePlan) : Prop :=
  ∀ other, r.model? plan.model = some other → Matched other.Matches found (joined r db plan)

variable {bs : List Builder} {qs : List ClausePlan}

/-- What was found for plans that agree serves every record, and its keys can be compared. -/
theorem serves_of_agree (hr : d.registry.IsMirrored) (hdb : db.IsTyped d.registry)
    (hmodel : d.registry.model? name = some m) (h : AllAgree d.registry name bs qs)
    {founds : List (List Record)} (hfounds : List.Forall₂ (IsFoundFor d.registry db) founds qs) :
    (∀ p ∈ bs.zip founds, CanJoin m p) ∧ ∀ record,
      List.Forall₂ (Serves m record) (bs.zip founds) (qs.zip (joinedEach d.registry db qs)) := by
  induction bs generalizing qs founds with
  | nil =>
    cases h
    exact ⟨by simp, fun _ => .nil⟩
  | cons p bs ih =>
    cases h with
    | @cons _ _ q _ qs hpq hrest =>
      cases hfounds with
      | @cons found _ founds _ hfound hfounds =>
        obtain ⟨hcan, hserves⟩ := ih hrest hfounds
        cases hpq with
        | @node _ model required attributes where_ clause relation _ _ hrelation _ _ =>
          obtain ⟨other, t, a, b, hlink⟩ := exists_link hr hdb hmodel hrelation
          have hmatched := hfound other (Registry.model?_of_table hlink.table_eq)
          refine ⟨fun p hp => ?_, fun record => .cons ?_ (hserves record)⟩
          · rcases List.mem_cons.mp hp with rfl | hp
            · refine ⟨ne_of_hasModel hr hmodel (Registry.hasModel_of_table hlink.table_eq), ?_⟩
              intro relation' hrelation'
              obtain rfl : relation = relation' := Option.some.inj hrelation'
              refine ⟨a, b, hlink.this_mem, hlink.this_name, hlink.type_eq, fun child hchild => ?_⟩
              obtain ⟨_, _, hmatches⟩ := hmatched.exists_of_mem hchild
              rw [← hlink.other_name]
              exact hmatches.carries.admits b hlink.other_mem
            · exact hcan p hp
          · refine hlink.serves hr ?_ ?_ ⟨?_, ?_, ?_, ?_⟩
              (matched_relatedTo hmatched hlink.hasAttribute_other _) <;> rfl

/-- A search without plans finds the records of the selection. -/
theorem exists_matching (hr : d.registry.IsMirrored) (hdb : db.IsTyped d.registry)
    (hc : Coherent d sets db) (hm : d.registry.table name = .ok m) {where_ : Value}
    {f : Formula Requirement} (hf : Requires m where_ f) :
    ∃ found, (∀ ref, (matching d ref name where_).Leads (Stores.Stands d sets primary)
        (.ok (some found)) (Stores.Stands d sets primary)) ∧
      Matched m.Matches (found.map (·.2)) (selected d.registry db name (some (clauseOf m f))) := by
  obtain ⟨t, ht, htyped⟩ := hdb name m hm
  have hmodel := Registry.model?_of_table hm
  have hproper := hr.sound.isProper hmodel
  obtain ⟨found, hleads, hperm⟩ := hc.matching_leads hr hm ht htyped hf primary
  refine ⟨found, hleads, ?_⟩
  have hselected : selected d.registry db name (some (clauseOf m f)) = recordsOf t (testOf m f) :=
    selected_eq hm ht _
  rw [hselected]
  refine Matched.perm_right (Matched.perm_left ?_ (hperm.map Prod.snd))
    (recordsOf_perm htyped _).symm
  rw [List.map_map]
  refine Matched.of_map fun row hrow => ?_
  have hrecord := (htyped.rows row (List.mem_filter.mp hrow).1).isRecord hproper (hr.exact hmodel)
  have hsorted := sortedEntries_perm (admits_fields hrecord hproper)
  exact ((hrecord.perm hproper hsorted.symm).carries hproper).matches_perm hsorted

/-- A search joins what it finds with what was found for its plans. -/
theorem findWith_leads (hr : d.registry.IsMirrored) (hdb : db.IsTyped d.registry)
    (hc : Coherent d sets db) (hm : d.registry.table name = .ok m) {where_ : Value}
    {f : Formula Requirement} (hf : Requires m where_ f) (h : AllAgree d.registry name bs qs)
    {related : CorrelationRef → Action (List (Option (List Record)))}
    {founds : List (List Record)}
    (hrelated : ∀ ref, (related ref).Leads (Stores.Stands d sets primary) (.ok (founds.map some))
      (Stores.Stands d sets primary))
    (hfounds : List.Forall₂ (IsFoundFor d.registry db) founds qs) :
    ∃ records, (∀ ref, (findWith d ref name where_ bs (related ref)).Leads
        (Stores.Stands d sets primary) (.ok (some records)) (Stores.Stands d sets primary)) ∧
      Matched m.Matches records
        (join d.registry db qs (selected d.registry db name (some (clauseOf m f)))) := by
  have hmodel := Registry.model?_of_table hm
  obtain ⟨found, hmatching, hmatched⟩ := exists_matching hr hdb hc hm hf
  obtain ⟨hcan, hserves⟩ := serves_of_agree hr hdb hmodel h hfounds
  have hjoin : Matched m.Matches
      (joinFound d.registry.modelNames (bs.zip founds) (found.map (·.2)))
      (join d.registry db qs (selected d.registry db name (some (clauseOf m f)))) :=
    joinFound_matches (hmatched.imp fun x y hxy => ⟨hxy, hserves x⟩)
  refine ⟨_, fun ref => ?_, hjoin⟩
  have hknows := Leads.knows (Registry.hasModel_of_table hm) ref component (Stores.Stands d sets primary)
  refine Leads.bind hknows (Leads.bind (hmatching ref) ?_)
  have hcarries : ∀ record ∈ found.map (·.2), m.Carries record := by
    intro record hrecord
    obtain ⟨_, _, hmatches⟩ := hmatched.exists_of_mem hrecord
    exact hmatches.carries
  by_cases hdone : (bs.isEmpty || (found.map (·.2)).isEmpty) = true
  · simp only [hdone, if_true]
    have hnothing : joinFound d.registry.modelNames (bs.zip founds) (found.map (·.2)) =
        found.map (·.2) := by
      rcases Bool.or_eq_true_iff.mp hdone with hplans | hrecords
      · rw [List.isEmpty_iff.mp hplans, List.zip_nil_left, joinFound_nil]
      · rw [List.isEmpty_iff.mp hrecords]
        rfl
    rw [hnothing]
    exact Leads.pure _ _
  · simp only [hdone, if_false, Bool.false_eq_true]
    have hall : (founds.map some).mapM id = some founds := by
      clear hrelated hfounds hserves hcan hjoin
      induction founds with
      | nil => rfl
      | cons found founds ih => simp [ih]
    refine Leads.bind (hrelated ref) ?_
    simp only [hall]
    have hjoined := @joinRecords_eq m _ d.registry.modelNames _ hcan _ hcarries
    rw [hjoined]
    exact Leads.bind (Leads.ofOutcome (.ok _) _) (Leads.pure _ _)

mutual

/-- What the cache finds for a plan is what the plan may attach. -/
theorem findPlan_leads (hr : d.registry.IsMirrored) (hdb : db.IsTyped d.registry)
    (hc : Coherent d sets db) : ∀ {parent : String} {p : Builder} {q : ClausePlan},
    Agrees d.registry parent p q → ∃ found,
      (∀ ref, (findPlan d ref p).Leads (Stores.Stands d sets primary) (.ok (some found))
        (Stores.Stands d sets primary)) ∧ IsFoundFor d.registry db found q
  | parent, .node model required attributes where_ relation children, q, h => by
    cases h with
    | @node _ _ _ _ _ clause relation _ children' hrelation hwhere hchildren =>
      obtain ⟨m, f, hm, hf, hclause⟩ := hwhere
      obtain ⟨founds, hrelated, hfounds⟩ := findPlans_leads hr hdb hc hchildren
      obtain ⟨records, hleads, hmatched⟩ :=
        findWith_leads hr hdb hc hm hf hchildren hrelated hfounds
      have hselected : selected d.registry db model (some (clauseOf m f)) =
          selected d.registry db model clause := by
        unfold selected
        rw [hclause]
        rfl
      refine ⟨records, hleads, fun other hother => ?_⟩
      obtain rfl : m = other := Option.some.inj ((Registry.model?_of_table hm).symm.trans hother)
      rw [hselected] at hmatched
      exact hmatched

/-- What the cache finds for some plans is what the plans may attach. -/
theorem findPlans_leads (hr : d.registry.IsMirrored) (hdb : db.IsTyped d.registry)
    (hc : Coherent d sets db) : ∀ {parent : String} {ps : List Builder} {qs : List ClausePlan},
    AllAgree d.registry parent ps qs → ∃ founds,
      (∀ ref, (findPlans d ref ps).Leads (Stores.Stands d sets primary) (.ok (founds.map some))
        (Stores.Stands d sets primary)) ∧ List.Forall₂ (IsFoundFor d.registry db) founds qs
  | _, [], _, h => by
    cases h
    exact ⟨[], fun _ => Leads.pure [] _, .nil⟩
  | _, p :: ps, _, h => by
    cases h with
    | cons hp hps =>
      obtain ⟨found, hfirst, hfound⟩ := findPlan_leads hr hdb hc hp
      obtain ⟨founds, hrest, hfounds⟩ := findPlans_leads hr hdb hc hps
      exact ⟨found :: founds, fun ref => Leads.bind (Leads.both (hfirst ref) (hrest ref))
        (Leads.pure _ _), .cons hfound hfounds⟩

end

/-- A search with plans is the join of the selection. -/
theorem find_matches (hr : d.registry.IsMirrored) (hdb : db.IsTyped d.registry)
    (hc : Coherent d sets db) (hm : d.registry.table name = .ok m) {where_ : Value}
    {f : Formula Requirement} (hf : Requires m where_ f) (h : AllAgree d.registry name bs qs) :
    ∃ records, (∀ given, (find d given name where_ bs).Leads (Stores.Stands d sets primary)
        (.ok (some records)) (Stores.Stands d sets primary)) ∧
      Matched m.Matches records
        (join d.registry db qs (selected d.registry db name (some (clauseOf m f)))) := by
  obtain ⟨founds, hrelated, hfounds⟩ := findPlans_leads hr hdb hc h
  obtain ⟨records, hleads, hmatched⟩ := findWith_leads hr hdb hc hm hf h hrelated hfounds
  exact ⟨records, fun given => Leads.inScope hleads, hmatched⟩

end Cache

open Twin

variable {c : Stores}

/-- A query answers with what its clause selects under its plans. -/
theorem query_gives_selected (hm : d.registry.table name = .ok m) {where_ : Value}
    {f : Formula Requirement} (hf : Requires m where_ f) {qs : List ClausePlan} {rows : List Record}
    (h : selectWith d.registry c.database m (clauseOf m f) qs = .ok rows)
    (given : Option CorrelationRef) :
    (query d given name (.filter where_) .null qs).Gives c (.ok (some rows)) c := by
  have hgives := query_gives hm given (.filter where_) qs c
  obtain ⟨lines, hclause, _⟩ := hf.run_eq
  have hread : ((Selection.filter where_).toClause m).run.2 = .ok (clauseOf m f) := by
    rw [Selection.toClause, hclause]
  rw [hread, Outcome.ok_bind, h] at hgives
  exact hgives

/-- A query leaves the stores as they are, whatever the cache holds. -/
theorem query_leads (hm : d.registry.table name = .ok m) {where_ : Value} {f : Formula Requirement}
    (hf : Requires m where_ f) {qs : List ClausePlan} {rows : List Record}
    (h : selectWith d.registry db m (clauseOf m f) qs = .ok rows) (sets : Entries (List String))
    (planned : List (Option Bool)) (given : Option CorrelationRef) :
    (query d given name (.filter where_) .null qs).Leads (Stores.Stands d sets (db, planned))
      (.ok (some rows)) (Stores.Stands d sets (db, planned)) := by
  refine Leads.of_gives fun c hstands => ⟨c, query_gives_selected hm hf ?_ given, hstands⟩
  rwa [show c.database = db from congrArg Prod.fst hstands.primary_eq]

/-- A query with plans answers with the join of the selection. -/
theorem query_matches (hr : d.registry.IsMirrored) (hdb : c.database.IsTyped d.registry)
    (hm : d.registry.table name = .ok m) {where_ : Value} {f : Formula Requirement}
    (hf : Requires m where_ f) {bs : List Builder} {qs : List ClausePlan}
    (h : AllAgree d.registry name bs qs) :
    ∃ rows, (∀ given, (query d given name (.filter where_) .null qs).Gives c (.ok (some rows)) c) ∧
      Matched m.Matches rows
        (join d.registry c.database qs
          (selected d.registry c.database name (some (clauseOf m f)))) := by
  obtain ⟨rows, hselect, hmatched⟩ := selectWith_matches hr hdb hm hf.2 h
  exact ⟨rows, query_gives_selected hm hf hselect, hmatched⟩

/-- The sets of a coherent cache and the tables give the same answer to an accepted request: both
resolutions of the request succeed, and the search with the one and the query with the other find
the records that the filter selects, joined with what they refer to. -/
theorem find_agrees_with_query (hr : d.registry.IsMirrored) {s : Stores} (hs : s.IsUp d)
    (hdb : s.database.IsTyped d.registry) (hc : Coherent d s.server.sets s.database)
    (hm : d.registry.table name = .ok m) {where_ : Value} {f : Formula Requirement}
    (hf : Requires m where_ f) {tokens : List Token}
    (htokens : AcceptsRequest d.registry name none tokens) (given given' : Option CorrelationRef) :
    ∃ plans plans' found rows s₁ s₂,
      (resolve d.registry cacheForm name tokens).run.2 = .ok plans ∧
      (resolve d.registry (tableForm d.registry) name tokens).run.2 = .ok plans' ∧
      runFrom (Cache.find d given name where_ plans) s = (.ok (some found), s₁) ∧
      runFrom (query d given' name (.filter where_) .null plans') s = (.ok (some rows), s₂) ∧
      (asValue found).Alike (asValue rows) ∧
      (asValue rows).Alike (asValue (join d.registry s.database plans'
        (selected d.registry s.database name (some (clauseOf m f))))) := by
  obtain ⟨plans, plans', hplans, hplans', hagree⟩ := resolve_agree hr.sound htokens
  have hstands : Stores.Stands d s.server.sets (s.database, s.plannedDeletions) s.content :=
    ⟨⟨hs.answers, hs.reachable⟩, rfl, rfl⟩
  obtain ⟨found, hfind, hfound⟩ := Cache.find_matches hr hdb hc hm hf hagree
  obtain ⟨rows, hquery, hrows⟩ := @query_matches d name m s.content hr hdb hm where_ f hf _ _ hagree
  obtain ⟨s₁, hrun, _⟩ := hfind given s hstands
  obtain ⟨s₂, hrun', _⟩ := hquery given' s rfl
  have hanswer := hrows.alike_asValue
  exact ⟨plans, plans', found, rows, s₁, s₂, hplans, hplans', hrun, hrun',
    hfound.alike_asValue.trans hanswer.symm, hanswer⟩

/-! ## A circle, searched in both stores -/

/-- The stores with a circle of records, mirrored in the cache. -/
def mirroredCircle : Stores :=
  { circle with server := { sets := [("node", circleRows.map (memberIn node))] } }

/-- The request for the records that name a record as their parent, if they come after the first. -/
def laterChildren : List Token := [.name "node", .filter [("id", .map [("$gt", .int 1)])]]

/-- The filter of that request as a formula. -/
def isLater : Formula Requirement := .conj [.leaf ⟨"id", .gt, .int 1⟩]

theorem isMirrored_nodes : nodes.registry.IsMirrored where
  built := built_nodes
  keys := hasKeys_nodes
  exact := isExact_node
  apart h := by
    rw [eq_node h]
    decide

theorem isUp_mirroredCircle : mirroredCircle.IsUp nodes where
  answers _ := rfl
  reachable := Or.inr (Or.inl rfl)

theorem coherent_mirroredCircle :
    Coherent nodes mirroredCircle.server.sets mirroredCircle.database := by
  refine Coherent.of_perm isMirrored_nodes isTyped_circle fun name m t hm ht => ?_
  obtain rfl := eq_node (Registry.model?_of_table hm)
  obtain rfl : (⟨node, circleRows⟩ : Table) = t := Except.ok.inj ht
  rw [← isMirrored_nodes.sound.name_eq (Registry.model?_of_table hm)]
  exact List.Perm.refl _

theorem accepts_laterChildren : AcceptsRequest nodes.registry "node" none laterChildren := by
  rw [laterChildren, AcceptsRequest, AcceptsRequest, AcceptsRequest]
  refine ⟨fun model hmodel => ⟨node, isLater, ?_, ⟨[], ?_⟩, fun c hc => ?_⟩, trivial⟩
  · obtain rfl : "node" = model := Option.some.inj hmodel
    rfl
  · cbv
  · rw [isLater, Formula.leaves, Formula.leavesOf, Formula.leavesOf, List.append_nil,
      Formula.leaves, List.mem_singleton] at hc
    subst hc
    exact ⟨.int, by decide, rfl, ⟨.int 1, rfl, Or.inr (.int (by decide))⟩, rfl⟩

theorem find_agrees_with_query_on_circle :
    mirroredCircle.IsUp nodes ∧ AcceptsRequest nodes.registry "node" none laterChildren ∧
    ∃ plans plans' found rows s₁ s₂,
      (resolve nodes.registry cacheForm "node" laterChildren).run.2 = .ok plans ∧
      (resolve nodes.registry (tableForm nodes.registry) "node" laterChildren).run.2 =
        .ok plans' ∧
      runFrom (Cache.find nodes none "node" .null plans) mirroredCircle = (.ok (some found), s₁) ∧
      runFrom (query nodes none "node" (.filter .null) .null plans') mirroredCircle =
        (.ok (some rows), s₂) ∧
      (asValue found).Alike (asValue rows) ∧
      (asValue rows).Alike (asValue (join nodes.registry mirroredCircle.database plans'
        (selected nodes.registry mirroredCircle.database "node"
          (some (clauseOf node (.conj [])))))) :=
  ⟨isUp_mirroredCircle, accepts_laterChildren, find_agrees_with_query isMirrored_nodes
    isUp_mirroredCircle isTyped_circle coherent_mirroredCircle rfl (requires_null node)
    accepts_laterChildren none none⟩

/-- A record with a text for its parent. -/
def mislabeled : Record := [("id", .int 1), ("parent", .text "abc")]

/-- The stores with that record alone, mirrored in the cache. -/
def mislabeledNode : Stores :=
  { database := ⟨[("node", ⟨node, [[("id", .int 1), ("parent", .text "abc")]]⟩)]⟩
    server := { sets := [("node", [Cache.memberText mislabeled])] } }

theorem coherent_mislabeledNode :
    Coherent nodes mislabeledNode.server.sets mislabeledNode.database := by
  intro name m t hm ht
  obtain rfl := eq_node (Registry.model?_of_table hm)
  have hname := isMirrored_nodes.sound.name_eq (Registry.model?_of_table hm)
  have hset : setOf nodes mislabeledNode.server.sets name = [Cache.memberText mislabeled] := by
    rw [← hname]
    rfl
  have hrecord : Database.recordOf node [("id", .int 1), ("parent", .text "abc")] =
      .ok mislabeled := by cbv
  have hencode : Cache.encode mislabeled = .ok (Cache.memberText mislabeled) := by cbv
  cases ht
  rw [hset]
  refine ⟨List.nodup_singleton _, fun raw => ⟨fun hraw => ?_, ?_⟩⟩
  · rw [List.mem_singleton.mp hraw]
    exact ⟨_, List.mem_singleton_self _, mislabeled, hrecord, hencode⟩
  · rintro ⟨row, hrow, record, hrecord', hencode'⟩
    rw [List.mem_singleton.mp hrow, hrecord] at hrecord'
    rw [← Except.ok.inj hrecord', hencode] at hencode'
    rw [← Except.ok.inj hencode']
    exact List.mem_singleton_self _

/-- A bound of more than 64 bits compares with records and cannot be bound to a statement; a text that
stands where integers belong comes after every integer in the table and has no place in the order of
records. -/
theorem find_differs_from_query :
    (Coherent nodes mirroredCircle.server.sets mirroredCircle.database ∧
      ((runFrom (Cache.find nodes none "node"
        (.map [("id", .map [("$lt", .int 9223372036854775808)])]) []) mirroredCircle).1.map
          (Option.map List.length)).toOption = some (some 3) ∧
      ((runFrom (query nodes none "node"
        (.filter (.map [("id", .map [("$lt", .int 9223372036854775808)])])) .null [])
          mirroredCircle).1.map (Option.map List.length)).toOption = none) ∧
    Coherent nodes mislabeledNode.server.sets mislabeledNode.database ∧
      ((runFrom (Cache.find nodes none "node" (.map [("parent", .map [("$gt", .int 5)])]) [])
        mislabeledNode).1.map (Option.map List.length)).toOption = some (some 0) ∧
      ((runFrom (query nodes none "node" (.filter (.map [("parent", .map [("$gt", .int 5)])]))
        .null []) mislabeledNode).1.map (Option.map List.length)).toOption = some (some 1) := by
  refine ⟨⟨coherent_mirroredCircle, ?_, ?_⟩, coherent_mislabeledNode, ?_, ?_⟩ <;> cbv

end TwinStore
