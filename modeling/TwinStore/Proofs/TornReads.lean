import TwinStore.Proofs.AnsweredQueries
import TwinStore.Proofs.NestedRows
import TwinStore.Proofs.PrimaryEffects
import TwinStore.Proofs.Refilling
import TwinStore.Proofs.SearchAgreement
import TwinStore.Proofs.TornSearches
import TwinStore.Proofs.WholeMembers

/-!
# Reads that are never torn

A read is answered by the cache if the whole search succeeds there and finds something.  As soon as one
command of the search fails, the answer is that of the primary store, and commands that fail while it is
written into the cache do not change it.

Main definitions:

- `Filter.IsServed`: filters that both stores accept, with operands that can be compared.
- `Database.HoldsWords`: databases whose integers fit into a word.
- `shownAnswer`: what a caller is shown of an answer.

Main results:

- Theorem `isHereditary_isLaden`: answers of the primary store can be written into the cache.
- Theorem `read_is_never_torn`: reads during which any commands fail.
-/

namespace TwinStore

open Action Cache Filter Include Primary

/-! ## Requests that both stores accept -/

/-- Whether both stores accept a filter on a model, and its operands are no signalling numbers. -/
structure Filter.IsServed (r : Registry) (model : String) (where_ : Value) : Prop where
  predicate : ∃ predicate,
    (Predicate.ofFilter where_ (some (r.attributeTypes model))).run.2 = .ok predicate
  clause : ∃ m clause, r.table model = .ok m ∧ (toClause where_ m).run.2 = .ok clause
  quiet : AsksQuietly where_

namespace Filter.IsServed

variable {d : Deployment} {model : String}

/-- The cache reads an accepted filter as a predicate that answers. -/
theorem answers {where_ : Value} (h : IsServed d.registry model where_) (hr : d.registry.IsSound)
    (hexact : d.registry.IsExact) : Answers (d.registry.attributeTypes model) where_ := by
  obtain ⟨predicate, hpredicate⟩ := h.predicate
  have hsure := Holding.IsCalm.either_ofFilter (hexact.ne_decimal hr model) h.quiet
  rw [hpredicate] at hsure
  exact ⟨predicate, hpredicate, hsure⟩

/-- The note for other readers in a filter is not read. -/
theorem answers_erase {where_ : Entries Value} (h : IsServed d.registry model (.map where_))
    (hr : d.registry.IsSound) (hexact : d.registry.IsExact) :
    Answers (d.registry.attributeTypes model) (.map (Entries.erase where_ transformKey)) := by
  obtain ⟨predicate, hpredicate, hsure⟩ := h.answers hr hexact
  have hsame : (recordReading (some (d.registry.attributeTypes model))).filter
      (.map (Entries.erase where_ transformKey)) =
      (recordReading (some (d.registry.attributeTypes model))).filter (.map where_) := by
    unfold Reading.filter withoutTransform
    simp [Entries.erase, List.filter_filter]
  refine ⟨predicate, ?_, hsure⟩
  rwa [Predicate.ofFilter, hsame]

/-- An accepted request is resolved for both stores. -/
theorem exists_plans (hr : d.registry.IsSound) (hexact : d.registry.IsExact) {tokens : List Token}
    (htokens : AsksRequest d.registry (fun model where_ => IsServed d.registry model (.map where_)) model
      none tokens) :
    ∃ plans plans', (resolve d.registry cacheForm model tokens).run.2 = .ok plans ∧
      AreShaped d.registry (fun model where_ => Answers (d.registry.attributeTypes model) (.map where_))
        model plans ∧
      (resolve d.registry (tableForm d.registry) model tokens).run.2 = .ok plans' := by
  have hcache := @resolve_ends _ d.registry cacheForm _
    (fun model where_ => Answers (d.registry.attributeTypes model) (.map where_)) (fun _ => False) hr
    (fun model where_ _ hserved => Resolving.Ends.pure (hserved.answers_erase hr hexact)) model tokens
    htokens
  have htable := @resolve_ends _ d.registry (tableForm d.registry) _ (fun _ _ => True) (fun _ => False) hr
    (fun model where_ _ hserved => by
      obtain ⟨m, clause, hm, hclause⟩ := hserved.clause
      simp only [tableForm, hm]
      refine Resolving.Ends.ofReported ?_
      rw [hclause]
      trivial) model tokens htokens
  cases hplans : (resolve d.registry cacheForm model tokens).run.2 with
  | error fault =>
    rw [hplans] at hcache
    exact hcache.elim
  | ok plans =>
    cases hplans' : (resolve d.registry (tableForm d.registry) model tokens).run.2 with
    | error fault =>
      rw [hplans'] at htable
      exact htable.elim
    | ok plans' =>
      rw [hplans] at hcache
      exact ⟨plans, plans', rfl, hcache, rfl⟩

end Filter.IsServed

/-! ## Answers that can be written -/

/-- Whether the integers in the rows of all models fit into a word. -/
def Primary.Database.HoldsWords (r : Registry) (db : Database) : Prop :=
  ∀ name m t, r.table name = .ok m → db.table m = .ok t → ∀ row ∈ t.rows, ∀ a ∈ m.attributes,
    ∀ n, row.cell a.name = .int n → fitsWord n = true

/-- The integers of typed tables fit into a word. -/
theorem Primary.Database.IsTyped.holdsWords {d : Deployment} {db : Database}
    (hdb : db.IsTyped d.registry) (hexact : d.registry.IsExact) : db.HoldsWords d.registry := by
  intro name m t hm ht row hrow a ha n hn
  obtain ⟨t', ht', htyped⟩ := hdb name m hm
  obtain rfl := Except.ok.inj (ht.symm.trans ht')
  obtain ⟨v, hv, hcell⟩ := htyped.rows row hrow a ha (hexact name m hm a ha)
  rw [hn] at hcell
  rcases hv with rfl | hv
  · cases hcell
  · generalize a.type = type at hv
    cases hv with
    | int hfits => exact Cell.int.inj hcell ▸ hfits
    | bool b =>
      obtain rfl := Cell.int.inj hcell
      cases b <;> decide
    | _ => cases hcell

/-- The members of a cache that mirrors typed tables are read with naive points of time. -/
theorem Coherent.areTame {d : Deployment} {sets : Entries (List String)} {db : Database}
    (h : Coherent d sets db) (hr : d.registry.IsMirrored) (hdb : db.IsTyped d.registry) :
    AreTame d sets := by
  intro name hname raw hraw
  obtain ⟨m, hmodel⟩ := Option.isSome_iff_exists.mp hname
  have hm := hr.sound.table_eq hmodel
  have hproper := hr.sound.isProper hmodel
  obtain ⟨t, ht, htyped⟩ := hdb name m hm
  obtain ⟨row, hrow, record, hrecord, hencode⟩ := ((h name m t hm ht).2 raw).mp hraw
  rw [Registry.attributeTypes_of_table hm]
  refine isTame_of_encode (Registry.keys_of_recordOf hrecord ▸ hproper) (fun e he => ?_) hencode
  obtain ⟨a, ha, hfield⟩ := Outcome.exists_of_mem_mapM hrecord he
  obtain ⟨v, hvalue, heq⟩ := Outcome.bind_eq_ok.mp hfield
  obtain rfl := Except.ok.inj heq
  have hexact := hr.exact hmodel a ha
  simp only [hproper.get?_attributeTypes ha]
  exact suits_valueOf hexact (fun htype => htype ▸ htyped.rows row hrow a ha hexact) hvalue

/-- Answers of the primary store can be written into the cache, byte strings apart. -/
theorem isHereditary_isLaden {r : Registry} (hexact : r.IsExact) {db : Database}
    (hdb : db.HoldsWords r) : IsHereditary r db (IsLaden r) where
  selected := by
    intro name m clause records hm h record hrecord
    obtain ⟨⟨t, test⟩, htest, h⟩ := Outcome.bind_eq_ok.mp h
    obtain ⟨_, _, htest⟩ := Outcome.bind_eq_ok.mp htest
    obtain ⟨t', ht, htest⟩ := Outcome.bind_eq_ok.mp htest
    obtain ⟨_, _, heq⟩ := Outcome.bind_eq_ok.mp htest
    obtain ⟨rfl, rfl⟩ := Prod.mk.inj (Except.ok.inj heq)
    obtain ⟨row, hrow, hread⟩ := Outcome.exists_of_mem_mapM h hrecord
    refine IsLaden.of_isWritable fun e he => ?_
    obtain ⟨a, ha, hfield⟩ := Outcome.exists_of_mem_mapM hread he
    obtain ⟨v, hvalue, heq⟩ := Outcome.bind_eq_ok.mp hfield
    obtain rfl := Except.ok.inj heq
    exact isWritable_valueOf (hexact name m hm a ha)
      (hdb name m t' hm ht row (Table.IsOrderly.mem_select.mp hrow).1 a ha) hvalue
  project h wanted := h.project wanted r.modelNames
  set hname h _ hrelated := h.set hname hrelated

namespace Twin

variable {d : Deployment} {p : Disruption} {model : String} {c : Stores}

/-- Records that can be written are added, or not, whatever commands fail. -/
theorem create_amid_delivers (hanswers : p.Answers) (given : Option CorrelationRef) {records : List Record}
    (hladen : ∀ record ∈ records, IsLaden d.registry record) :
    Delivers (fun _ => True) (do modify p.arm; Cache.create d given model (asValue records))
      fun _ => True := by
  refine Ends.modify_bind (S := fun h => h.Answers ∧ True) (fun s _ => ⟨fun command hbad => ?_, trivial⟩)
    (Ends.weaken (create_delivers (I := fun _ => True) (Cache.either_membersOf_own hladen) given)
      (fun _ => id) fun o c ho => ho.imp (fun _ ha => ⟨ha.1, trivial⟩) fun _ => id)
  have hnext : (p.arm s).server.outage? command = some .badValue := hbad
  rw [Disruption.outage?_arm] at hnext
  cases command with
  | _ => exact hanswers _ _ hnext

/-- A nested answer of records that can be written is written, or not, whatever commands fail. -/
theorem refillAmid_leads {φ : Type} (hanswers : p.Answers) (ref : CorrelationRef) {rows : List Record}
    (hnested : ∀ row ∈ rows, IsNested d.registry row) (hladen : ∀ row ∈ rows, IsLaden d.registry row)
    {plans : List (Plan φ)} (hplans : AreBound d.registry plans) (P : Stores → Prop) :
    (refillAmid p.arm d ref model rows plans).Leads P (.ok ()) fun _ => True := by
  have hgroups := groups_rowsOf ((model, rows) :: relatedRowsOf rows plans)
  rw [List.map_cons, rowsOf] at hgroups
  have hdelivers : Delivers (fun _ => True) (refillAmid p.arm d ref model rows plans) fun _ => True := by
    rw [refillAmid, includedRowsOf_eq plans hplans hnested]
    simp only [Action.ofOutcome, pure_bind, hgroups, each_map]
    refine Delivers.bind (Delivers.each (L := fun _ => True) fun group hgroup => ?_)
      fun _ _ => Delivers.pure trivial
    refine create_amid_delivers hanswers (some ref) fun record hrecord => ?_
    obtain ⟨g, hg, _, hmem⟩ := mem_byModel (List.mem_filter.mp hgroup).1 hrecord
    exact IsLaden.of_mem_groups hladen plans hg hmem
  intro s _
  obtain ⟨_, hrun, -⟩ := hdelivers.exists_ok (s := s) trivial
  exact ⟨_, Prod.ext hrun rfl, trivial⟩

/-! ## Reads -/

/-- What a caller is shown of an answer. -/
def shownAnswer (modelNames : List String) (attributes : Value) :
    Option (List Record) → Outcome (Option (List Record))
  | none => .ok none
  | some records => (shown modelNames attributes records).map some

section

variable {attributes where_ : Value} {tokens : List Token} {plans : List Builder}
  {plans' : List ClausePlan} {P Q R : Stores → Prop} {found : Option (List Record)}
  {search : CorrelationRef → List Builder → Action (Option (List Record))}
  {primary : CorrelationRef → Action (Option (List Record))}

/-- A read of which the search finds something shows that, and asks nothing else. -/
theorem readBy_hit_leads (hm : d.registry.hasModel model = true) (given : Option CorrelationRef)
    (hplans : (resolve d.registry cacheForm model tokens).run.2 = .ok plans) {first : Record}
    {rest : List Record}
    (hsearch : ∀ ref, (search ref plans).Leads P (.ok (some (first :: rest))) Q) :
    (readBy search primary d given model attributes tokens).Leads P
      ((shown d.registry.modelNames attributes (first :: rest)).map some) Q := by
  refine Leads.inScope fun ref => Leads.bind (Leads.knows hm ref component _) ?_
  have hresolved := resolved_leads ref (resolve d.registry cacheForm model tokens) P
  rw [hplans] at hresolved
  exact Leads.bind hresolved (Leads.bind (hsearch ref) (Leads.bind (Leads.pure _ _) (shown_leads _ _)))

/-- A read of which the search finds nothing shows the answer of the primary store. -/
theorem readBy_miss_leads (hm : d.registry.hasModel model = true) (given : Option CorrelationRef)
    (hplans : (resolve d.registry cacheForm model tokens).run.2 = .ok plans)
    (hnone : found = none ∨ found = some [])
    (hsearch : ∀ ref, (search ref plans).Leads P (.ok found) Q) {o : Outcome (Option (List Record))}
    (hprimary : ∀ ref, (primary ref).Leads Q o R) :
    (readBy search primary d given model attributes tokens).Leads P
      (o >>= shownAnswer d.registry.modelNames attributes) R := by
  refine Leads.inScope fun ref => Leads.bind (Leads.knows hm ref component _) ?_
  have hresolved := resolved_leads ref (resolve d.registry cacheForm model tokens) P
  rw [hplans] at hresolved
  refine Leads.bind hresolved (Leads.bind (hsearch ref) ?_)
  have hanswer (message : String) : (do
      Action.report ref .debug component message [("model", .text model)]
      showAnswer d attributes (← primary ref) : Action (Option (List Record))).Leads Q
        (o >>= shownAnswer d.registry.modelNames attributes) R := by
    refine Leads.bind (Leads.report _ _ _ _ _ _) ?_
    cases o with
    | error fault => exact Leads.bind_error (hprimary ref)
    | ok answer =>
      refine Leads.bind (hprimary ref) ?_
      cases answer with
      | none => exact Leads.pure _ _
      | some records => exact shown_leads records R
  rcases hnone with rfl | rfl
  · exact hanswer _
  · exact hanswer _

/-- The primary store answers as the query does, whatever commands fail while the answer is written into
the cache. -/
theorem readPrimaryAmid_leads (hr : d.registry.IsSound) (hexact : d.registry.IsExact)
    (hapart : d.registry.NamesApart) {m : Model} (hm : d.registry.table model = .ok m)
    (hplans' : (resolve d.registry (tableForm d.registry) model tokens).run.2 = .ok plans')
    (hdb : c.database.HoldsWords d.registry) (hanswers : p.Answers) (ref : CorrelationRef) :
    (readPrimaryAmid p.arm d ref model where_ tokens).Leads (· = c)
      (answered (((Selection.filter where_).toClause m).run.2 >>= fun clause =>
        selectWith d.registry c.database m clause plans')) fun _ => True := by
  have hresolved := resolved_leads ref (resolve d.registry (tableForm d.registry) model tokens) (· = c)
  rw [hplans'] at hresolved
  have htable : (tablePlans d ref model tokens).Leads (· = c) (.ok (some plans')) (· = c) :=
    Leads.bind hresolved.attempt (Leads.pure _ _)
  have hbound := isBound_resolve hr hplans'
  have hquery : (Primary.query d (some ref) model (.filter where_) .null plans').Leads (· = c) _ (· = c) :=
    query_gives hm (some ref) (.filter where_) plans' c
  refine Leads.bind htable ?_
  -- The query may fail for a reason that the primary store does not answer for.
  cases hselects : (((Selection.filter where_).toClause m).run.2 >>= fun clause =>
      selectWith d.registry c.database m clause plans') with
  | error fault =>
    rw [hselects] at hquery
    unfold answered at hquery ⊢
    simp only at hquery ⊢
    split_ifs at hquery ⊢
    · exact Leads.bind hquery ((Leads.pure _ _).weaken (fun _ => id) fun _ _ => trivial)
    · exact (Leads.bind_error hquery).weaken (fun _ => id) fun _ _ => trivial
  | ok rows =>
    rw [hselects] at hquery
    obtain ⟨clause, _, hselect⟩ := Outcome.bind_eq_ok.mp hselects
    refine Leads.bind hquery ?_
    cases rows with
    | nil => exact (Leads.pure _ _).weaken (fun _ => id) fun _ _ => trivial
    | cons row rows =>
      have hnested := (isHereditary_isNested hapart c.database).selectWith hm hbound hselect
      have hladen := (isHereditary_isLaden hexact hdb).selectWith hm hbound hselect
      exact Leads.bind (refillAmid_leads hanswers ref hnested hladen hbound _)
        ((Leads.pure _ _).weaken (fun _ => id) fun _ _ => trivial)

end

/-- A read during which any commands fail is never answered from a torn search.  If a command of the
search fails, the search finds nothing; if it finds nothing, the read answers as the query of the primary
store does, whatever commands fail while the answer is written into the cache; and if it finds
something, the read answers with that, and what else could be asked does not matter. -/
theorem read_is_never_torn (hd : d.registry.Built) (hexact : d.registry.IsExact)
    (hapart : d.registry.NamesApart) {where_ attributes : Value} {tokens : List Token}
    (hwhere : IsServed d.registry model where_)
    (htokens : AsksRequest d.registry (fun model where_ => IsServed d.registry model (.map where_)) model
      none tokens)
    {s : Stores} (htame : AreTame d s.server.sets) (hdb : s.database.HoldsWords d.registry)
    (hanswers : p.Answers) (given given' given'' : Option CorrelationRef) :
    ∃ plans plans' found t sent,
      (resolve d.registry cacheForm model tokens).run.2 = .ok plans ∧
      (resolve d.registry (tableForm d.registry) model tokens).run.2 = .ok plans' ∧
      runFrom (findAmid p.arm d given model where_ plans) s = (.ok found, t) ∧
      t.server.received = s.server.received ++ sent ∧
      (¬ p.Spares s.server.received sent → found = none) ∧
      (found = none ∨ found = some [] →
        (runFrom (readAmid p.arm d given' model where_ attributes tokens) s).1 =
          (runFrom (Primary.query d given'' model (.filter where_) .null plans') s).1 >>=
            shownAnswer d.registry.modelNames attributes) ∧
      ∀ first rest, found = some (first :: rest) → ∀ primary, ∃ t',
        runFrom (readBy (fun ref plans => findAmid p.arm d (some ref) model where_ plans) primary d given'
          model attributes tokens) s =
          ((shown d.registry.modelNames attributes (first :: rest)).map some, t') ∧
        t'.content = t.content := by
  have hr := hd.isSound
  obtain ⟨plans, plans', hplans, hshaped, hplans'⟩ := IsServed.exists_plans hr hexact htokens
  obtain ⟨found, c', hfind, ⟨sent, hsent, hspares⟩, -⟩ := findAmid_settles hr hexact hanswers s.content
    (hwhere.answers hr hexact) hshaped htame
  obtain ⟨t, hrun, ht⟩ := hfind given s rfl
  obtain ⟨m, _, hm, _⟩ := hwhere.clause
  have hmodel := Registry.hasModel_of_table hm
  refine ⟨plans, plans', found, t, sent, hplans, hplans', hrun, ?_, fun hfails => ?_, fun hnone => ?_, ?_⟩
  · have hreceived : t.content.server.received = s.server.received ++ sent := ht ▸ hsent.received
    exact hreceived
  · cases found with
    | none => rfl
    | some records => exact absurd (hspares rfl) hfails
  · have hdatabase : c'.database = s.database := congrArg Prod.fst hsent.primary
    have hread : (readAmid p.arm d given' model where_ attributes tokens).Leads (· = s.content) _ _ :=
      readBy_miss_leads hmodel given' hplans hnone (fun ref => hfind (some ref)) fun ref =>
        readPrimaryAmid_leads hr hexact hapart hm hplans' (hdatabase ▸ hdb) hanswers ref
    obtain ⟨t₁, hrun₁, _⟩ := hread s rfl
    obtain ⟨t₂, hrun₂, _⟩ := query_gives hm given'' (.filter where_) plans' s.content s rfl
    rw [hrun₁, hrun₂, hdatabase]
    rfl
  · rintro first rest rfl primary
    have hread : (readBy (fun ref plans => findAmid p.arm d (some ref) model where_ plans) primary d
        given' model attributes tokens).Leads (· = s.content) _ _ :=
      readBy_hit_leads hmodel given' hplans fun ref => hfind (some ref)
    obtain ⟨t', hrun', ht'⟩ := hread s rfl
    exact ⟨t', hrun', ht'.trans ht.symm⟩

/-! ## A circle, searched while commands fail -/

/-- The pattern by which all readings of sets fail but the first. -/
def laterReadsFail : Disruption := fun before command =>
  if command = .members ∧ .members ∈ before then some .refused else none

theorem answers_laterReadsFail : laterReadsFail.Answers := by
  intro before command
  rw [laterReadsFail]
  split_ifs <;> exact nofun

theorem isExact_nodes : nodes.registry.IsExact :=
  fun _ _ hm => isExact_node (Registry.model?_of_table hm)

theorem isServed_null : IsServed nodes.registry "node" .null :=
  ⟨⟨_, rfl⟩, ⟨node, _, rfl, rfl⟩, nofun⟩

theorem asks_laterChildren : AsksRequest nodes.registry
    (fun model where_ => IsServed nodes.registry model (.map where_)) "node" none laterChildren := by
  rw [laterChildren, AsksRequest, AsksRequest, AsksRequest]
  refine ⟨fun model hmodel => ?_, trivial⟩
  obtain rfl : "node" = model := Option.some.inj hmodel
  refine ⟨⟨_, by cbv⟩, ⟨node, _, rfl, by cbv⟩, fun c hc v hv => ?_⟩
  have hmentions : mentions (.map [("id", .map [("$gt", .int 1)])]) = [⟨"id", .gt, .int 1⟩] := by cbv
  rw [hmentions] at hc
  obtain rfl := List.mem_singleton.mp hc
  obtain rfl := List.mem_singleton.mp hv
  trivial

theorem circle_read_is_never_torn :
    IsServed nodes.registry "node" .null ∧ AreTame nodes mirroredCircle.server.sets ∧
    mirroredCircle.database.HoldsWords nodes.registry ∧ laterReadsFail.Answers ∧
    ∃ plans plans' found t sent,
      (resolve nodes.registry cacheForm "node" laterChildren).run.2 = .ok plans ∧
      (resolve nodes.registry (tableForm nodes.registry) "node" laterChildren).run.2 = .ok plans' ∧
      runFrom (findAmid laterReadsFail.arm nodes none "node" .null plans) mirroredCircle =
        (.ok found, t) ∧
      t.server.received = mirroredCircle.server.received ++ sent ∧
      (¬ laterReadsFail.Spares mirroredCircle.server.received sent → found = none) ∧
      (found = none ∨ found = some [] →
        (runFrom (readAmid laterReadsFail.arm nodes none "node" .null (.text "id") laterChildren)
          mirroredCircle).1 =
          (runFrom (Primary.query nodes none "node" (.filter .null) .null plans') mirroredCircle).1 >>=
            shownAnswer nodes.registry.modelNames (.text "id")) ∧
      ∀ first rest, found = some (first :: rest) → ∀ primary, ∃ t',
        runFrom (readBy (fun ref plans =>
          findAmid laterReadsFail.arm nodes (some ref) "node" .null plans) primary nodes none "node"
          (.text "id") laterChildren) mirroredCircle =
          ((shown nodes.registry.modelNames (.text "id") (first :: rest)).map some, t') ∧
        t'.content = t.content :=
  have htame := coherent_mirroredCircle.areTame isMirrored_nodes isTyped_circle
  have hwords := isTyped_circle.holdsWords isExact_nodes
  ⟨isServed_null, htame, hwords, answers_laterReadsFail, read_is_never_torn built_nodes isExact_nodes
    namesApart_nodes isServed_null asks_laterChildren htame hwords answers_laterReadsFail none none none⟩

/-! ## An attribute that is named like its model -/

/-- A model whose records own each other, with an attribute that has the name of the model. -/
def namesake : Model :=
  { name := "node"
    attributes := [⟨"id", .int, true, true, false⟩, { name := "parent", type := .int },
      { name := "node", type := .int }]
    relations := [("node", ⟨"hasMany", "id", "parent", true⟩)] }

/-- The registry of that model alone. -/
def namesakes : Deployment := ⟨(Registry.register {} [namesake]).1, "", true, none⟩

/-- The stores with a record that is its own child, of which the cache cannot be read. -/
def selfParent : Stores :=
  { database := ⟨[("node", ⟨namesake, [[("id", .int 1), ("parent", .int 1), ("node", .null)]]⟩)]⟩
    server := { outages := [("smembers", .refused)] } }

/-- A request for the children, once with their own children and once without. -/
def deepAndShallow : List Token := [.name "node", .items [.name "node"], .name "node"]

/-- The second inclusion leaves the attribute of the children where the first one looks for a list, so
the answer that the query gives cannot be written into the cache, and the read fails. -/
theorem namesake_read_fails :
    ∃ plans plans', (resolve namesakes.registry cacheForm "node" deepAndShallow).run.2 = .ok plans ∧
      (resolve namesakes.registry (tableForm namesakes.registry) "node" deepAndShallow).run.2 =
        .ok plans' ∧
      (runFrom (find namesakes none "node" .null plans) selfParent).1 = .ok none ∧
      (runFrom (Primary.query namesakes none "node" (.filter .null) .null plans') selfParent).1 =
        .ok (some [[("id", .int 1), ("parent", .int 1), ("node", .list [.map [("id", .int 1),
          ("parent", .int 1), ("node", .null)]])]]) ∧
      (runFrom (read namesakes none "node" .null (.text "all") deepAndShallow) selfParent).1 =
        .error (.wrongKind "'NoneType' object is not iterable") := by
  refine ⟨_, _, by cbv, by cbv, ?_, ?_, ?_⟩
  · rw [find, runFrom_inScope]
    cbv
  · rw [query, onTable, runFrom_inScope]
    cbv
  · rw [read, runFrom_inScope]
    cbv

end Twin

end TwinStore
