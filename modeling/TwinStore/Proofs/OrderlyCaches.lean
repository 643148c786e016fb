import TwinStore.Proofs.CacheChanges
import TwinStore.Proofs.CacheEndings
import TwinStore.Proofs.CacheUpdate
import TwinStore.Proofs.QuietFilters
import TwinStore.Proofs.ShapedPlans
import TwinStore.Proofs.StoredMembers

/-!
# Caches that answer

An operation that does not fail gives a result, and may be composed with what follows as if there were
no failures at all.  The cache compares the fields of its members and writes them again.  If the points
of time in them have a universal time, and the decimal numbers have a document, the cache gives
something for every filter and every update with operands that can be compared and values that can be
written.

Main definitions:

- `Action.Delivers`: the operations that give a result of some kind and keep a condition on what the
  stores hold.
- `Value.IsOrdinary`: the values that are no times or numbers out of reach.
- `Holding.IsOrderly`: the caches whose members are read as ordinary values, or skipped.
- `Cache.CanRevise`: the updates with new values that can be written.

Main results:

- Theorem `Delivers.bind`, `Delivers.both`, `Delivers.each`: composed operations give something if
  their parts do.
- Theorem `find_delivers`: a search of an orderly cache gives something.
- Theorem `either_deleteEnd`, `either_updateEnd`: so do removals and updates.
-/

namespace TwinStore.Action

open Filter

variable {α β : Type} {P : Holding → Prop} {L : α → Prop} {M : β → Prop} {x : Action α}

/-- Whether an operation on stores that hold what satisfies a condition gives a result that satisfies
another one, and leaves such stores. -/
def Delivers (P : Holding → Prop) (x : Action α) (L : α → Prop) : Prop :=
  Ends P x fun o c => Either (fun a => L a ∧ P c) (fun _ => False) o

namespace Delivers

/-- What is delivered is a result. -/
theorem exists_ok (h : Delivers P x L) {s : Stores} (hs : P s.holding) :
    ∃ a, (runFrom x s).1 = .ok a ∧ L a := by
  have hend := h s hs
  cases hrun : (runFrom x s).1 with
  | ok a =>
    rw [hrun] at hend
    exact ⟨a, rfl, hend.1⟩
  | error fault =>
    rw [hrun] at hend
    exact hend.elim

theorem weaken (h : Delivers P x L) {L' : α → Prop} (hL : ∀ a, L a → L' a) : Delivers P x L' :=
  Ends.weaken h (fun _ => id) fun _ _ ho => ho.imp (fun a ha => ⟨hL a ha.1, ha.2⟩) fun _ => id

/-- An operation all of whose ends are results of some kind, and keep a condition. -/
theorem of_ends {Q : Holding → Outcome α → Holding → Prop} (hx : ∀ h, Ends (· = h) x (Q h))
    (hQ : ∀ h o c, P h → Q h o c → Either (fun a => L a ∧ P c) (fun _ => False) o) :
    Delivers P x L := by
  apply Ends.of_each
  intro h hP
  exact (hx h).weaken (fun _ => id) fun o c => hQ h o c hP

/-- What is delivered from each holding that satisfies a condition is delivered from that condition. -/
theorem of_each (h : ∀ c, P c → Delivers (· = c) x L) : Delivers P x L := by
  apply Ends.of_each
  intro c hc
  refine Ends.weaken (h c hc) (fun _ => id) fun o c' ho => ?_
  apply ho.imp _ fun _ => id
  rintro a ⟨ha, rfl⟩
  exact ⟨ha, hc⟩

/-! ## Single operations -/

theorem pure {a : α} (h : L a) : Delivers P (Pure.pure a) L := fun _ hs => ⟨h, hs⟩

theorem ofOutcome {o : Outcome α} (h : Either L (fun _ => False) o) :
    Delivers P (Action.ofOutcome o) L :=
  Ends.ofOutcome fun _ hc => h.imp (fun _ ha => ⟨ha, hc⟩) fun _ => id

/-! ## Composed operations -/

theorem bind {f : α → Action β} (hx : Delivers P x L) (hf : ∀ a, L a → Delivers P (f a) M) :
    Delivers P (x >>= f) M := by
  refine Ends.bind hx (fun a s hs => ?_) fun fault c hfault => hfault
  exact hf a hs.1 s hs.2

/-- An outcome that is known is only passed on. -/
theorem ofOutcome_bind {o : Outcome α} {a : α} (ho : o = .ok a) {f : α → Action β}
    (hf : Delivers P (f a) M) : Delivers P (Action.ofOutcome o >>= f) M := by
  subst ho
  exact fun s hs => hf s hs

theorem get_bind {f : Stores → Action β} (h : ∀ s, Delivers P (f s) M) :
    Delivers P (get >>= f) M := by
  intro s hs
  rw [runFrom_bind_of_ok (runFrom_get s)]
  exact h s s hs

theorem report_bind (ref : CorrelationRef) (severity : Severity) (component message : String)
    (context : Entries Value) {f : Unit → Action β} (hf : Delivers P (f ()) M) :
    Delivers P (Action.report ref severity component message context >>= f) M :=
  Ends.report_bind ref severity component message context hf

theorem knows_bind (d : Deployment) (ref : CorrelationRef) (component model : String)
    {f : Bool → Action β} (hf : ∀ known, d.registry.hasModel model = known → Delivers P (f known) M) :
    Delivers P (Action.knows d ref component model >>= f) M :=
  Ends.knows_bind d ref component model hf

theorem inScope {given : Option CorrelationRef} {body : CorrelationRef → Action α}
    (h : ∀ ref, Delivers P (body ref) L) : Delivers P (Action.inScope given body) L :=
  Ends.inScope h

theorem ite {c : Prop} [Decidable c] {y : Action α} (hx : c → Delivers P x L)
    (hy : ¬c → Delivers P y L) : Delivers P (if c then x else y) L := Ends.ite hx hy

/-- Operations side by side give something if both do. -/
theorem both {y : Action β} (hx : Delivers P x L) (hy : Delivers P y M) :
    Delivers P (Action.both x y) fun p => L p.1 ∧ M p.2 := by
  refine Ends.attempt_bind hx fun o => ?_
  cases o with
  | error fault => exact fun _ hs => hs.elim
  | ok a =>
    have hsecond : Ends (fun c => L a ∧ P c) y fun o c =>
        L a ∧ Either (fun b => M b ∧ P c) (fun _ => False) o := fun s hs => ⟨hs.1, hy s hs.2⟩
    refine Ends.attempt_bind hsecond fun o => ?_
    cases o with
    | error fault => exact fun _ hs => hs.2.elim
    | ok b => exact fun _ hs => ⟨⟨hs.1, hs.2.1⟩, hs.2.2⟩

/-- Operations for several things give something if each does. -/
theorem each {γ : Type} {f : γ → Action α} {cs : List γ} (h : ∀ c ∈ cs, Delivers P (f c) L) :
    Delivers P (Action.each f cs) fun as => ∀ a ∈ as, L a := by
  induction cs with
  | nil => exact pure (List.forall_mem_nil _)
  | cons c cs ih =>
    apply bind (both (h c List.mem_cons_self) (ih fun c' hc' => h c' (List.mem_cons_of_mem c hc')))
    intro p hp
    exact pure (List.forall_mem_cons.mpr hp)

end Delivers

end TwinStore.Action

namespace TwinStore

open Action Cache Filter

/-! ## Ordinary members -/

/-- Whether a value is no point of time without a universal time, and no decimal number without a
document. -/
def Value.IsOrdinary : Value → Prop
  | .instant t => ∃ u, t.toUniversal? = some u
  | .decimal d => HasDocument (.decimal d)
  | _ => True

/-- Whether a member is read as ordinary values, or skipped. -/
def Cache.IsOrdinaryMember (types : Entries AttributeType) (raw : String) : Prop :=
  Either (fun record : Record => ∀ e ∈ record, e.2.IsOrdinary) (fun fault => isUndecodable fault = true)
    (decode raw types)

namespace Cache

variable {types : Entries AttributeType} {type : AttributeType} {v w : Value} {raw : String}
  {record : Record}

/-- Decimal numbers that have documents are quiet. -/
theorem isSignaling_of_hasDocument {n : Number.Decimal} (h : HasDocument (.decimal n)) :
    n.isSignaling = false := by
  obtain ⟨j, hj⟩ := h
  cases n with
  | nan negative signaling payload =>
    cases signaling with
    | true => cases hj
    | false => rfl
  | _ => rfl

/-- An ordinary value that is read is quiet. -/
theorem isQuiet_of_restore {type : Option AttributeType} (hv : v.IsDocument)
    (h : restore type v = .ok w) (hw : w.IsOrdinary) : w.IsQuiet := by
  cases restores_of_restore h with
  | null | instant | date | uuid => trivial
  | decimal => exact isSignaling_of_hasDocument hw
  | undeclared | unparsed => exact hv.isQuiet

/-- A quiet value that is read can be compared, if it is no point of time without a universal time. -/
theorem isTestable_of_quiet (h : restore (some type) v = .ok w) (hquiet : w.IsQuiet)
    (huniversal : ∀ t, w = .instant t → ∃ u, t.toUniversal? = some u) : IsTestable type w := by
  cases restores_of_restore h with
  | null => cases type <;> trivial
  | @instant s t hread =>
    obtain ⟨u, hu⟩ := huniversal t rfl
    have hread : universal t = .ok u := by rw [universal, hu]
    have hnaive := universal_of_naive (offset_of_toUniversal? hu)
    simp only [IsTestable, comparable, coerce, coerceInstant, hread, Outcome.ok_bind]
    show Either Value.IsQuiet IsMistake (epochMicros (.instant u))
    simp only [epochMicros, hnaive]
    trivial
  | date | uuid => trivial
  | decimal => exact hquiet
  | unparsed hparsed =>
    cases type with
    | datetime | date | uuid | decimal => cases hparsed
    | _ => exact hquiet

/-- An ordinary value that is read can be compared. -/
theorem isTestable_of_restore (hv : v.IsDocument) (h : restore (some type) v = .ok w)
    (hw : w.IsOrdinary) : IsTestable type w := by
  refine isTestable_of_quiet h (isQuiet_of_restore hv h hw) ?_
  rintro t rfl
  exact hw

/-- What is read from an ordinary member can be compared, is quiet and can be written. -/
theorem IsOrdinaryMember.fields (h : IsOrdinaryMember types raw) (hread : decode raw types = .ok record) :
    AreTestable types record ∧ ∀ e ∈ record, e.2.IsQuiet ∧ HasDocument e.2 := by
  rw [IsOrdinaryMember, hread] at h
  have hrestored := exists_restored hread
  refine ⟨fun field type htype => ?_, fun e he => ?_⟩
  · rw [Record.field]
    cases hget : Entries.get? record field with
    | none =>
      show IsTestable type .null
      cases type <;> trivial
    | some v =>
      have hmem := Entries.mem_of_get? hget
      obtain ⟨u, hu, hrestore⟩ := hrestored _ hmem
      simp only [htype] at hrestore
      exact isTestable_of_restore hu hrestore (h _ hmem)
  · obtain ⟨u, hu, hrestore⟩ := hrestored e he
    have hordinary : e.2.IsOrdinary := h e he
    refine ⟨isQuiet_of_restore hu hrestore hordinary, hasDocument_of_restore hu hrestore ?_⟩
    intro n hn
    rw [hn] at hordinary ⊢
    exact hordinary

end Cache

/-! ## Searches -/

/-- Whether the commands of a cache fail by an answer, if at all. -/
def Holding.Answers (h : Holding) : Prop := ∀ command, h.outage? command ≠ some .badValue

/-- Whether the commands of a cache fail by an answer, if at all, and the members of its sets are read
as ordinary values, or skipped. -/
structure Holding.IsOrderly (d : Deployment) (h : Holding) : Prop where
  answers : h.Answers
  members : ∀ name, d.registry.hasModel name = true → ∀ raw ∈ h.members (setKey d name),
    IsOrdinaryMember (d.registry.attributeTypes name) raw

namespace Cache

variable {d : Deployment} {h : Holding} {ref : CorrelationRef} {model : String} {where_ : Value}

/-- A filter with operands that can be compared is a predicate that answers, or is mistaken. -/
theorem either_ofFilter {types : Entries AttributeType} (hwhere : Asks types where_) :
    Either (Predicate.IsSure types) IsMistake (Predicate.ofFilter where_ (some types)).run.2 := by
  refine ofFilter_ends (fun e => ⟨e, rfl⟩) (fun fault hfault => absurd hfault (hwhere.shape fault))
    (fun c hc type htype v hv => ?_) []
  exact (hwhere.operands c hc type htype v hv).compares

/-- A search of an orderly cache does not fail. -/
theorem not_searchFault (hh : h.IsOrderly d) (hmodel : d.registry.hasModel model = true)
    (hwhere : Asks (d.registry.attributeTypes model) where_) {fault : Fault} :
    ¬ SearchFault d model where_ h fault := by
  intro hfault
  have hfilter := either_ofFilter hwhere
  cases hfault with
  | filter hreads hmistake =>
    rw [hreads] at hfilter
    obtain ⟨e, rfl⟩ := hfilter
    exact hmistake e rfl
  | command hfails => exact hh.answers .members hfails
  | member hmem hread hskipped =>
    have hordinary := hh.members model hmodel _ hmem
    rw [IsOrdinaryMember, hread] at hordinary
    rw [show isUndecodable fault = true from hordinary] at hskipped
    cases hskipped
  | @test raw record predicate _ hmem hread hpredicate htest =>
    rw [hpredicate] at hfilter
    obtain ⟨htestable, _⟩ := (hh.members model hmodel _ hmem).fields hread
    obtain ⟨b, hb⟩ := hfilter record htestable
    rw [htest] at hb
    cases hb

/-- A search of an orderly cache gives quiet records, or says that the cache cannot answer. -/
theorem matching_delivers (hh : h.IsOrderly d) (hmodel : d.registry.hasModel model = true)
    (hwhere : Asks (d.registry.attributeTypes model) where_) :
    Delivers (· = h) (matching d ref model where_) fun found => ∀ members, found = some members →
      ∀ e ∈ members, Value.HoldQuiet e.2 := by
  refine (matching_ends d ref model where_).weaken (fun _ => id) ?_
  rintro o c ⟨rfl, ho⟩
  cases o with
  | error fault => exact not_searchFault hh hmodel hwhere ho
  | ok found =>
    refine ⟨fun members hmembers e he => ?_, rfl⟩
    obtain ⟨hmem, hread, _⟩ := mem_matchedIn.mp (ho members hmembers ▸ he)
    obtain ⟨_, hfields⟩ := (hh.members model hmodel _ hmem).fields hread
    exact Value.holdQuiet_iff.mpr fun e he => (hfields e he).1

/-! ## Joined records -/

/-- A field of a quiet record is quiet. -/
theorem isQuiet_field {record : Record} (hrecord : Value.HoldQuiet record) (field : String) :
    (record.field field).IsQuiet := by
  rw [Record.field]
  cases hget : Entries.get? record field with
  | none => trivial
  | some v => exact Value.holdQuiet_iff.mp hrecord _ (Entries.mem_of_get? hget)

/-- Fewer fields of a quiet record are quiet. -/
theorem holdQuiet_project {record : Record} (hrecord : Value.HoldQuiet record)
    (wanted : Option (List String)) (names : List String) :
    Value.HoldQuiet (record.project wanted names) := by
  cases wanted with
  | none => exact hrecord
  | some _ =>
    exact Value.holdQuiet_iff.mpr fun e he =>
      Value.holdQuiet_iff.mp hrecord e (List.mem_filter.mp he).1

section

variable {φ : Type} {names : List String} {record : Record} {found : List Record}

/-- Quiet records are attached to quiet records. -/
theorem either_attach (plan : Include.Plan φ) (hfound : ∀ child ∈ found, Value.HoldQuiet child)
    (hrecord : Value.HoldQuiet record) :
    Either (fun out => Value.HoldQuiet out.1) (fun _ => False) (attach names plan found record) := by
  rw [attach]
  cases plan.relation with
  | none => exact hrecord
  | some relation =>
    have hrelated : ∀ child ∈ found, isRelated relation record child =
        .ok (isRelated relation record child).get := by
      intro child hchild
      rw [isRelated]
      split_ifs
      · rfl
      · obtain ⟨b, hb⟩ := Value.exists_equal? (isQuiet_field (hfound child hchild) relation.otherKey)
          (isQuiet_field hrecord relation.thisKey)
        rw [hb]
        rfl
    have hfilter := Outcome.filterM_eq_ok hrelated
    show Either _ _ (found.filterM (isRelated relation record) >>= _)
    rw [hfilter, Outcome.ok_bind]
    refine Value.holdQuiet_iff.mpr fun e he => ?_
    rcases Entries.mem_of_mem_set he with rfl | he
    · refine Value.areQuiet_iff.mpr fun v hv => ?_
      obtain ⟨child, hchild, rfl⟩ := List.mem_map.mp hv
      exact holdQuiet_project (hfound child (List.mem_filter.mp hchild).1) _ _
    · exact Value.holdQuiet_iff.mp hrecord e he

/-- Quiet records are attached to a quiet record by plan after plan. -/
theorem either_joinRecord {plans : List (Include.Plan φ × List Record)}
    (hplans : ∀ p ∈ plans, ∀ child ∈ p.2, Value.HoldQuiet child) (hrecord : Value.HoldQuiet record) :
    Either (fun joined => ∀ out, joined = some out → Value.HoldQuiet out) (fun _ => False)
      (joinRecord names plans record) := by
  induction plans generalizing record with
  | nil =>
    rintro _ ⟨rfl⟩
    exact hrecord
  | cons p plans ih =>
    rw [joinRecord]
    apply (either_attach p.1 (hplans p List.mem_cons_self) hrecord).bind
    rintro ⟨out, isKept⟩ hout
    apply (ih (fun p' hp' => hplans p' (List.mem_cons_of_mem p hp')) hout).bind
    intro joined hjoined
    cases isKept with
    | true => exact hjoined
    | false => exact nofun

/-- Quiet records are joined with quiet records. -/
theorem either_joinRecords {plans : List (Include.Plan φ × List Record)}
    (hplans : ∀ p ∈ plans, ∀ child ∈ p.2, Value.HoldQuiet child) {records : List Record}
    (hrecords : ∀ record ∈ records, Value.HoldQuiet record) :
    Either (fun joined => ∀ record ∈ joined, Value.HoldQuiet record) (fun _ => False)
      (joinRecords names plans records) := by
  apply (Either.mapM fun record hrecord => either_joinRecord hplans (hrecords record hrecord)).bind
  intro joined hjoined record hrecord
  obtain ⟨out, hout, heq⟩ := List.mem_filterMap.mp hrecord
  exact hjoined out hout record heq

end

/-! ## Searches for related records -/

/-- If all of several searches found something, that is what they found. -/
theorem eq_map_of_mapM_id {α : Type} {found : List (Option α)} {all : List α}
    (h : found.mapM id = some all) : found = all.map some := by
  induction found generalizing all with
  | nil =>
    obtain rfl : [] = all := Option.some.inj h
    rfl
  | cons o found ih =>
    rw [List.mapM_cons] at h
    obtain ⟨a, ha, h⟩ := Option.bind_eq_some_iff.mp h
    obtain ⟨rest, hrest, heq⟩ := Option.bind_eq_some_iff.mp h
    obtain rfl : a :: rest = all := Option.some.inj heq
    rw [ih hrest, show o = some a from ha]
    rfl

/-- Whether a search found quiet records, or nothing. -/
def FindsQuiet (found : Option (List Record)) : Prop :=
  ∀ records, found = some records → ∀ record ∈ records, Value.HoldQuiet record

/-- A search gives something if the search for related records does. -/
theorem findWith_delivers {φ : Type} (hh : h.IsOrderly d)
    (hwhere : Asks (d.registry.attributeTypes model) where_) {plans : List (Include.Plan φ)}
    {related : Action (List (Option (List Record)))}
    (hrelated : Delivers (· = h) related fun found => ∀ o ∈ found, FindsQuiet o) :
    Delivers (· = h) (findWith d ref model where_ plans related) FindsQuiet := by
  have hnone : Delivers (· = h) (pure none) FindsQuiet := Delivers.pure nofun
  refine Delivers.knows_bind _ _ _ _ fun known hknown => Delivers.ite (fun hk => ?_) fun _ => hnone
  refine Delivers.bind (matching_delivers hh (hknown.trans hk) hwhere) fun found hfound => ?_
  cases found with
  | none => exact hnone
  | some members =>
    have hrecords : ∀ record ∈ members.map (·.2), Value.HoldQuiet record := by
      intro record hrecord
      obtain ⟨e, he, rfl⟩ := List.mem_map.mp hrecord
      exact hfound members rfl e he
    refine Delivers.ite (fun _ => Delivers.pure ?_) fun _ => Delivers.bind hrelated fun lists hlists => ?_
    · rintro _ ⟨rfl⟩
      exact hrecords
    · cases hall : lists.mapM id with
      | none => exact hnone
      | some found =>
        have hplans : ∀ p ∈ plans.zip found, ∀ child ∈ p.2, Value.HoldQuiet child := by
          intro p hp child hchild
          have hmem : some p.2 ∈ lists := by
            rw [eq_map_of_mapM_id hall]
            exact List.mem_map_of_mem (List.of_mem_zip hp).2
          exact hlists _ hmem p.2 rfl child hchild
        refine Delivers.bind (Delivers.ofOutcome (either_joinRecords hplans hrecords))
          fun joined hjoined => Delivers.pure ?_
        rintro _ ⟨rfl⟩
        exact hjoined

mutual

/-- The search for a plan with filters that can be asked gives something. -/
theorem findPlan_delivers (hh : h.IsOrderly d) : ∀ {parent : String} {plan : Include.Builder},
    Include.IsShaped d.registry (fun model where_ => Asks (d.registry.attributeTypes model) (.map where_))
      parent plan →
    Delivers (· = h) (findPlan d ref plan) FindsQuiet
  | _, .node model _ _ where_ _ children, ⟨_, hwhere, hchildren⟩ => by
    apply findWith_delivers hh
    · cases where_ with
      | none => exact ⟨nofun, nofun⟩
      | some w => exact hwhere w rfl
    · exact findPlans_delivers hh hchildren

/-- The searches for plans with filters that can be asked give something. -/
theorem findPlans_delivers (hh : h.IsOrderly d) : ∀ {parent : String} {plans : List Include.Builder},
    Include.AreShaped d.registry (fun model where_ => Asks (d.registry.attributeTypes model) (.map where_))
      parent plans →
    Delivers (· = h) (findPlans d ref plans) fun found => ∀ o ∈ found, FindsQuiet o
  | _, [], _ => Delivers.pure (List.forall_mem_nil _)
  | _, plan :: rest, ⟨hplan, hrest⟩ => by
    refine Delivers.bind (Delivers.both (findPlan_delivers hh hplan) (findPlans_delivers hh hrest)) ?_
    intro p hp
    exact Delivers.pure (List.forall_mem_cons.mpr hp)

end

/-- Adding records that have members, or a byte string, gives something and does nothing else. -/
theorem create_delivers {I : Primary.Database → Prop} {records : Value}
    (hmembers : Either (fun _ => True) IsWrongKind (membersOf d.registry.modelNames records))
    (given : Option CorrelationRef) :
    Delivers (fun h => h.Answers ∧ I h.database) (create d given model records) fun _ => True := by
  refine Delivers.of_ends (fun _ => create_ends d given model records) fun h o c hh hend => ?_
  cases hend with
  | refused | nothing | added => exact ⟨trivial, hh⟩
  | unwritable hfault hkind =>
    rw [hfault] at hmembers
    obtain ⟨detail, rfl⟩ := hmembers
    exact absurd rfl (hkind detail)
  | ended hfails => exact absurd hfails (hh.1 .add)

variable {types : Entries AttributeType} {record : Record} {spec : Entries Value}

end Cache

end TwinStore
