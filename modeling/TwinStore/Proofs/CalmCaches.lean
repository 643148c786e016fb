import TwinStore.Proofs.CacheChanges
import TwinStore.Proofs.CacheUpdate
import TwinStore.Proofs.StoreEndings
import TwinStore.Proofs.StoredMembers

/-!
# Caches that cannot disturb

An operation is run twice, on stores that share the primary store and differ in the cache.  The runs
end in the same way if what they take from the cache never decides how they go on.  That is so for a
cache whose members are read with naive points of time, or skipped, and whose commands fail by an
answer: its part of the operation gives something, whatever the cache holds, or fails for a reason that
the filter has already given.  The changes leave such a cache.

Main definitions:

- `Holding.primary`: the part of what stores hold that does not belong to the cache.
- `Action.Parallel`: operations that end in agreement from every common primary store, and leave one.
- `Action.Spares`: operations that leave the primary store alone and end as is said beforehand.
- `Holding.IsCalm`: the caches that cannot disturb.
- `Filter.AsksQuietly`: filters without signalling operands.
- `Cache.MakesNoSense`: filters that a search cannot read.
- `Registry.IsExact`: registries of exact types only.

Main results:

- Theorem `Parallel.bind`, `Parallel.each`: composed operations agree if their parts do.
- Theorem `Parallel.of_table`, `Parallel.of_spares`: statements agree with themselves, and so do
  operations that spare the primary store.
- Theorem `create_spares`, `delete_spares`, `update_spares`: how changes of the cache end, and whether
  they fail, is decided before the cache is asked.
-/

namespace TwinStore

open Primary

/-- The part of what stores hold that does not belong to the cache. -/
def Holding.primary (h : Holding) : Database × List (Option Bool) := (h.database, h.planned)

/-- Whether outcomes of two runs are results in a relation, or the same failure. -/
inductive Agree {α β : Type} (V : α → β → Prop) : Outcome α → Outcome β → Prop
  | ok {a : α} {b : β} (h : V a b) : Agree V (.ok a) (.ok b)
  | error (fault : Fault) : Agree V (.error fault) (.error fault)

theorem Agree.refl {α : Type} {V : α → α → Prop} {o : Outcome α} (h : ∀ a, o = .ok a → V a a) :
    Agree V o o := by
  cases o with
  | ok a => exact .ok (h a rfl)
  | error fault => exact .error fault

theorem Agree.imp {α β : Type} {V V' : α → β → Prop} {o : Outcome α} {o' : Outcome β}
    (h : Agree V o o') (hV : ∀ a b, V a b → V' a b) : Agree V' o o' := by
  cases h with
  | ok h => exact .ok (hV _ _ h)
  | error fault => exact .error fault

/-- Agreement says the same of what both results show. -/
theorem Agree.map_eq {α β γ : Type} {V : α → β → Prop} {o : Outcome α} {o' : Outcome β}
    (h : Agree V o o') {f : α → γ} {g : β → γ} (hV : ∀ a b, V a b → f a = g b) :
    o.map f = o'.map g := by
  cases h with
  | ok h => exact congrArg Except.ok (hV _ _ h)
  | error fault => rfl

namespace Action

variable {α β α' β' : Type}

/-- Whether two operations on stores that hold the same primary store, and satisfy a condition, end in
agreement and leave such stores again. -/
def Parallel (I : Holding → Prop) (V : α → β → Prop) (x : Action α) (y : Action β) : Prop :=
  ∀ s t, I s.holding → I t.holding → s.holding.primary = t.holding.primary →
    Agree V (runFrom x s).1 (runFrom y t).1 ∧
    I (runFrom x s).2.holding ∧ I (runFrom y t).2.holding ∧
    (runFrom x s).2.holding.primary = (runFrom y t).2.holding.primary

/-- Whether an operation leaves the primary store alone, keeps a condition and ends with a result or
with one failure, as is said beforehand. -/
def Spares (I : Holding → Prop) (x : Action α) (verdict : Outcome Unit) : Prop :=
  ∀ h, I h → Ends (· = h) x fun o c =>
    o.map (fun _ => ()) = verdict ∧ I c ∧ c.primary = h.primary

namespace Parallel

variable {I : Holding → Prop} {V : α → β → Prop} {W : α' → β' → Prop} {x : Action α}
  {y : Action β} {f : α → Action α'} {g : β → Action β'}

/-! ## Single operations -/

theorem pure {a : α} {b : β} (h : V a b) : Parallel I V (Pure.pure a) (Pure.pure b) :=
  fun _ _ hs ht hsame => ⟨.ok h, hs, ht, hsame⟩

theorem ofOutcome {o : Outcome α} {o' : Outcome β} (h : Agree V o o') :
    Parallel I V (Action.ofOutcome o) (Action.ofOutcome o') := by
  intro s t hs ht hsame
  rw [runFrom_ofOutcome, runFrom_ofOutcome]
  exact ⟨h, hs, ht, hsame⟩

/-- Operations that spare the primary store agree. -/
theorem of_spares {verdict : Outcome Unit} (hx : Spares I x verdict) (hy : Spares I y verdict) :
    Parallel I (fun _ _ => True) x y := by
  intro s t hs ht hsame
  obtain ⟨hox, hIx, hprimary⟩ := hx s.holding hs s rfl
  obtain ⟨hoy, hIy, hprimary'⟩ := hy t.holding ht t rfl
  refine ⟨?_, hIx, hIy, hprimary.trans (hsame.trans hprimary'.symm)⟩
  rw [← hoy] at hox
  cases hrun : (runFrom x s).1 <;> cases hrun' : (runFrom y t).1 <;> rw [hrun, hrun'] at hox
  · exact Except.error.inj hox ▸ .error _
  · cases hox
  · cases hox
  · exact .ok trivial

/-! ## Composed operations -/

theorem weaken {V' : α → β → Prop} (h : Parallel I V x y) (hV : ∀ a b, V a b → V' a b) :
    Parallel I V' x y := by
  intro s t hs ht hsame
  obtain ⟨hagree, hrest⟩ := h s t hs ht hsame
  exact ⟨hagree.imp hV, hrest⟩

theorem bind (hx : Parallel I V x y) (hf : ∀ a b, V a b → Parallel I W (f a) (g b)) :
    Parallel I W (x >>= f) (y >>= g) := by
  intro s t hs ht hsame
  have hfirst := hx s t hs ht hsame
  rw [runFrom_bind, runFrom_bind]
  generalize runFrom x s = first at hfirst ⊢
  generalize runFrom y t = second at hfirst ⊢
  obtain ⟨o, s'⟩ := first
  obtain ⟨o', t'⟩ := second
  obtain ⟨hagree, hs', ht', hsame'⟩ := hfirst
  cases hagree with
  | ok h => exact hf _ _ h s' t' hs' ht' hsame'
  | error fault => exact ⟨.error fault, hs', ht', hsame'⟩

theorem map {φ : α → α'} {ψ : β → β'} (h : Parallel I V x y)
    (hV : ∀ a b, V a b → W (φ a) (ψ b)) : Parallel I W (φ <$> x) (ψ <$> y) := by
  rw [map_eq_pure_bind, map_eq_pure_bind]
  exact bind h fun a b hab => pure (hV a b hab)

theorem modify_bind {g₁ g₂ : Stores → Stores} {f : PUnit → Action α'} {g : PUnit → Action β'}
    (h : ∀ s t, I s.holding → I t.holding → s.holding.primary = t.holding.primary →
      I (g₁ s).holding ∧ I (g₂ t).holding ∧ (g₁ s).holding.primary = (g₂ t).holding.primary)
    (hf : Parallel I W (f ⟨⟩) (g ⟨⟩)) :
    Parallel I W ((modify g₁ : Action PUnit) >>= f) ((modify g₂ : Action PUnit) >>= g) := by
  intro s t hs ht hsame
  obtain ⟨hs', ht', hsame'⟩ := h s t hs ht hsame
  exact hf (g₁ s) (g₂ t) hs' ht' hsame'

theorem get_bind {f : Stores → Action α'} {g : Stores → Action β'}
    (h : ∀ s t : Stores, s.holding.primary = t.holding.primary → Parallel I W (f s) (g t)) :
    Parallel I W (get >>= f) (get >>= g) :=
  fun s t hs ht hsame => h s t hsame s t hs ht hsame

/-- A report in one run is only written. -/
theorem report_left (ref : CorrelationRef) (severity : Severity) (component message : String)
    (context : Entries Value) {f : Unit → Action α} (hf : Parallel I V (f ()) y) :
    Parallel I V (Action.report ref severity component message context >>= f) y :=
  fun _ _ hs ht hsame => hf _ _ hs ht hsame

theorem report_right (ref : CorrelationRef) (severity : Severity) (component message : String)
    (context : Entries Value) {g : Unit → Action β} (hg : Parallel I V x (g ())) :
    Parallel I V x (Action.report ref severity component message context >>= g) :=
  fun _ _ hs ht hsame => hg _ _ hs ht hsame

theorem ite {c : Prop} [Decidable c] {x' : Action α} {y' : Action β} (h : c → Parallel I V x y)
    (h' : ¬c → Parallel I V x' y') :
    Parallel I V (if c then x else x') (if c then y else y') := by
  by_cases hc : c
  · rw [if_pos hc, if_pos hc]
    exact h hc
  · rw [if_neg hc, if_neg hc]
    exact h' hc

theorem ite_left {c : Prop} [Decidable c] {x' : Action α} (h : c → Parallel I V x y)
    (h' : ¬c → Parallel I V x' y) : Parallel I V (if c then x else x') y := by
  split_ifs with hc
  · exact h hc
  · exact h' hc

theorem ite_right {c : Prop} [Decidable c] {y' : Action β} (h : c → Parallel I V x y)
    (h' : ¬c → Parallel I V x y') : Parallel I V x (if c then y else y') := by
  split_ifs with hc
  · exact h hc
  · exact h' hc

theorem knows_bind (d : Deployment) (ref ref' : CorrelationRef) (component model : String)
    {f : Bool → Action α'} {g : Bool → Action β'}
    (hf : ∀ known, d.registry.hasModel model = known → Parallel I W (f known) (g known)) :
    Parallel I W (Action.knows d ref component model >>= f)
      (Action.knows d ref' component model >>= g) := by
  rw [Action.knows, Action.knows]
  by_cases hm : d.registry.hasModel model = true
  · rw [if_pos hm, if_pos hm]
    exact hf true hm
  · rw [if_neg hm, if_neg hm]
    exact fun _ _ hs ht hsame => hf false (Bool.eq_false_iff.mpr hm) _ _ hs ht hsame

theorem inScope {given given' : Option CorrelationRef} {body : CorrelationRef → Action α}
    {body' : CorrelationRef → Action β} (h : ∀ ref ref', Parallel I V (body ref) (body' ref')) :
    Parallel I V (Action.inScope given body) (Action.inScope given' body') := by
  intro s t hs ht hsame
  rw [runFrom_inScope, runFrom_inScope]
  exact h _ _ _ _ hs ht hsame

/-- The outcomes of attempts are results that agree. -/
theorem attempt (h : Parallel I V x y) :
    Parallel I (Agree V) (Action.attempt x) (Action.attempt y) := by
  intro s t hs ht hsame
  obtain ⟨hagree, hrest⟩ := h s t hs ht hsame
  exact ⟨.ok hagree, hrest⟩

/-- Operations side by side agree item by item. -/
theorem each {γ : Type} {f : γ → Action α} {g : γ → Action β} {cs : List γ}
    (h : ∀ c ∈ cs, Parallel I V (f c) (g c)) :
    Parallel I (List.Forall₂ V) (Action.each f cs) (Action.each g cs) := by
  induction cs with
  | nil => exact pure .nil
  | cons c cs ih =>
    have hboth : Parallel I (fun p q => V p.1 q.1 ∧ List.Forall₂ V p.2 q.2)
        (Action.both (f c) (Action.each f cs)) (Action.both (g c) (Action.each g cs)) := by
      refine bind (attempt (h c List.mem_cons_self)) fun o o' hfirst => ?_
      refine bind (attempt (ih fun c' hc' => h c' (List.mem_cons_of_mem c hc'))) fun os os' hrest => ?_
      refine bind (ofOutcome hfirst) fun a b hab => ?_
      exact bind (ofOutcome hrest) fun as bs habs => pure ⟨hab, habs⟩
    exact bind hboth fun p q hpq => pure (.cons hpq.1 hpq.2)

end Parallel

/-- What is said of all ends of an operation decides whether it spares the primary store. -/
theorem Spares.of_ends {I : Holding → Prop} {x : Action α} {verdict : Outcome Unit}
    {Q : Holding → Outcome α → Holding → Prop} (hx : ∀ h, Ends (· = h) x (Q h))
    (hQ : ∀ h o c, I h → Q h o c → o.map (fun _ => ()) = verdict ∧ I c ∧ c.primary = h.primary) :
    Spares I x verdict :=
  fun h hI => (hx h).weaken (fun _ => id) fun o c => hQ h o c hI

/-- An operation that fails at once spares the primary store. -/
theorem Spares.of_throws {I : Holding → Prop} {x : Action α} {fault : Fault}
    (hx : ∀ h, Ends (· = h) x fun o c => o = .error fault ∧ c = h) : Spares I x (.error fault) := by
  refine .of_ends hx ?_
  rintro h o c hI ⟨rfl, rfl⟩
  exact ⟨rfl, hI, rfl⟩

end Action

/-! ## Statements -/

namespace Primary

open Action

variable {α : Type} {d : Deployment} {model : String} {h h' : Holding}
  {x : Model → Outcome (Database × α)}

/-- How a statement on the table of a model is answered. -/
def tableOutcome (d : Deployment) (model : String) (x : Model → Outcome (Database × α)) :
    Outcome (Option α) :=
  if d.registry.hasModel model then
    d.registry.table model >>= fun m => answered ((x m).map (·.2))
  else .ok none

/-- What stores hold after a statement on the table of a model. -/
def tableHolding (d : Deployment) (model : String) (x : Model → Outcome (Database × α))
    (h : Holding) : Holding :=
  match d.registry.table model with
  | .ok m => h.after (x m)
  | .error _ => h

/-- A statement on the table of a model ends in one way. -/
theorem TableEnd.eq {o : Outcome (Option α)} {c : Holding} (hend : TableEnd d model h x o c) :
    o = tableOutcome d model x ∧ c = tableHolding d model x h := by
  cases hend with
  | unknown hunknown =>
    have htable : ∀ m, d.registry.table model ≠ .ok m := by
      intro m hm
      rw [Registry.hasModel_of_table hm] at hunknown
      cases hunknown
    rw [tableOutcome, hunknown, tableHolding]
    refine ⟨rfl, ?_⟩
    split
    · next m hm => exact absurd hm (htable m)
    · rfl
  | untabled hknown htable =>
    rw [tableOutcome, if_pos hknown, tableHolding, htable]
    exact ⟨rfl, rfl⟩
  | done htable hdone =>
    rw [tableOutcome, if_pos (Registry.hasModel_of_table htable), tableHolding, htable]
    simp only [Outcome.ok_bind, hdone]
    exact ⟨rfl, rfl⟩
  | refused htable hfault hanswered =>
    rw [tableOutcome, if_pos (Registry.hasModel_of_table htable), tableHolding, htable]
    simp only [Outcome.ok_bind, hfault]
    exact ⟨(if_pos hanswered).symm, rfl⟩
  | failed htable hfault hunanswered =>
    rw [tableOutcome, if_pos (Registry.hasModel_of_table htable), tableHolding, htable]
    simp only [Outcome.ok_bind, hfault]
    exact ⟨(if_neg (by rw [hunanswered]; exact Bool.false_ne_true)).symm, rfl⟩

end Primary

/-- A statement on the database agrees with itself; what is known of its results may be used. -/
theorem Action.Parallel.of_table {α : Type} {d : Deployment} {model : String} {I : Holding → Prop}
    {x y : Action (Option α)} {P : α → Prop}
    (statement : Database → Model → Outcome (Database × α))
    (hx : ∀ h, Ends (· = h) x (TableEnd d model h (statement h.database)))
    (hy : ∀ h, Ends (· = h) y (TableEnd d model h (statement h.database)))
    (hkeeps : ∀ h m db a, I h → d.registry.table model = .ok m →
      statement h.database m = .ok (db, a) → I { h with database := db } ∧ P a) :
    Parallel I (fun a b => a = b ∧ ∀ r, a = some r → P r) x y := by
  intro s t hs ht hsame
  have hdatabase : s.holding.database = t.holding.database := congrArg Prod.fst hsame
  have hplanned : s.holding.planned = t.holding.planned := congrArg Prod.snd hsame
  have hkept {h : Holding} {o : Outcome (Option α)} {c : Holding} (hI : I h)
      (hend : TableEnd d model h (statement h.database) o c) :
      I c ∧ c.planned = h.planned ∧ ∀ r, o = .ok (some r) → P r := by
    cases hend with
    | done htable hdone =>
      obtain ⟨hI', hP⟩ := hkeeps h _ _ _ hI htable hdone
      exact ⟨hI', rfl, fun r hr => Option.some.inj (Except.ok.inj hr) ▸ hP⟩
    | _ => exact ⟨hI, rfl, nofun⟩
  have hfirst := hx s.holding s rfl
  have hsecond := hy t.holding t rfl
  obtain ⟨hI, hplanned₁, hP⟩ := hkept hs hfirst
  obtain ⟨hI', hplanned₂, _⟩ := hkept ht hsecond
  obtain ⟨ho, hc⟩ := hfirst.eq
  obtain ⟨ho', hc'⟩ := hsecond.eq
  refine ⟨?_, hI, hI', ?_⟩
  · rw [ho', ← hdatabase, ← ho]
    exact .refl fun a ha => ⟨rfl, fun r hr => hP r (by rw [ha, hr])⟩
  · refine Prod.ext ?_ (hplanned₁.trans (hplanned.trans hplanned₂.symm))
    show (runFrom x s).2.holding.database = (runFrom y t).2.holding.database
    rw [hc, hc', tableHolding, tableHolding, hdatabase]
    split
    · next m _ =>
      cases statement t.holding.database m with
      | ok result => rfl
      | error fault => exact hdatabase
    · exact hdatabase

open Action Cache Filter

/-- Whether the commands of a cache fail by an answer, if at all, and the members of its sets are read
with naive points of time, or skipped. -/
structure Holding.IsCalm (d : Deployment) (h : Holding) : Prop where
  answers : ∀ command, h.outage? command ≠ some .badValue
  tame : ∀ name, d.registry.hasModel name = true → ∀ raw ∈ h.members (setKey d name),
    IsTame (d.registry.attributeTypes name) raw

/-- Whether all attributes of a registry have exact types. -/
def Registry.IsExact (r : Registry) : Prop :=
  ∀ name m, r.table name = .ok m → ∀ a ∈ m.attributes, a.type.isExact = true

/-- Whether a filter compares fields with quiet values only. -/
def Filter.AsksQuietly (where_ : Value) : Prop :=
  ∀ c ∈ mentions where_, ∀ v ∈ c.operands, v.IsQuiet

variable {d : Deployment} {h : Holding} {model : String}

/-- Exact types are no decimal types. -/
theorem Registry.IsExact.ne_decimal (hr : d.registry.IsSound) (hexact : d.registry.IsExact)
    (name : String) : ∀ e ∈ d.registry.attributeTypes name, e.2 ≠ .decimal := by
  intro e he hdecimal
  rw [Registry.attributeTypes] at he
  cases hm : d.registry.model? name with
  | none =>
    rw [hm] at he
    cases he
  | some m =>
    rw [hm] at he
    have he : e ∈ m.attributeTypes := he
    rw [(hr.isProper hm).attributeTypes_eq] at he
    obtain ⟨a, ha, rfl⟩ := List.mem_map.mp he
    have htype := hexact name m (hr.table_eq hm) a ha
    simp only at hdecimal
    rw [hdecimal] at htype
    cases htype

/-- Whether a search of the set of a model cannot read a filter, for more than a mistake in it. -/
def Cache.MakesNoSense (d : Deployment) (model : String) (where_ : Value) (fault : Fault) : Prop :=
  (Predicate.ofFilter where_ (some (d.registry.attributeTypes model))).run.2 = .error fault ∧
    ∀ e, fault ≠ .filter e

namespace Holding.IsCalm

/-! ## Changed sets -/

/-- Adding tame members leaves a cache calm. -/
theorem add (hcalm : h.IsCalm d) {members : List String}
    (hmembers : ∀ raw ∈ members, IsTame (d.registry.attributeTypes model) raw) :
    { h with sets := (({ sets := h.sets } : Server).add (setKey d model) members).sets }.IsCalm d := by
  refine ⟨hcalm.answers, fun name hname raw hraw => ?_⟩
  rcases Server.mem_members_add.mp hraw with hraw | ⟨hkey, hraw⟩
  · exact hcalm.tame name hname raw hraw
  · rw [setKey_inj.mp hkey]
    exact hmembers raw hraw

/-- Removing members leaves a cache calm. -/
theorem remove (hcalm : h.IsCalm d) (members : List String) :
    { h with sets := (({ sets := h.sets } : Server).remove (setKey d model) members).sets }.IsCalm
      d := by
  refine ⟨hcalm.answers, fun name hname raw hraw => ?_⟩
  exact hcalm.tame name hname raw (Server.mem_members_remove.mp hraw).1

/-! ## Searches -/

/-- A filter with quiet operands is a predicate that answers, or cannot be read. -/
theorem either_ofFilter {types : Entries AttributeType} (htypes : ∀ e ∈ types, e.2 ≠ .decimal)
    {where_ : Value} (hquiet : AsksQuietly where_) :
    Either (Predicate.IsSure types) (fun _ => True)
      (Predicate.ofFilter where_ (some types)).run.2 := by
  refine ofFilter_ends (fun _ => trivial) (fun _ _ => trivial) (fun c hc type htype v hv => ?_) []
  cases hform : comparable (some type) v with
  | ok w =>
    have hdecimal : type ≠ .decimal := htypes _ (Entries.mem_of_get? htype)
    exact isQuiet_of_comparable hdecimal (hquiet c hc v hv) hform
  | error fault => trivial

/-- A search of a calm cache by a filter with quiet operands fails only if the filter makes no sense. -/
theorem makesNoSense_of_searchFault (hcalm : h.IsCalm d) (hmodel : d.registry.hasModel model = true)
    (htypes : ∀ e ∈ d.registry.attributeTypes model, e.2 ≠ .decimal) {where_ : Value}
    (hquiet : AsksQuietly where_) {fault : Fault} (hfault : SearchFault d model where_ h fault) :
    MakesNoSense d model where_ fault := by
  cases hfault with
  | filter hreads hmistake => exact ⟨hreads, hmistake⟩
  | command hfails => exact absurd hfails (hcalm.answers .members)
  | member hmem hread hskipped =>
    have htame := hcalm.tame model hmodel _ hmem
    rw [IsTame, hread] at htame
    rw [show isUndecodable fault = true from htame] at hskipped
    cases hskipped
  | @test raw record predicate _ hmem hread hfilter htest =>
    have hheld := isHeld_of_decode htypes (hcalm.tame model hmodel _ hmem) hread
    have hsure := either_ofFilter htypes hquiet
    rw [hfilter] at hsure
    obtain ⟨b, hb⟩ := hsure record (areTestable_of_isHeld hheld)
    rw [htest] at hb
    cases hb

end Holding.IsCalm

namespace Cache

/-! ## Changes -/

/-- Adding stored records gives something and leaves a calm cache. -/
theorem create_spares {stored : List Record}
    (hstored : ∀ record ∈ stored, IsFromRow (d.registry.attributeTypes model) record)
    (given : Option CorrelationRef) :
    Spares (Holding.IsCalm d) (create d given model (Twin.asValue stored)) (.ok ()) := by
  refine .of_ends (fun _ => create_ends d given model (Twin.asValue stored)) fun h o c hcalm hend => ?_
  have hencodes := either_membersOf hstored d.registry.modelNames
  cases hend with
  | refused | nothing => exact ⟨rfl, hcalm, rfl⟩
  | unwritable hfault hkind =>
    rw [hfault] at hencodes
    obtain ⟨detail, rfl⟩ := hencodes
    exact absurd rfl (hkind detail)
  | ended hfails => exact absurd hfails (hcalm.answers .add)
  | added hmembers =>
    rw [hmembers] at hencodes
    exact ⟨rfl, hcalm.add hencodes, rfl⟩

/-- A removal by a filter that makes no sense fails at once. -/
theorem delete_throws (hmodel : d.registry.hasModel model = true) {where_ : Value} {fault : Fault}
    (hfilter : MakesNoSense d model where_ fault) (given : Option CorrelationRef) :
    Ends (· = h) (delete d given model where_) fun o c => o = .error fault ∧ c = h := by
  refine Ends.inScope fun ref => Ends.knows_bind _ _ _ _ fun known hknown =>
    Ends.ite (fun _ => ?_) fun hunknown => absurd (hknown.symm.trans hmodel) hunknown
  refine Ends.bind (matching_throws hfilter.1 hfilter.2) (fun found s hs => nomatch hs.1) ?_
  rintro fault' c ⟨heq, rfl⟩
  exact ⟨congrArg Except.error (Except.error.inj heq), rfl⟩

/-- Whether a removal fails is decided by its filter. -/
theorem delete_spares (hr : d.registry.IsSound) (hexact : d.registry.IsExact) (model : String)
    {where_ : Value} (hquiet : AsksQuietly where_) : ∃ verdict, ∀ given,
      Spares (Holding.IsCalm d) (delete d given model where_) verdict := by
  have htypes := hexact.ne_decimal hr model
  by_cases hfails : d.registry.hasModel model = true ∧ ∃ fault, MakesNoSense d model where_ fault
  · obtain ⟨hmodel, fault, hfilter⟩ := hfails
    exact ⟨.error fault, fun given => .of_throws fun h => delete_throws hmodel hfilter given⟩
  · refine ⟨.ok (), fun given => ?_⟩
    refine .of_ends (fun _ => delete_ends d given model where_) fun h o c hcalm hend => ?_
    cases hend with
    | refused | nothing => exact ⟨rfl, hcalm, rfl⟩
    | failed hmodel hfault =>
      exact absurd ⟨hmodel, _, hcalm.makesNoSense_of_searchFault hmodel htypes hquiet hfault⟩ hfails
    | ended hfails => exact absurd hfails (hcalm.answers .remove)
    | removed => exact ⟨rfl, hcalm.remove _, rfl⟩

/-- Replacing members by tame ones leaves a calm cache. -/
theorem calm_of_replaceEnd {old new : List String} {o : Outcome (Option ChangeCounts)} {c : Holding}
    (hcalm : h.IsCalm d) (hnew : ∀ raw ∈ new, IsTame (d.registry.attributeTypes model) raw)
    (hend : ReplaceEnd h (setKey d model) old new o c) :
    o.map (fun _ => ()) = .ok () ∧ c.IsCalm d ∧ c.primary = h.primary := by
  cases hend with
  | replaced => exact ⟨rfl, (hcalm.remove old).add hnew, rfl⟩
  | removed => exact ⟨rfl, hcalm.remove old, rfl⟩
  | added => exact ⟨rfl, hcalm.add hnew, rfl⟩
  | refused => exact ⟨rfl, hcalm, rfl⟩
  | ended hfails => exact absurd hfails (hcalm.answers .remove)
  | unadded _ hfails | torn _ hfails => exact absurd hfails (hcalm.answers .add)

/-- An update of known fields by a filter that makes no sense fails at once. -/
theorem update_throws (hmodel : d.registry.hasModel model = true) {spec where_ : Value} {fault : Fault}
    (hknows : KnowsFields d model spec) (hfilter : MakesNoSense d model where_ fault)
    (given : Option CorrelationRef) :
    Ends (· = h) (update d given model spec where_) fun o c => o = .error fault ∧ c = h := by
  obtain ⟨fields, hfields, hknown⟩ := hknows
  refine Ends.inScope fun ref => Ends.knows_bind _ _ _ _ fun known hknown' =>
    Ends.ite (fun _ => ?_) fun hunknown => absurd (hknown'.symm.trans hmodel) hunknown
  rw [hfields]
  refine Ends.ofOutcome_bind (fun fields' heq => ?_) nofun
  obtain rfl := Except.ok.inj heq
  simp only [unknownFields_eq_nil hknown, List.isEmpty_nil, if_true]
  refine Ends.bind (matching_throws hfilter.1 hfilter.2) (fun found s hs => nomatch hs.1) ?_
  rintro fault' c ⟨heq, rfl⟩
  exact ⟨congrArg Except.error (Except.error.inj heq), rfl⟩

/-- The records that a calm cache gives for a filter get tame members, if the new values are taken. -/
theorem exists_updatedMembers_of_calm (htypes : ∀ e ∈ d.registry.attributeTypes model, e.2 ≠ .decimal)
    {spec : Entries Value} (hspec : AreTaken (d.registry.attributeTypes model) spec) {where_ : Value}
    (hcalm : h.IsCalm d) (hmodel : d.registry.hasModel model = true)
    (hknows : KnowsFields d model (.map spec)) :
    ∃ members, updatedMembers d model (.map spec)
        ((matchedIn d model where_ (h.members (setKey d model))).map (·.2)) = .ok members ∧
      ∀ raw ∈ members, IsTame (d.registry.attributeTypes model) raw := by
  obtain ⟨fields, hfields, hknown⟩ := hknows
  rw [updatedFields_map] at hfields
  obtain rfl := Except.ok.inj hfields
  refine exists_updatedMembers htypes hspec (fun e he => hknown _ (Entries.mem_keys_of_mem he)) ?_
  intro record hrecord
  obtain ⟨e, he, rfl⟩ := List.mem_map.mp hrecord
  obtain ⟨hmem, hread, _⟩ := mem_matchedIn.mp he
  exact ⟨e.1, hcalm.tame model hmodel e.1 hmem, hread⟩

/-- Whether an update fails is decided by its filter, where its new values are taken. -/
theorem update_spares (hr : d.registry.IsSound) (hexact : d.registry.IsExact) (model : String)
    {spec : Entries Value} (hspec : AreTaken (d.registry.attributeTypes model) spec) {where_ : Value}
    (hquiet : AsksQuietly where_) : ∃ verdict, ∀ given,
      Spares (Holding.IsCalm d) (update d given model (.map spec) where_) verdict := by
  have htypes := hexact.ne_decimal hr model
  by_cases hfails : d.registry.hasModel model = true ∧ KnowsFields d model (.map spec) ∧
      ∃ fault, MakesNoSense d model where_ fault
  · obtain ⟨hmodel, hknows, fault, hfilter⟩ := hfails
    exact ⟨.error fault, fun given => .of_throws fun h => update_throws hmodel hknows hfilter given⟩
  · refine ⟨.ok (), fun given => ?_⟩
    refine .of_ends (fun _ => update_ends d given model (.map spec) where_) fun h o c hcalm hend => ?_
    cases hend with
    | refused | nothing => exact ⟨rfl, hcalm, rfl⟩
    | failed hmodel hcause =>
      cases hcause with
      | fields hfields => cases (updatedFields_map spec).symm.trans hfields
      | search hknows hfault =>
        exact absurd ⟨hmodel, hknows, _,
          hcalm.makesNoSense_of_searchFault hmodel htypes hquiet hfault⟩ hfails
      | members hfault hknows =>
        obtain ⟨members, hmembers, _⟩ := exists_updatedMembers_of_calm htypes hspec hcalm hmodel hknows
        cases hmembers.symm.trans hfault
    | @written found members _ _ hmodel hmatched hsome hmembers hknows hreplaces =>
      subst hmatched
      obtain ⟨members', hmembers', htame⟩ :=
        exists_updatedMembers_of_calm htypes hspec hcalm hmodel hknows
      obtain rfl := Except.ok.inj (hmembers.symm.trans hmembers')
      exact calm_of_replaceEnd hcalm htame hreplaces

end Cache

end TwinStore
