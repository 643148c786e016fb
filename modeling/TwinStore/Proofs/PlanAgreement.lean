import TwinStore.Primary.Query
import TwinStore.Proofs.FilterAgreement
import TwinStore.Proofs.RequestReadings

/-!
# One request, two plans

A request for related records is resolved once for each store.  Both resolutions bind the same
relations and read the same filters, so what they give are the same plans with the filters in the
form of each store.

Main definitions:

- `AcceptsPlan`, `AcceptsRequest`: requests whose filters are accepted for the models that they
  apply to.
- `Agrees`, `AllAgree`: plans of the two stores that ask for the same.

Main result:

- Theorem `resolve_agree`: an accepted request is resolved to plans that agree.
-/

namespace TwinStore

open Filter

namespace Filter

/-- Whether a filter is accepted for a model. -/
def AcceptedFor (r : Registry) (model : String) (where_ : Value) : Prop :=
  ∃ m f, r.table model = .ok m ∧ Requires m where_ f

end Filter

namespace Include

open Primary Resolving

variable {r : Registry} {parent : String}

/-! ## Accepted requests -/

mutual

/-- Whether the filters of a built node, and of those below it, are accepted for their models. -/
def AcceptsPlan (r : Registry) (parent : String) : Builder → Prop
  | .node model _ _ where_ _ children =>
    (r.relation? parent model).isSome = true →
      (∀ w, where_ = some w → AcceptedFor r model (.map w)) ∧ AcceptsPlans r model children

/-- Whether the filters of built nodes are accepted. -/
def AcceptsPlans (r : Registry) (parent : String) : List Builder → Prop
  | [] => True
  | plan :: rest => AcceptsPlan r parent plan ∧ AcceptsPlans r parent rest

end

/-- Whether the filters of a written request are accepted for the models that they apply to. -/
def AcceptsRequest (r : Registry) (parent : String) (on : Option String) : List Token → Prop
  | [] => True
  | .plan builder :: rest =>
    AcceptsPlan r parent builder ∧ AcceptsRequest r parent (aim r parent builder.model) rest
  | .name target :: rest => AcceptsRequest r parent (aim r parent target) rest
  | .items tokens :: rest =>
    (∀ model, on = some model → (Token.projection? tokens).isNone = true →
      AcceptsRequest r model none tokens) ∧ AcceptsRequest r parent on rest
  | .filter where_ :: rest =>
    (∀ model, on = some model → AcceptedFor r model (.map where_)) ∧
      AcceptsRequest r parent on rest
  | .other _ :: rest => AcceptsRequest r parent on rest

/-! ## Plans that agree -/

/-- Whether two forms of a filter on a model say the same; no filter is the empty filter. -/
def SameFilter (r : Registry) (model : String) (where_ : Option (Entries Value))
    (clause : Option (Clause Comparison)) : Prop :=
  ∃ m f, r.table model = .ok m ∧ Requires m ((where_.map Value.map).getD .null) f ∧
    clause.getD .always = clauseOf m f

mutual

/-- Plans of the two stores that ask for the same records related to a model. -/
inductive Agrees (r : Registry) : String → Builder → ClausePlan → Prop
  | node {parent model : String} {required : Option Bool} {attributes : Option (List String)}
      {where_ : Option (Entries Value)} {clause : Option (Clause Comparison)} {relation : Relation}
      {children : List Builder} {children' : List ClausePlan}
      (hrelation : r.relation? parent model = some relation)
      (hwhere : SameFilter r model where_ clause) (hchildren : AllAgree r model children children') :
      Agrees r parent (.node model required attributes where_ (some relation) children)
        (.node model required attributes clause (some relation) children')

/-- Lists of plans of the two stores that ask for the same. -/
inductive AllAgree (r : Registry) : String → List Builder → List ClausePlan → Prop
  | nil {parent : String} : AllAgree r parent [] []
  | cons {parent : String} {plan : Builder} {plan' : ClausePlan} {rest : List Builder}
      {rest' : List ClausePlan} (h : Agrees r parent plan plan')
      (hrest : AllAgree r parent rest rest') : AllAgree r parent (plan :: rest) (plan' :: rest')

end

/-- Every plan agrees with one of the others. -/
theorem AllAgree.exists_of_mem {ps : List Builder} {qs : List ClausePlan}
    (h : AllAgree r parent ps qs) {q : ClausePlan} (hq : q ∈ qs) : ∃ p ∈ ps, Agrees r parent p q := by
  induction ps generalizing qs with
  | nil =>
    cases h
    cases hq
  | cons p ps ih =>
    cases h with
    | cons hp hps =>
      rcases List.mem_cons.mp hq with rfl | hq
      · exact ⟨p, List.mem_cons_self, hp⟩
      · obtain ⟨p', hp', hagrees⟩ := ih hps hq
        exact ⟨p', List.mem_cons_of_mem p hp', hagrees⟩

/-- Plans that agree are for registered models. -/
theorem AllAgree.hasModel (hr : r.IsSound) {ps : List Builder} {qs : List ClausePlan}
    (h : AllAgree r parent ps qs) : ∀ q ∈ qs, r.hasModel q.model = true := by
  intro q hq
  obtain ⟨p, _, hagrees⟩ := h.exists_of_mem hq
  cases hagrees with
  | node hrelation _ _ => exact hasModel_of_relation hr hrelation

namespace Agrees

variable {p : Builder} {q : ClausePlan}

/-- Plans that agree are for one model. -/
theorem model_eq (h : Agrees r parent p q) : q.model = p.model := by
  cases h
  rfl

end Agrees

/-! ## Both readings of an accepted request -/

/-- Whether a filter in a request is accepted for the model that it applies to. -/
def AcceptsFilter (r : Registry) (model : String) (where_ : Entries Value) : Prop :=
  AcceptedFor r model (.map where_)

/-- Whether a clause says the same as a filter. -/
def SameClause (r : Registry) (model : String) (where_ : Entries Value) (clause : Clause Comparison) :
    Prop := SameFilter r model (some where_) (some clause)

mutual

theorem AcceptsPlan.asks : ∀ {parent : String} {builder : Builder}, AcceptsPlan r parent builder →
    AsksPlan r (AcceptsFilter r) parent builder
  | _, .node _ _ _ _ _ _, h => fun hsome => ⟨(h hsome).1, (h hsome).2.ask⟩

theorem AcceptsPlans.ask : ∀ {parent : String} {builders : List Builder}, AcceptsPlans r parent builders →
    AskPlans r (AcceptsFilter r) parent builders
  | _, [], _ => trivial
  | _, _ :: _, h => ⟨h.1.asks, h.2.ask⟩

end

/-- An accepted request is one with accepted filters. -/
theorem AcceptsRequest.asks : ∀ {parent : String} {on : Option String} {tokens : List Token},
    AcceptsRequest r parent on tokens →
    AsksRequest r (AcceptsFilter r) parent on tokens
  | _, _, [], _ => by rw [AsksRequest]; trivial
  | _, _, .plan _ :: _, h => by
    rw [AcceptsRequest] at h
    rw [AsksRequest]
    exact ⟨h.1.asks, h.2.asks⟩
  | _, _, .name _ :: _, h => by
    rw [AcceptsRequest] at h
    rw [AsksRequest]
    exact h.asks
  | _, _, .items _ :: _, h => by
    rw [AcceptsRequest] at h
    rw [AsksRequest]
    exact ⟨fun model hon hnone => (h.1 model hon hnone).asks, h.2.asks⟩
  | _, _, .filter _ :: _, h => by
    rw [AcceptsRequest] at h
    rw [AsksRequest]
    exact ⟨h.1, h.2.asks⟩
  | _, _, .other _ :: _, h => by
    rw [AcceptsRequest] at h
    rw [AsksRequest]
    exact h.asks

/-- The primary store takes an accepted filter as a clause that says the same. -/
theorem tableForm_relates (r : Registry) :
    (tableForm r).Relates r (AcceptsFilter r) (SameClause r) (fun _ => False) := by
  rintro model where_ _ ⟨m, f, hm, hf⟩
  obtain ⟨lines, hclause, _⟩ := hf.run_eq
  have hyields : Yields ((tableForm r).shape model where_) (clauseOf m f) := by
    simp only [tableForm, hm]
    exact Yields.ofReported (by rw [hclause])
  exact hyields.ends ⟨m, f, hm, hf.erase, rfl⟩

mutual

/-- Plans that mirror each other with filters that say the same agree. -/
theorem Mirrors.agrees (hr : r.IsSound) : ∀ {parent : String} {p : Builder} {q : ClausePlan},
    Mirrors r (SameClause r) parent p q → Agrees r parent p q
  | _, _, _, .node hrelation .none hchildren => by
    obtain ⟨_, _, other, _, hother, _⟩ := hr.isRelated (Entries.mem_of_get? hrelation)
    exact .node hrelation ⟨other, .conj [], hr.table_eq hother, requires_null other, rfl⟩
      (hchildren.agree hr)
  | _, _, _, .node hrelation (.some hwhere) hchildren => .node hrelation hwhere (hchildren.agree hr)

theorem AllMirror.agree (hr : r.IsSound) : ∀ {parent : String} {ps : List Builder}
    {qs : List ClausePlan}, AllMirror r (SameClause r) parent ps qs → AllAgree r parent ps qs
  | _, _, _, .nil => .nil
  | _, _, _, .cons h hrest => .cons (h.agrees hr) (hrest.agree hr)

end

/-- An accepted request is resolved to plans that agree. -/
theorem resolve_agree (hr : r.IsSound) {model : String} {tokens : List Token}
    (h : AcceptsRequest r model none tokens) :
    ∃ plans plans', (resolve r cacheForm model tokens).run.2 = .ok plans ∧
      (resolve r (tableForm r) model tokens).run.2 = .ok plans' ∧
      AllAgree r model plans plans' := by
  obtain ⟨plans, hplans, hmirror⟩ := resolve_mirrors hr (tableForm_relates r) h.asks
  cases hplans' : (resolve r (tableForm r) model tokens).run.2 with
  | error fault =>
    rw [hplans'] at hmirror
    exact hmirror.elim
  | ok plans' =>
    rw [hplans'] at hmirror
    exact ⟨plans, plans', hplans, rfl, hmirror.agree hr⟩

end Include

end TwinStore
