import TwinStore.Proofs.RegisteredBatches
import TwinStore.Proofs.RequestReadings

/-!
# Requests as walks in the graph of relations

A request for related records asks for nodes under nodes.  Whatever built nodes it mixes with written
ones, and whatever relations these were bound to before, what it is resolved to are walks in the graph
of relations: every node is bound to the relation of the registry from its actual parent.

Main definitions:

- `Registry.IsLinked`: relations named after their targets, which are registered.
- `Registry.IsEdge`: a relation from one model to another, which is registered.
- `spelled`: a written request as the built nodes that it spells.
- `Walks`: plans that are the nodes of a request, as far as there are relations.
- `FocusWalks`: what the next tokens apply to, beside the node that the request speaks of.

Main results:

- Theorem `Registry.Reached.isLinked`: whatever batches were registered, or failed, relations lead to
  registered models.
- Theorem `bind_walks`: a built node is bound to a step, or is left out.
- Theorem `advance_walks`: a token keeps what it applies to on a walk.
- Theorem `resolve_walks`: a request is resolved to walks.
-/

namespace TwinStore

namespace Registry

variable {r r' : Registry} {m : Model} {name target : String} {relation : Relation}

/-! ## Relations of a registry -/

/-- Whether every relation is named after its target, and the target is registered. -/
def IsLinked (r : Registry) : Prop :=
  ∀ name target relation, (target, relation) ∈ r.relationsOf name →
    relation.name = target ∧ r.hasModel target = true

/-- More models and the same relations keep relations linked. -/
theorem IsLinked.mono (hr : r.IsLinked) (hrelations : ∀ name, r'.relationsOf name = r.relationsOf name)
    (hmodels : ∀ name, r.hasModel name = true → r'.hasModel name = true) : r'.IsLinked := by
  intro name target relation h
  rw [hrelations] at h
  obtain ⟨hname, htarget⟩ := hr name target relation h
  exact ⟨hname, hmodels target htarget⟩

/-- A model without a table is added to the others. -/
theorem hasModel_untabled (h : r.hasModel name = true) : (r.untabled m).hasModel name = true := by
  obtain ⟨other, hother⟩ := Option.isSome_iff_exists.mp h
  have hfound : (r.untabled m).model? name = some other := by
    rw [model?_untabled, model?, hother, Option.some_or]
  exact congrArg Option.isSome hfound

/-- Giving a model its relations keeps relations linked. -/
theorem IsLinked.addRelations (hr : r.IsLinked) (m : Model) : (r.addRelations m).IsLinked := by
  intro name target relation h
  by_cases hname : name = m.name
  · subst hname
    rw [relationsOf, Registry.addRelations, Entries.get?_set_self, Option.getD_some] at h
    obtain ⟨htarget, other, hother, _⟩ := mem_acceptedRelations h
    exact ⟨htarget, congrArg Option.isSome hother⟩
  · rw [relationsOf, Registry.addRelations, Entries.get?_set_of_ne _ _ hname] at h
    exact hr name target relation h

/-- Further models keep relations linked. -/
theorem IsLinked.grown (hr : r.IsLinked) (models : List Model) : (r.grown models).IsLinked :=
  hr.mono (fun _ => rfl) fun _ h => hasModel_grown.mpr (Or.inl h)

/-- A model without a table keeps relations linked. -/
theorem IsLinked.untabled (hr : r.IsLinked) (m : Model) : (r.untabled m).IsLinked :=
  hr.mono (fun _ => rfl) fun _ => hasModel_untabled

/-- Giving models their relations keeps relations linked. -/
theorem IsLinked.foldl_addRelations (hr : r.IsLinked) (models : List Model) :
    (models.foldl Registry.addRelations r).IsLinked := by
  induction models generalizing r with
  | nil => exact hr
  | cons m models ih => exact ih (hr.addRelations m)

/-- Registering a batch keeps relations linked, whether it fails or not. -/
theorem IsLinked.register (hr : r.IsLinked) (models : List Model) :
    (r.register models).1.IsLinked := by
  rcases hregister : r.register models with ⟨r', lines, outcome⟩
  cases outcome with
  | ok =>
    obtain ⟨-, rfl⟩ := canTake_of_register hregister
    exact (hr.grown models).foldl_addRelations models
  | error fault =>
    obtain ⟨before, refused, after, rfl, -, hrefused⟩ :=
      addModels_eq_error (addModels_of_register hregister)
    rcases addModel_eq_error hrefused with ⟨-, -, rfl⟩ | ⟨-, -, -, rfl⟩
    · exact hr.grown before
    · exact (hr.grown before).untabled refused

/-- Whatever batches were registered, and failed, relations lead to registered models. -/
theorem Reached.isLinked (hr : Reached r) : r.IsLinked := by
  induction hr with
  | empty => exact nofun
  | register _ models ih => exact ih.register models

/-- Whether a registry has a relation from one model to another, which is registered, and has a table
unless two of its attributes have one name. -/
structure IsEdge (r : Registry) (name target : String) (relation : Relation) : Prop where
  isRelated : r.relation? name target = some relation
  exists_model : ∃ m, r.model? target = some m ∧
    (Model.hasRepeatedAttribute m.attributes = false → r.table target = .ok m)

/-- Every relation that is found is an edge, named after its target. -/
theorem Reached.isEdge (hr : Reached r) (h : r.relation? name target = some relation) :
    relation.name = target ∧ r.IsEdge name target relation := by
  obtain ⟨hname, htarget⟩ := hr.isLinked name target relation (Entries.mem_of_get? h)
  obtain ⟨m, hm⟩ := Option.isSome_iff_exists.mp htarget
  exact ⟨hname, h, m, hm, hr.isTabled.table_eq hm⟩

end Registry

namespace Include

open Filter Resolving Registry

variable {φ : Type} {r : Registry} {form : FilterForm φ} {parent : String}

/-! ## What a request spells -/

/-- Whether a token starts a node of its own. -/
def Token.opensNode : Token → Bool
  | .plan _ | .name _ => true
  | .items _ | .filter _ | .other _ => false

mutual

/-- The node that a request speaks of behind a token, if it speaks of one: a name starts a node that says
nothing else; lists and filters change the node in front of them, wherever there is one. -/
def spelledBehind (on : Option Builder) : Token → Option Builder
  | .plan builder => some builder
  | .name target => some (.node target none none none none [])
  | .items tokens => on.map fun node =>
    match Token.projection? tokens with
    | some fields => node.withAttributes (Token.names fields)
    | none => node.addChildren (spelled none tokens)
  | .filter where_ => on.map (·.withWhere where_)
  | .other _ => on

/-- A written request as the built nodes that it spells, behind the node that it speaks of. -/
def spelled (on : Option Builder) : List Token → List Builder
  | [] => on.toList
  | token :: rest => (if token.opensNode then on.toList else []) ++ spelled (spelledBehind on token) rest

end

/-! ## Walks -/

/-- Whether plans are the nodes of a request under a parent, as far as they walk along relations.  A node
without a relation from its parent is left out with all below it.  Every other one is bound to the
relation of the registry, whatever it was bound to before; it is required as it says, and as the
relation is declared if it says nothing. -/
inductive Walks (r : Registry) : String → List Builder → List (Plan φ) → Prop
  | nil {parent : String} : Walks r parent [] []
  | stray {parent : String} {builder : Builder} {rest : List Builder} {plans : List (Plan φ)}
    (hrelation : r.relation? parent builder.model = none) (hrest : Walks r parent rest plans) :
    Walks r parent (builder :: rest) plans
  | step {parent model : String} {required : Option Bool} {attributes : Option (List String)}
    {where_ : Option (Entries Value)} {shaped : Option φ} {given : Option Relation} {relation : Relation}
    {children rest : List Builder} {below plans : List (Plan φ)}
    (hedge : r.IsEdge parent model relation) (hbelow : Walks r model children below)
    (hrest : Walks r parent rest plans) :
    Walks r parent (.node model required attributes where_ given children :: rest)
      (.node model (some (required.getD relation.innerJoin)) attributes shaped (some relation) below :: plans)

namespace Walks

variable {builders builders' : List Builder} {plans plans' : List (Plan φ)} {builder : Builder}
  {plan : Plan φ}

theorem append (h : Walks r parent builders plans) (h' : Walks r parent builders' plans') :
    Walks r parent (builders ++ builders') (plans ++ plans') := by
  induction h with
  | nil => exact h'
  | stray hrelation _ ih => exact .stray hrelation (ih h')
  | step hedge hbelow _ _ ih => exact .step hedge hbelow (ih h')

theorem withAttributes (h : Walks r parent [builder] [plan]) (names : List String) :
    Walks r parent [builder.withAttributes names] [plan.withAttributes names] := by
  cases h with
  | stray _ hrest => cases hrest
  | step hedge hbelow hrest => exact .step hedge hbelow hrest

theorem withWhere (h : Walks r parent [builder] [plan]) (where_ : Entries Value) (shaped : φ) :
    Walks r parent [builder.withWhere where_] [plan.withWhere shaped] := by
  cases h with
  | stray _ hrest => cases hrest
  | step hedge hbelow hrest => exact .step hedge hbelow hrest

theorem addChildren (h : Walks r parent [builder] [plan]) (hbelow : Walks r plan.model builders plans) :
    Walks r parent [builder.addChildren builders] [plan.addChildren plans] := by
  cases h with
  | stray _ hrest => cases hrest
  | step hedge hchildren hrest => exact .step hedge (hchildren.append hbelow) hrest

/-- A node that is left out has no relation. -/
theorem relation?_eq_none (h : Walks r parent [builder] ([] : List (Plan φ))) :
    r.relation? parent builder.model = none := by
  cases h with
  | stray hrelation _ => exact hrelation

end Walks

/-! ## Built nodes -/

variable {E : Fault → Prop}

/-- Whether filters can fail in some ways only. -/
def FilterForm.FailsOnly (form : FilterForm φ) (E : Fault → Prop) : Prop :=
  ∀ model where_, (form.shape model where_).Ends (Either (fun _ => True) E)

/-- Filters are kept as they are for the cache. -/
theorem cacheForm_failsOnly : cacheForm.FailsOnly fun _ => False := fun _ _ => Ends.pure trivial

/-- Nothing is said of failures. -/
theorem FilterForm.failsOnly (form : FilterForm φ) : form.FailsOnly fun _ => True := by
  intro model where_ notices
  cases (runFrom (form.shape model where_) notices).1 <;> trivial

mutual

/-- A built node is bound to a step, or is left out. -/
theorem bind_walks (hr : Reached r) (hform : form.FailsOnly E) :
    ∀ (parent : String) (builder : Builder), (bind r form parent builder).Ends
      (Either (fun bound => Walks r parent [builder] bound.toList) E)
  | parent, .node model required attributes where_ given children => by
    simp only [bind]
    cases hrelation : r.relation? parent model with
    | none => exact Ends.notify_bind (Ends.pure (.stray hrelation .nil))
    | some relation =>
      obtain ⟨-, hedge⟩ := hr.isEdge hrelation
      refine (bindAll_walks hr hform model children).bind_either fun below hbelow => ?_
      cases where_ with
      | none => exact Ends.pure (.step hedge hbelow .nil)
      | some where_ =>
        have hshaped : Ends ((form.shape model where_).map some) (Either (fun _ => True) E) :=
          (hform model where_).bind_either fun _ _ => Ends.pure trivial
        exact hshaped.bind_either fun _ _ => Ends.pure (.step hedge hbelow .nil)

/-- Built nodes are bound to walks. -/
theorem bindAll_walks (hr : Reached r) (hform : form.FailsOnly E) :
    ∀ (parent : String) (builders : List Builder),
      (bindAll r form parent builders).Ends (Either (Walks r parent builders) E)
  | _, [] => Ends.pure .nil
  | parent, builder :: rest => by
    simp only [bindAll]
    exact (bind_walks hr hform parent builder).bind_either fun _ hbound =>
      (bindAll_walks hr hform parent rest).bind_either fun _ hrest =>
        Ends.pure (hbound.append hrest)

end

/-! ## Written requests -/

/-- What the next tokens apply to, beside the node that the request speaks of. -/
inductive FocusWalks (r : Registry) (parent : String) : Option Builder → Focus φ → Prop
  | start : FocusWalks r parent none .start
  | skipping {builder : Builder} (h : r.relation? parent builder.model = none) :
    FocusWalks r parent (some builder) .skipping
  | on {builder : Builder} {plan : Plan φ} (h : Walks r parent [builder] [plan]) :
    FocusWalks r parent (some builder) (.on plan)

namespace FocusWalks

variable {on : Option Builder} {focus : Focus φ}

theorem finished (h : FocusWalks r parent on focus) : Walks r parent on.toList focus.finished := by
  cases h with
  | start => exact .nil
  | skipping h => exact .stray h .nil
  | on h => exact h

theorem finishedBy (h : FocusWalks r parent on focus) (token : Token) :
    Walks r parent (if token.opensNode then on.toList else []) (focus.finishedBy token) := by
  cases token with
  | plan | name => exact h.finished
  | items | filter | other => exact .nil

theorem behind {builder : Builder} {bound : Option (Plan φ)}
    (h : Walks r parent [builder] bound.toList) :
    FocusWalks r parent (some builder) (.behind bound) := by
  cases bound with
  | none => exact .skipping h.relation?_eq_none
  | some plan => exact .on h

end FocusWalks

mutual

/-- Behind a token, the request speaks of the node that the next tokens apply to. -/
theorem advance_walks (hr : Reached r) (hform : form.FailsOnly E) : ∀ (parent : String)
    (position : Nat) (on : Option Builder) (focus : Focus φ) (token : Token),
    FocusWalks r parent on focus → (advance r form parent position focus token).Ends
      (Either (FocusWalks r parent (spelledBehind on token)) E)
  | parent, _, _, _, .plan builder, _ => by
    rw [advance, map_eq_pure_bind, spelledBehind]
    exact (bind_walks hr hform parent builder).bind_either fun _ hbound => Ends.pure (.behind hbound)
  | parent, _, _, _, .name target, _ => by
    rw [advance, spelledBehind]
    cases hrelation : r.relation? parent target with
    | none => exact Ends.notify_bind (Ends.pure (.skipping hrelation))
    | some relation =>
      obtain ⟨rfl, hedge⟩ := hr.isEdge hrelation
      exact Ends.pure (.on (.step hedge .nil .nil))
  | _, _, _, _, .items tokens, .start => by
    rw [spelledBehind]
    exact Ends.notify_bind (Ends.pure .start)
  | _, _, _, _, .items tokens, .skipping h => by
    rw [spelledBehind]
    refine Ends.pure (.skipping ?_)
    cases Token.projection? tokens with
    | some fields => rwa [model_withAttributes]
    | none => rwa [model_addChildren]
  | _, _, _, .on plan, .items tokens, .on h => by
    rw [spelledBehind]
    simp only [advance]
    cases Token.projection? tokens with
    | some fields =>
      exact ((project_yields plan fields).map Focus.on).ends (.on (h.withAttributes _))
    | none =>
      exact (resolveFrom_walks hr hform plan.model 0 none .start tokens .start).bind_either
        fun _ hbelow => Ends.pure (.on (h.addChildren hbelow))
  | _, _, _, _, .filter where_, .start => by
    rw [spelledBehind]
    exact Ends.notify_bind (Ends.pure .start)
  | _, _, _, _, .filter where_, .skipping h => by
    rw [spelledBehind]
    refine Ends.pure (.skipping ?_)
    rwa [model_withWhere]
  | _, _, _, .on plan, .filter where_, .on h => by
    rw [spelledBehind, advance]
    exact (hform plan.model where_).bind_either fun shaped _ =>
      Ends.pure (.on (h.withWhere where_ shaped))
  | _, _, _, _, .other _, h => by
    rw [spelledBehind]
    exact Ends.notify_bind (Ends.pure h)

/-- A request is resolved to walks, whatever the tokens before came to. -/
theorem resolveFrom_walks (hr : Reached r) (hform : form.FailsOnly E) : ∀ (parent : String)
    (position : Nat) (on : Option Builder) (focus : Focus φ) (tokens : List Token),
    FocusWalks r parent on focus → (resolveFrom r form parent position focus tokens).Ends
      (Either (Walks r parent (spelled on tokens)) E)
  | _, _, _, _, [], h => by
    rw [resolveFrom, spelled]
    exact Ends.pure h.finished
  | parent, position, on, focus, token :: rest, h => by
    rw [resolveFrom_cons, spelled]
    exact (advance_walks hr hform parent position on focus token h).bind_either fun next hnext =>
      (resolveFrom_walks hr hform parent (position + 1) _ next rest hnext).bind_either
        fun _ hplans => Ends.pure ((h.finishedBy token).append hplans)

end

/-- A request is resolved to walks, or fails as a filter does. -/
theorem resolve_walks (hr : Reached r) (hform : form.FailsOnly E) (model : String)
    (tokens : List Token) : Either (Walks r model (spelled none tokens)) E
      (resolve r form model tokens).run.2 :=
  (resolveFrom_walks hr hform model 0 none .start tokens .start).run

end Include

end TwinStore
