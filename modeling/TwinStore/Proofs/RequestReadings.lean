import TwinStore.Proofs.Registrations
import TwinStore.Proofs.Resolutions

/-!
# A request as two stores read it

A request is read once for each store, and only the form of the filters differs.  So whatever tokens and
built nodes a request mixes, and whatever its filters are taken as, both readings bind the same nodes in
the same way.  Nothing fails where filters are kept as they are, so the reading for the cache always has
a result; the reading for a store is followed token by token beside it.

Main definitions:

- `advance`: what the next tokens apply to behind a token.
- `AsksRequest`: requests with filters of some kind.
- `Mirrors`, `AllMirror`: plans for a store that are plans for the cache but for the form of filters.
- `IsBound`: plans of which every node is bound.

Main results:

- Theorem `resolveFrom_cons`: a request is read token by token.
- Theorem `resolveFrom_mirrors`: what is read for a store mirrors what is read for the cache.
- Theorem `isBound_resolve`: the plans of a request are bound.
-/

namespace TwinStore.Include

open Filter Resolving

/-! ## Token by token -/

section

variable {φ : Type}

/-- What the next tokens apply to behind a built node. -/
def Focus.behind : Option (Plan φ) → Focus φ
  | some plan => .on plan
  | none => .skipping

/-- The node that a token finishes, when it starts a node of its own. -/
def Focus.finishedBy (focus : Focus φ) : Token → List (Plan φ)
  | .plan _ | .name _ => focus.finished
  | .items _ | .filter _ | .other _ => []

/-- The model that the next tokens apply to, if they apply to a node. -/
def Focus.model? : Focus φ → Option String
  | .on plan => some plan.model
  | .start | .skipping => none

variable (r : Registry) (form : FilterForm φ)

/-- What the next tokens apply to behind a token. -/
def advance (parent : String) (position : Nat) (focus : Focus φ) : Token → Resolving (Focus φ)
  | .plan builder => Focus.behind <$> bind r form parent builder
  | .name target =>
    match r.relation? parent target with
    | some relation => return .on (.ofRelation relation)
    | none => do
      Resolving.report parent (noRelation parent target)
      return .skipping
  | .items tokens =>
    match focus with
    | .skipping => return .skipping
    | .start => do
      Resolving.report parent (misplaced position)
      return .start
    | .on plan =>
      match Token.projection? tokens with
      | some fields => Focus.on <$> project plan fields
      | none => do
        let below ← resolveFrom r form plan.model 0 .start tokens
        return .on (plan.addChildren below)
  | .filter where_ =>
    match focus with
    | .skipping => return .skipping
    | .start => do
      Resolving.report parent (misplaced position)
      return .start
    | .on plan => do return .on (plan.withWhere (← form.shape plan.model where_))
  | .other kind => do
    Resolving.report parent s!"Include token {position} ignored: unexpected {kind}"
    return focus

/-- A request is read token by token. -/
theorem resolveFrom_cons (parent : String) (position : Nat) (focus : Focus φ) (token : Token)
    (rest : List Token) :
    resolveFrom r form parent position focus (token :: rest) = do
      let next ← advance r form parent position focus token
      return focus.finishedBy token ++ (← resolveFrom r form parent (position + 1) next rest) := by
  cases token with
  | plan builder =>
    rw [resolveFrom, advance, map_eq_pure_bind, bind_assoc]
    refine congrArg (bind r form parent builder >>= ·) (funext fun bound => ?_)
    cases bound <;> simp only [pure_bind, Focus.behind, Focus.finishedBy]
  | name target =>
    rw [resolveFrom, advance]
    cases r.relation? parent target <;> simp only [bind_assoc, pure_bind, Focus.finishedBy]
  | items tokens =>
    cases focus with
    | start | skipping =>
      rw [resolveFrom, advance]
      simp only [bind_assoc, pure_bind, Focus.finishedBy, List.nil_append, bind_pure]
    | on plan =>
      rw [resolveFrom, advance]
      cases Token.projection? tokens <;>
        simp only [bind_assoc, pure_bind, Focus.finishedBy, List.nil_append, bind_pure]
  | filter where_ =>
    cases focus <;> rw [resolveFrom, advance] <;>
      simp only [bind_assoc, pure_bind, Focus.finishedBy, List.nil_append, bind_pure]
  | other kind =>
    rw [resolveFrom, advance]
    simp only [bind_assoc, pure_bind, Focus.finishedBy, List.nil_append, bind_pure]

end

theorem model_withAttributes {φ : Type} (plan : Plan φ) (names : List String) :
    (plan.withAttributes names).model = plan.model := by
  cases plan
  rfl

theorem model_withWhere {φ : Type} (plan : Plan φ) (where_ : φ) :
    (plan.withWhere where_).model = plan.model := by
  cases plan
  rfl

theorem model_addChildren {φ : Type} (plan : Plan φ) (below : List (Plan φ)) :
    (plan.addChildren below).model = plan.model := by
  cases plan
  rfl

theorem model?_behind {φ : Type} (plan : Option (Plan φ)) :
    (Focus.behind plan).model? = plan.map Plan.model := by
  cases plan <;> rfl

/-- A node is returned with the names among its fields. -/
theorem project_yields {φ : Type} (plan : Plan φ) (fields : List Token) :
    Yields (project plan fields) (plan.withAttributes (Token.names fields)) := by
  unfold project
  simp only
  split_ifs
  · exact (Yields.notify _).bind (Yields.pure _)
  · exact Yields.pure _

/-! ## Requests with filters of some kind -/

/-- The model that the next tokens apply to after a name, if the parent has a relation of the
name. -/
def aim (r : Registry) (parent target : String) : Option String :=
  (r.relation? parent target).map fun _ => target

section

variable (r : Registry) (P : String → Entries Value → Prop)

mutual

/-- Whether a built node and those below it, as far as they are bound, have filters of some kind. -/
def AsksPlan (parent : String) : Builder → Prop
  | .node model _ _ where_ _ children =>
    (r.relation? parent model).isSome = true →
      (∀ w, where_ = some w → P model w) ∧ AskPlans model children

/-- Whether built nodes have filters of some kind. -/
def AskPlans (parent : String) : List Builder → Prop
  | [] => True
  | plan :: rest => AsksPlan parent plan ∧ AskPlans parent rest

end

/-- Whether a written request has filters of some kind, each for the model that it applies to. -/
def AsksRequest (parent : String) (on : Option String) : List Token → Prop
  | [] => True
  | .plan builder :: rest =>
    AsksPlan r P parent builder ∧ AsksRequest parent (aim r parent builder.model) rest
  | .name target :: rest => AsksRequest parent (aim r parent target) rest
  | .items tokens :: rest =>
    (∀ model, on = some model → (Token.projection? tokens).isNone = true →
      AsksRequest model none tokens) ∧ AsksRequest parent on rest
  | .filter where_ :: rest => (∀ model, on = some model → P model where_) ∧ AsksRequest parent on rest
  | .other _ :: rest => AsksRequest parent on rest

end

variable {r : Registry} {φ : Type} {form : FilterForm φ} {P : String → Entries Value → Prop}
  {S : String → Entries Value → φ → Prop} {E : Fault → Prop} {parent : String}

mutual

/-- Filters of a kind that all are of are in every built node. -/
theorem asksPlan_of_forall (h : ∀ model w, P model w) : ∀ (parent : String) (builder : Builder),
    AsksPlan r P parent builder
  | _, .node model _ _ _ _ children =>
    fun _ => ⟨fun w _ => h model w, askPlans_of_forall h model children⟩

theorem askPlans_of_forall (h : ∀ model w, P model w) : ∀ (parent : String) (builders : List Builder),
    AskPlans r P parent builders
  | _, [] => trivial
  | parent, builder :: rest => ⟨asksPlan_of_forall h parent builder, askPlans_of_forall h parent rest⟩

end

/-- Filters of a kind that all are of are in every request. -/
theorem asksRequest_of_forall (h : ∀ model w, P model w) : ∀ (parent : String) (on : Option String)
    (tokens : List Token), AsksRequest r P parent on tokens
  | _, _, [] => by rw [AsksRequest]; trivial
  | parent, on, .plan builder :: rest => by
    rw [AsksRequest]
    exact ⟨asksPlan_of_forall h parent builder, asksRequest_of_forall h parent _ rest⟩
  | parent, on, .name target :: rest => by
    rw [AsksRequest]
    exact asksRequest_of_forall h parent _ rest
  | parent, on, .items tokens :: rest => by
    rw [AsksRequest]
    exact ⟨fun model _ _ => asksRequest_of_forall h model none tokens,
      asksRequest_of_forall h parent on rest⟩
  | parent, on, .filter where_ :: rest => by
    rw [AsksRequest]
    exact ⟨fun model _ => h model where_, asksRequest_of_forall h parent on rest⟩
  | parent, on, .other _ :: rest => by
    rw [AsksRequest]
    exact asksRequest_of_forall h parent on rest

/-! ## Plans that mirror plans for the cache -/

/-- Whether a filter as the cache has it, and one in the form of a store, are both missing or are
related. -/
inductive SameWhere (S : Entries Value → φ → Prop) : Option (Entries Value) → Option φ → Prop
  | none : SameWhere S none none
  | some {where_ : Entries Value} {shaped : φ} (h : S where_ shaped) :
    SameWhere S (some where_) (some shaped)

mutual

/-- Whether a plan for a store is bound as a plan for the cache is, to the relation of the registry, with
the same fields and the same requirement, with filters that are related for their models, and with such
plans below. -/
inductive Mirrors (r : Registry) (S : String → Entries Value → φ → Prop) :
    String → Builder → Plan φ → Prop
  | node {parent model : String} {required : Bool} {attributes : Option (List String)}
      {where_ : Option (Entries Value)} {shaped : Option φ} {relation : Relation}
      {children : List Builder} {children' : List (Plan φ)}
      (hrelation : r.relation? parent model = some relation)
      (hwhere : SameWhere (S model) where_ shaped)
      (hchildren : AllMirror r S model children children') :
      Mirrors r S parent (.node model (some required) attributes where_ (some relation) children)
        (.node model (some required) attributes shaped (some relation) children')

/-- Whether plans for a store mirror plans for the cache one by one. -/
inductive AllMirror (r : Registry) (S : String → Entries Value → φ → Prop) :
    String → List Builder → List (Plan φ) → Prop
  | nil {parent : String} : AllMirror r S parent [] []
  | cons {parent : String} {plan : Builder} {plan' : Plan φ} {rest : List Builder}
      {rest' : List (Plan φ)} (h : Mirrors r S parent plan plan')
      (hrest : AllMirror r S parent rest rest') :
      AllMirror r S parent (plan :: rest) (plan' :: rest')

end

theorem AllMirror.append {ps qs : List Builder} {ps' qs' : List (Plan φ)}
    (h : AllMirror r S parent ps ps') (h' : AllMirror r S parent qs qs') :
    AllMirror r S parent (ps ++ qs) (ps' ++ qs') := by
  induction ps generalizing ps' with
  | nil =>
    cases h
    exact h'
  | cons p ps ih =>
    cases h with
    | cons hp hps => exact .cons hp (ih hps)

/-- A relation leads to a registered model. -/
theorem hasModel_of_relation (hr : r.IsSound) {target : String} {relation : Relation}
    (h : r.relation? parent target = some relation) : r.hasModel target = true := by
  obtain ⟨_, _, other, _, hother, _⟩ := hr.isRelated (Entries.mem_of_get? h)
  exact Registry.hasModel_of_table (hr.table_eq hother)

namespace Mirrors

variable {p : Builder} {q : Plan φ}

theorem model_eq (h : Mirrors r S parent p q) : q.model = p.model := by
  cases h
  rfl

theorem hasModel (hr : r.IsSound) (h : Mirrors r S parent p q) : r.hasModel p.model = true := by
  cases h with
  | node hrelation => exact hasModel_of_relation hr hrelation

theorem withAttributes (h : Mirrors r S parent p q) (names : List String) :
    Mirrors r S parent (p.withAttributes names) (q.withAttributes names) := by
  cases h with
  | node hrelation hwhere hchildren => exact .node hrelation hwhere hchildren

theorem withWhere (h : Mirrors r S parent p q) {where_ : Entries Value} {shaped : φ}
    (hwhere : S p.model where_ shaped) :
    Mirrors r S parent (p.withWhere where_) (q.withWhere shaped) := by
  cases h with
  | node hrelation _ hchildren => exact .node hrelation (.some hwhere) hchildren

theorem addChildren (h : Mirrors r S parent p q) {below : List Builder} {below' : List (Plan φ)}
    (hbelow : AllMirror r S p.model below below') :
    Mirrors r S parent (p.addChildren below) (q.addChildren below') := by
  cases h with
  | node hrelation hwhere hchildren => exact .node hrelation hwhere (hchildren.append hbelow)

end Mirrors

/-! ## Built nodes -/

/-- Whether filters of some kind get a form of a store that is related to them as the cache has them, or
fail in one of some ways. -/
def FilterForm.Relates (form : FilterForm φ) (r : Registry) (P : String → Entries Value → Prop)
    (S : String → Entries Value → φ → Prop) (E : Fault → Prop) : Prop :=
  ∀ model where_, r.hasModel model = true → P model where_ →
    (form.shape model where_).Ends (Either (S model (Entries.erase where_ transformKey)) E)

/-- What both readings of a built node come to. -/
inductive BothMirror (r : Registry) (S : String → Entries Value → φ → Prop) (parent : String) :
    Option Builder → Option (Plan φ) → Prop
  | skipped : BothMirror r S parent none none
  | bound {p : Builder} {q : Plan φ} (h : Mirrors r S parent p q) :
    BothMirror r S parent (some p) (some q)

theorem BothMirror.toList {plan : Option Builder} {plan' : Option (Plan φ)}
    (h : BothMirror r S parent plan plan') : AllMirror r S parent plan.toList plan'.toList := by
  cases h with
  | skipped => exact .nil
  | bound h => exact .cons h .nil

mutual

/-- A built node is bound for the cache if it has a relation, and what it is bound to for a store mirrors
that. -/
theorem bind_mirrors (hr : r.IsSound) (hform : form.Relates r P S E) :
    ∀ (parent : String) (builder : Builder), AsksPlan r P parent builder →
    ∃ plan, Yields (bind r cacheForm parent builder) plan ∧
      plan.map Plan.model = aim r parent builder.model ∧
      (bind r form parent builder).Ends (Either (BothMirror r S parent plan) E)
  | parent, .node model required attributes where_ _ children, h => by
    simp only [bind, aim, Plan.model]
    cases hrelation : r.relation? parent model with
    | none =>
      exact ⟨none, (Yields.notify _).bind (Yields.pure none), rfl, Ends.notify_bind (Ends.pure .skipped)⟩
    | some relation =>
      obtain ⟨hfilter, hbelow⟩ := h (by rw [hrelation]; rfl)
      obtain ⟨below, hbelow, hbelow'⟩ := bindAll_mirrors hr hform model children hbelow
      cases where_ with
      | none =>
        refine ⟨_, hbelow.bind ((Yields.pure none).bind (Yields.pure _)), rfl,
          hbelow'.bind_either fun below' hall => ?_⟩
        exact Ends.pure (.bound (.node hrelation .none hall))
      | some where_ =>
        have hshaped := hform model where_ (hasModel_of_relation hr hrelation) (hfilter where_ rfl)
        have hwhere : Ends ((form.shape model where_).map some)
            (Either (SameWhere (S model) (some (Entries.erase where_ transformKey))) E) :=
          hshaped.bind_either fun shaped h => Ends.pure (SameWhere.some h)
        refine ⟨_, hbelow.bind (((Yields.pure _).map some).bind (Yields.pure _)), rfl,
          hbelow'.bind_either fun below' hall => hwhere.bind_either fun shaped h => ?_⟩
        exact Ends.pure (.bound (.node hrelation h hall))

/-- Built nodes are bound for the cache, and what they are bound to for a store mirrors that. -/
theorem bindAll_mirrors (hr : r.IsSound) (hform : form.Relates r P S E) :
    ∀ (parent : String) (builders : List Builder), AskPlans r P parent builders →
    ∃ plans, Yields (bindAll r cacheForm parent builders) plans ∧
      (bindAll r form parent builders).Ends (Either (AllMirror r S parent plans) E)
  | _, [], _ => ⟨[], Yields.pure [], Ends.pure .nil⟩
  | parent, builder :: rest, h => by
    obtain ⟨plan, hplan, _, hplan'⟩ := bind_mirrors hr hform parent builder h.1
    obtain ⟨plans, hplans, hplans'⟩ := bindAll_mirrors hr hform parent rest h.2
    exact ⟨_, hplan.bind (hplans.bind (Yields.pure _)),
      hplan'.bind_either fun _ hboth => hplans'.bind_either fun _ hall =>
        Ends.pure (hboth.toList.append hall)⟩

end

/-! ## Written requests -/

/-- What both readings apply the next tokens to. -/
inductive FocusMirrors (r : Registry) (S : String → Entries Value → φ → Prop) (parent : String) :
    Focus (Entries Value) → Focus φ → Prop
  | start : FocusMirrors r S parent .start .start
  | skipping : FocusMirrors r S parent .skipping .skipping
  | on {p : Builder} {q : Plan φ} (h : Mirrors r S parent p q) :
    FocusMirrors r S parent (.on p) (.on q)

namespace FocusMirrors

variable {focus : Focus (Entries Value)} {focus' : Focus φ}

theorem finished (h : FocusMirrors r S parent focus focus') :
    AllMirror r S parent focus.finished focus'.finished := by
  cases h with
  | start | skipping => exact .nil
  | on h => exact .cons h .nil

theorem finishedBy (h : FocusMirrors r S parent focus focus') (token : Token) :
    AllMirror r S parent (focus.finishedBy token) (focus'.finishedBy token) := by
  cases token with
  | plan | name => exact h.finished
  | items | filter | other => exact .nil

theorem behind {plan : Option Builder} {plan' : Option (Plan φ)} (h : BothMirror r S parent plan plan') :
    FocusMirrors r S parent (.behind plan) (.behind plan') := by
  cases h with
  | skipped => exact .skipping
  | bound h => exact .on h

end FocusMirrors

mutual

/-- Both readings go on behind a token with nodes that mirror each other. -/
theorem advance_mirrors (hr : r.IsSound) (hform : form.Relates r P S E) : ∀ (parent : String)
    (position : Nat) (focus : Focus (Entries Value)) (token : Token) (rest : List Token),
    AsksRequest r P parent focus.model? (token :: rest) →
    ∃ next, Yields (advance r cacheForm parent position focus token) next ∧
      AsksRequest r P parent next.model? rest ∧
      ∀ focus', FocusMirrors r S parent focus focus' →
        (advance r form parent position focus' token).Ends (Either (FocusMirrors r S parent next) E)
  | parent, position, focus, .plan builder, rest, h => by
    rw [AsksRequest] at h
    obtain ⟨plan, hplan, hmodel, hplan'⟩ := bind_mirrors hr hform parent builder h.1
    refine ⟨.behind plan, hplan.map _, ?_, fun focus' _ => ?_⟩
    · rw [model?_behind, hmodel]
      exact h.2
    · rw [advance, map_eq_pure_bind]
      exact hplan'.bind_either fun _ hboth => Ends.pure (.behind hboth)
  | parent, position, focus, .name target, rest, h => by
    rw [AsksRequest, aim] at h
    simp only [advance]
    cases hrelation : r.relation? parent target with
    | none =>
      rw [hrelation] at h
      exact ⟨.skipping, (Yields.notify _).bind (Yields.pure _), h,
        fun _ _ => Ends.notify_bind (Ends.pure .skipping)⟩
    | some relation =>
      rw [hrelation] at h
      obtain rfl : relation.name = target := (hr.isRelated (Entries.mem_of_get? hrelation)).1
      exact ⟨.on (.ofRelation relation), Yields.pure _, h,
        fun _ _ => Ends.pure (.on (.node hrelation .none .nil))⟩
  | parent, position, .start, .items tokens, rest, h => by
    rw [AsksRequest] at h
    refine ⟨.start, (Yields.notify _).bind (Yields.pure _), h.2, ?_⟩
    rintro _ ⟨⟩
    exact Ends.notify_bind (Ends.pure .start)
  | parent, position, .skipping, .items tokens, rest, h => by
    rw [AsksRequest] at h
    refine ⟨.skipping, Yields.pure _, h.2, ?_⟩
    rintro _ ⟨⟩
    exact Ends.pure .skipping
  | parent, position, .on p, .items tokens, rest, h => by
    rw [AsksRequest] at h
    cases hprojection : Token.projection? tokens with
    | some fields =>
      refine ⟨.on (p.withAttributes (Token.names fields)), ?_, ?_, ?_⟩
      · simp only [advance, hprojection]
        exact (project_yields p fields).map Focus.on
      · rw [Focus.model?, model_withAttributes]
        exact h.2
      · rintro _ (_ | _ | ⟨hpq⟩)
        simp only [advance, hprojection]
        exact ((project_yields _ fields).map Focus.on).ends (.on (hpq.withAttributes _))
    | none =>
      obtain ⟨below, hbelow, hbelow'⟩ := resolveFrom_mirrors hr hform p.model 0 .start tokens
        (h.1 p.model rfl (by rw [hprojection]; rfl))
      refine ⟨.on (p.addChildren below), ?_, ?_, ?_⟩
      · simp only [advance, hprojection]
        exact hbelow.bind (Yields.pure _)
      · rw [Focus.model?, model_addChildren]
        exact h.2
      · rintro _ (_ | _ | ⟨hpq⟩)
        simp only [advance, hprojection]
        rw [hpq.model_eq]
        exact (hbelow' _ .start).bind_either fun _ hall => Ends.pure (.on (hpq.addChildren hall))
  | parent, position, .start, .filter where_, rest, h => by
    rw [AsksRequest] at h
    refine ⟨.start, (Yields.notify _).bind (Yields.pure _), h.2, ?_⟩
    rintro _ ⟨⟩
    exact Ends.notify_bind (Ends.pure .start)
  | parent, position, .skipping, .filter where_, rest, h => by
    rw [AsksRequest] at h
    refine ⟨.skipping, Yields.pure _, h.2, ?_⟩
    rintro _ ⟨⟩
    exact Ends.pure .skipping
  | parent, position, .on p, .filter where_, rest, h => by
    rw [AsksRequest] at h
    refine ⟨.on (p.withWhere (Entries.erase where_ transformKey)), (Yields.pure _).bind (Yields.pure _),
      ?_, ?_⟩
    · rw [Focus.model?, model_withWhere]
      exact h.2
    · rintro _ (_ | _ | ⟨hpq⟩)
      rw [advance, hpq.model_eq]
      exact (hform p.model where_ (hpq.hasModel hr) (h.1 p.model rfl)).bind_either fun _ hwhere =>
        Ends.pure (.on (hpq.withWhere hwhere))
  | parent, position, focus, .other kind, rest, h => by
    rw [AsksRequest] at h
    exact ⟨focus, (Yields.notify _).bind (Yields.pure _), h,
      fun focus' hfocus => Ends.notify_bind (Ends.pure hfocus)⟩

/-- A request is read for the cache, and what is read for a store mirrors that, whatever the tokens before
came to. -/
theorem resolveFrom_mirrors (hr : r.IsSound) (hform : form.Relates r P S E) : ∀ (parent : String)
    (position : Nat) (focus : Focus (Entries Value)) (tokens : List Token),
    AsksRequest r P parent focus.model? tokens →
    ∃ plans, Yields (resolveFrom r cacheForm parent position focus tokens) plans ∧
      ∀ focus', FocusMirrors r S parent focus focus' →
        (resolveFrom r form parent position focus' tokens).Ends (Either (AllMirror r S parent plans) E)
  | parent, position, focus, [], _ => by
    simp only [resolveFrom]
    exact ⟨_, Yields.pure _, fun focus' hfocus => Ends.pure hfocus.finished⟩
  | parent, position, focus, token :: rest, h => by
    obtain ⟨next, hnext, hrest, hnext'⟩ := advance_mirrors hr hform parent position focus token rest h
    obtain ⟨plans, hplans, hplans'⟩ := resolveFrom_mirrors hr hform parent (position + 1) next rest hrest
    simp only [resolveFrom_cons]
    refine ⟨_, hnext.bind (hplans.bind (Yields.pure _)), fun focus' hfocus => ?_⟩
    exact (hnext' focus' hfocus).bind_either fun next' hmirrors =>
      (hplans' next' hmirrors).bind_either fun _ hall => Ends.pure ((hfocus.finishedBy token).append hall)

end

/-- A request is read for the cache to plans, and for a store to plans that mirror those. -/
theorem resolve_mirrors (hr : r.IsSound) (hform : form.Relates r P S E) {model : String}
    {tokens : List Token} (h : AsksRequest r P model none tokens) :
    ∃ plans, (resolve r cacheForm model tokens).run.2 = .ok plans ∧
      Either (AllMirror r S model plans) E (resolve r form model tokens).run.2 := by
  obtain ⟨plans, hplans, hmirror⟩ := resolveFrom_mirrors hr hform model 0 .start tokens h
  exact ⟨plans, hplans.run_eq, (hmirror .start .start).run⟩

/-! ## Bound plans -/

section

variable (r : Registry)

mutual

/-- Whether every node of a plan is bound to a relation and for a registered model. -/
def IsBound : Plan φ → Prop
  | .node model _ _ _ relation children =>
    relation.isSome = true ∧ r.hasModel model = true ∧ AreBound children

/-- Whether every node of some plans is bound. -/
def AreBound : List (Plan φ) → Prop
  | [] => True
  | plan :: rest => IsBound plan ∧ AreBound rest

end

end

mutual

/-- A plan that mirrors another is bound. -/
theorem Mirrors.isBound (hr : r.IsSound) : ∀ {parent : String} {p : Builder} {q : Plan φ},
    Mirrors r S parent p q → IsBound r q
  | _, _, _, .node hrelation _ hchildren =>
    ⟨rfl, hasModel_of_relation hr hrelation, hchildren.areBound hr⟩

theorem AllMirror.areBound (hr : r.IsSound) : ∀ {parent : String} {ps : List Builder}
    {qs : List (Plan φ)}, AllMirror r S parent ps qs → AreBound r qs
  | _, _, _, .nil => trivial
  | _, _, _, .cons h hrest => ⟨h.isBound hr, hrest.areBound hr⟩

end

/-- The plans of a request are bound. -/
theorem isBound_resolve (hr : r.IsSound) {model : String} {tokens : List Token}
    {plans : List (Plan φ)} (h : (resolve r form model tokens).run.2 = .ok plans) :
    AreBound r plans := by
  have hform : form.Relates r (fun _ _ => True) (fun _ _ _ => True) (fun _ => True) := by
    intro model where_ _ _ notices
    cases (runFrom (form.shape model where_) notices).1 <;> trivial
  obtain ⟨_, _, hmirror⟩ := resolve_mirrors hr hform
    (asksRequest_of_forall (fun _ _ => trivial) model none tokens)
  rw [h] at hmirror
  exact hmirror.areBound hr

end TwinStore.Include
