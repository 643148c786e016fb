import TwinStore.Proofs.CascadeDelete
import TwinStore.Proofs.RequestReadings

/-!
# One reading of a request for both stores

What is read for a store mirrors what is read for the cache.  The plans that the cache is given are a
request themselves, and reading them again changes nothing.

Main definitions:

- `FilterForm.Reshapes`: forms that filters as the cache has them are given again.
- `IsKept`, `IsClauseOf`: the two forms of a filter, as it is kept for the cache.

Main results:

- Theorem `resolveFrom_plans`: plans for the cache are read as the plans that mirror them.
- Theorem `resolution_is_one_reading`: reading is idempotent, and the same for both stores.
-/

namespace TwinStore.Include

open Filter Primary Resolving Twin

variable {r : Registry} {φ : Type} {form : FilterForm φ} {S : String → Entries Value → φ → Prop}
  {parent : String}

/-! ## Reading plans again -/

/-- Whether a filter as the cache has it is given the form that it is related to. -/
def FilterForm.Reshapes (form : FilterForm φ) (r : Registry) (S : String → Entries Value → φ → Prop) :
    Prop :=
  ∀ model where_ shaped, r.hasModel model = true → S model where_ shaped →
    Yields (form.shape model where_) shaped

mutual

/-- A plan for the cache is bound for a store to the plan that mirrors it. -/
theorem Mirrors.bind_yields (hr : r.IsSound) (hform : form.Reshapes r S) :
    ∀ {parent : String} {p : Builder} {q : Plan φ},
    Mirrors r S parent p q → Yields (bind r form parent p) (some q)
  | _, .node model _ _ none _ children, _, .node hrelation .none hchildren => by
    simp only [bind, hrelation]
    exact (hchildren.bindAll_yields hr hform).bind ((Yields.pure none).bind (Yields.pure _))
  | _, .node model _ _ (some where_) _ children, _, .node hrelation (.some hwhere) hchildren => by
    simp only [bind, hrelation]
    have hshaped := hform _ _ _ (hasModel_of_relation hr hrelation) hwhere
    exact (hchildren.bindAll_yields hr hform).bind ((hshaped.map some).bind (Yields.pure _))

/-- Plans for the cache are bound for a store to the plans that mirror them. -/
theorem AllMirror.bindAll_yields (hr : r.IsSound) (hform : form.Reshapes r S) :
    ∀ {parent : String} {ps : List Builder} {qs : List (Plan φ)}, AllMirror r S parent ps qs →
      Yields (bindAll r form parent ps) qs
  | _, [], _, .nil => Yields.pure _
  | _, _ :: _, _, .cons h hrest =>
    (h.bind_yields hr hform).bind ((hrest.bindAll_yields hr hform).bind (Yields.pure _))

end

/-- Plans for the cache are read for a store as the plans that mirror them. -/
theorem resolveFrom_plans (hr : r.IsSound) (hform : form.Reshapes r S) {ps : List Builder}
    {qs : List (Plan φ)} (h : AllMirror r S parent ps qs) (position : Nat) (focus : Focus φ) :
    Yields (resolveFrom r form parent position focus (ps.map .plan)) (focus.finished ++ qs) := by
  induction ps generalizing qs position focus with
  | nil =>
    cases h
    rw [List.append_nil, List.map_nil, resolveFrom]
    exact Yields.pure _
  | cons p ps ih =>
    cases h with
    | cons hp hps =>
      simp only [List.map_cons, resolveFrom]
      exact (hp.bind_yields hr hform).bind
        ((Yields.pure _).bind ((ih hps (position + 1) (.on _)).bind (Yields.pure _)))

/-! ## The two stores -/

/-- Whether a filter is kept as it is for the cache, without the key for other readers. -/
def IsKept (where_ kept : Entries Value) : Prop :=
  kept = where_ ∧ Entries.erase where_ transformKey = where_

/-- Whether a clause is that of a filter over the table of a model. -/
def IsClauseOf (r : Registry) (model : String) (where_ : Entries Value) (clause : Clause Comparison) :
    Prop :=
  ∃ m, r.table model = .ok m ∧ (toClause (.map where_) m).run.2 = .ok clause

theorem erase_erase (where_ : Entries Value) (key : String) :
    Entries.erase (Entries.erase where_ key) key = Entries.erase where_ key := by
  simp [Entries.erase, List.filter_filter]

/-- The key for other readers is not in the clause. -/
theorem toClause_erase (where_ : Entries Value) (m : Model) :
    toClause (.map (Entries.erase where_ transformKey)) m = toClause (.map where_) m := by
  have hstripped : withoutTransform (.map (Entries.erase where_ transformKey)) =
      withoutTransform (.map where_) := congrArg Except.ok (erase_erase where_ transformKey)
  unfold toClause Reading.filter
  rw [hstripped]

/-- The cache keeps filters without the key for other readers, and then as they are. -/
theorem cacheForm_relates (r : Registry) :
    cacheForm.Relates r (fun _ _ => True) (fun _ => IsKept) (fun _ => False) :=
  fun _ where_ _ _ => Ends.pure ⟨rfl, erase_erase where_ transformKey⟩

theorem cacheForm_reshapes (r : Registry) : cacheForm.Reshapes r fun _ => IsKept := by
  rintro _ where_ kept _ ⟨rfl, hkept⟩
  show Yields (Pure.pure (Entries.erase kept transformKey)) kept
  rw [hkept]
  exact Yields.pure kept

/-- The primary store takes a filter as its clause, or fails. -/
theorem tableForm_reads (hr : r.IsSound) :
    (tableForm r).Relates r (fun _ _ => True) (IsClauseOf r) (fun _ => True) := by
  intro model where_ hmodel _
  obtain ⟨m, hm⟩ := Option.isSome_iff_exists.mp hmodel
  have htable := hr.table_eq hm
  simp only [tableForm, htable]
  apply Ends.ofReported
  cases hclause : (toClause (.map where_) m).run.2 with
  | error fault => trivial
  | ok clause =>
    refine ⟨m, htable, ?_⟩
    rwa [toClause_erase]

theorem tableForm_reshapes (r : Registry) : (tableForm r).Reshapes r (IsClauseOf r) := by
  rintro model where_ clause _ ⟨m, htable, hclause⟩
  simp only [tableForm, htable]
  exact Yields.ofReported hclause

/-! ## Resolutions -/

/-- Plans that mirror themselves as the cache keeps them are read again as themselves. -/
theorem resolve_again (hr : r.IsSound) (hform : form.Reshapes r S) {model : String}
    {plans : List Builder} {plans' : List (Plan φ)} (h : AllMirror r S model plans plans') :
    (resolve r form model (plans.map .plan)).run.2 = .ok plans' :=
  (resolveFrom_plans hr hform h 0 .start).run_eq

/-- A request is read for the cache to plans that are read again as they are.  If it can be read for the
primary store, it is read to plans that mirror those, which is also what they are read to themselves. -/
theorem resolution_is_one_reading (hr : r.Built) (model : String) (tokens : List Token) :
    ∃ plans, (resolve r cacheForm model tokens).run.2 = .ok plans ∧
      (resolve r cacheForm model (plans.map .plan)).run.2 = .ok plans ∧
      ∀ plans', (resolve r (tableForm r) model tokens).run.2 = .ok plans' →
        (resolve r (tableForm r) model (plans.map .plan)).run.2 = .ok plans' ∧
          AllMirror r (IsClauseOf r) model plans plans' := by
  have hsound := hr.isSound
  have hasks : AsksRequest r (fun _ _ => True) model none tokens :=
    asksRequest_of_forall (fun _ _ => trivial) model none tokens
  obtain ⟨plans, hplans, hmirror⟩ := resolve_mirrors hsound (tableForm_reads hsound) hasks
  obtain ⟨kept, hkept, hself⟩ := resolve_mirrors hsound (cacheForm_relates r) hasks
  obtain rfl : plans = kept := Except.ok.inj (hplans.symm.trans hkept)
  rw [hplans] at hself
  refine ⟨plans, hplans, resolve_again hsound (cacheForm_reshapes r) hself, fun plans' hplans' => ?_⟩
  rw [hplans'] at hmirror
  exact ⟨resolve_again hsound (tableForm_reshapes r) hmirror, hmirror⟩

/-- A request for the records below a node, with a filter that takes the place of another, and below
them a built node that further tokens add to. -/
def nestedNodes : List Token :=
  [.name "node", .filter [("id", .int 2)], .filter [("id", .int 1), (transformKey, .null)],
    .items [.name "*", .name "id"],
    .items [.plan (.node "node" none none (some [("parent", .int 1)]) none []),
      .items [.name "node"]]]

theorem nestedNodes_are_one_reading :
    nodes.registry.Built ∧
    (resolve nodes.registry (tableForm nodes.registry) "node" nestedNodes).run.2.isOk = true ∧
    ∃ plans, (resolve nodes.registry cacheForm "node" nestedNodes).run.2 = .ok plans ∧
      (resolve nodes.registry cacheForm "node" (plans.map .plan)).run.2 = .ok plans ∧
      ∀ plans', (resolve nodes.registry (tableForm nodes.registry) "node" nestedNodes).run.2 =
          .ok plans' →
        (resolve nodes.registry (tableForm nodes.registry) "node" (plans.map .plan)).run.2 =
            .ok plans' ∧
          AllMirror nodes.registry (IsClauseOf nodes.registry) "node" plans plans' :=
  ⟨built_nodes, by cbv, resolution_is_one_reading built_nodes "node" nestedNodes⟩

end TwinStore.Include
