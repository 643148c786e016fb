import TwinStore.Proofs.CascadeDelete
import TwinStore.Proofs.RequestReadings

/-!
# Built requests in writing

What can be built can be written: each node as its name, its fields behind the mark of a projection,
its filter, and a list for the nodes below.  Both are read as the same plans.  Only the order differs in
which a node's own filter and the nodes below it are looked at.

Main definitions:

- `tokensOf`, `tokensOfAll`: built nodes in writing.
- `bindWritten`, `bindAllWritten`: built nodes as they are bound when they are written.
- `Resolving.Matches`: resolutions with one result, or none, that tell the same.

Main results:

- Theorem `resolveFrom_written`: a built request in writing is read node by node.
- Theorem `bindAll_matches`: its nodes are bound as they are when they are not written.
- Theorem `written_as_built`: both forms of a request come to the same for both stores.
-/

namespace TwinStore.Include

open Filter Resolving Twin

variable {φ : Type} {r : Registry} {form : FilterForm φ} {parent : String}

/-! ## Requests in writing -/

/-- The fields of a node in writing. -/
def fieldTokens (attributes : Option (List String)) : List Token :=
  (attributes.map fun names => .items (.name projectionMark :: names.map .name)).toList

/-- The filter of a node in writing. -/
def filterTokens (where_ : Option (Entries Value)) : List Token := (where_.map .filter).toList

/-- A list for what is below a node, if there is anything. -/
def belowTokens : List Token → List Token
  | [] => []
  | tokens => [.items tokens]

mutual

/-- A built node in writing. -/
def tokensOf : Builder → List Token
  | .node model _ attributes where_ _ children =>
    .name model :: (fieldTokens attributes ++ (filterTokens where_ ++ belowTokens (tokensOfAll children)))

/-- Built nodes in writing. -/
def tokensOfAll : List Builder → List Token
  | [] => []
  | builder :: rest => tokensOf builder ++ tokensOfAll rest

end

mutual

/-- Whether a built node can be written: none has the mark of a projection for its name, or says whether
it is required. -/
def IsWritable : Builder → Prop
  | .node model required _ _ _ children =>
    model ≠ projectionMark ∧ required = none ∧ AreWritable children

/-- Whether built nodes can be written. -/
def AreWritable : List Builder → Prop
  | [] => True
  | builder :: rest => IsWritable builder ∧ AreWritable rest

end

/-- Nodes in writing are no list of fields. -/
theorem projection?_tokensOfAll {forest : List Builder} (h : AreWritable forest) :
    Token.projection? (tokensOfAll forest) = none := by
  cases forest with
  | nil => rfl
  | cons builder rest =>
    obtain ⟨model, required, attributes, where_, relation, children⟩ := builder
    exact if_neg h.1.1

/-! ## Reading what is written -/

/-- The form that a store gives to the filter of a node, if it has one. -/
def shapeOf (form : FilterForm φ) (model : String) : Option (Entries Value) → Resolving (Option φ)
  | some where_ => some <$> form.shape model where_
  | none => return none

mutual

/-- Binds a node as it is bound when it is written, with its filter before what is below it. -/
def bindWritten (r : Registry) (form : FilterForm φ) (parent : String) :
    Builder → Resolving (Option (Plan φ))
  | .node model _ attributes where_ _ children =>
    match r.relation? parent model with
    | none => do
      Resolving.report parent (noRelation parent model)
      return none
    | some relation => do
      let where_ ← shapeOf form model where_
      let children ← bindAllWritten r form model children
      return some (.node model (some relation.isRequired) attributes where_ (some relation) children)

/-- Binds nodes as they are bound when they are written. -/
def bindAllWritten (r : Registry) (form : FilterForm φ) (parent : String) :
    List Builder → Resolving (List (Plan φ))
  | [] => return []
  | builder :: rest => do
    let bound ← bindWritten r form parent builder
    return bound.toList ++ (← bindAllWritten r form parent rest)

end

/-- What follows an unknown relation is skipped up to the next node. -/
theorem resolveFrom_skipping (position : Nat) {tokens : List Token}
    (h : ∀ token ∈ tokens, (∃ items, token = .items items) ∨ ∃ where_, token = .filter where_)
    (rest : List Token) :
    ∃ position', resolveFrom r form parent position .skipping (tokens ++ rest) =
      resolveFrom r form parent position' .skipping rest := by
  induction tokens generalizing position with
  | nil => exact ⟨position, rfl⟩
  | cons token tokens ih =>
    obtain ⟨position', hrest⟩ := ih (position + 1) fun t ht => h t (List.mem_cons_of_mem _ ht)
    rcases h token List.mem_cons_self with ⟨items, rfl⟩ | ⟨where_, rfl⟩
    · refine ⟨position', ?_⟩
      rw [List.cons_append, resolveFrom, ← hrest]
      rfl
    · refine ⟨position', ?_⟩
      rw [List.cons_append, resolveFrom, ← hrest]
      rfl

/-- A node takes its fields. -/
theorem resolveFrom_fields (position : Nat) (model : String) (required : Option Bool)
    (attributes : Option (List String)) (relation : Option Relation) (rest : List Token) :
    ∃ position', resolveFrom r form parent position (.on (.node model required none none relation []))
        (fieldTokens attributes ++ rest) =
      resolveFrom r form parent position' (.on (.node model required attributes none relation []))
        rest := by
  cases attributes with
  | none => exact ⟨position, rfl⟩
  | some names =>
    have hnames : Token.names (names.map Token.name) = names := by
      simp [Token.names, List.filterMap_map]
    refine ⟨position + 1, ?_⟩
    simp only [fieldTokens, Option.map_some, Option.toList_some, List.singleton_append, resolveFrom,
      Token.projection?, if_true, project, hnames, List.length_map, ne_eq, not_true_eq_false, if_false]
    rfl

/-- A node takes its filter in the form of the store. -/
theorem resolveFrom_filter (position : Nat) (model : String) (required : Option Bool)
    (attributes : Option (List String)) (where_ : Option (Entries Value)) (relation : Option Relation)
    (rest : List Token) :
    ∃ position', resolveFrom r form parent position
        (.on (.node model required attributes none relation [])) (filterTokens where_ ++ rest) =
      shapeOf form model where_ >>= fun where_ => resolveFrom r form parent position'
        (.on (.node model required attributes where_ relation [])) rest := by
  cases where_ with
  | none => exact ⟨position, rfl⟩
  | some where_ =>
    refine ⟨position + 1, ?_⟩
    simp only [filterTokens, Option.map_some, Option.toList_some, List.singleton_append, resolveFrom,
      shapeOf, map_eq_pure_bind, bind_assoc, pure_bind]
    rfl

/-- A node takes the nodes below it, and reading goes on behind them. -/
theorem resolveFrom_below (position : Nat) (model : String) (required : Option Bool)
    (attributes : Option (List String)) (where_ : Option φ) (relation : Option Relation)
    {children : List Builder} {tail : List Token} {plans : Resolving (List (Plan φ))}
    (hwritable : AreWritable children)
    (hchildren : resolveFrom r form model 0 .start (tokensOfAll children) =
      ([] ++ ·) <$> bindAllWritten r form model children)
    (htail : ∀ position focus, resolveFrom r form parent position focus tail =
      (focus.finished ++ ·) <$> plans) :
    resolveFrom r form parent position (.on (.node model required attributes where_ relation []))
        (belowTokens (tokensOfAll children) ++ tail) =
      bindAllWritten r form model children >>= fun below =>
        (.node model required attributes where_ relation below :: ·) <$> plans := by
  have hprojection := projection?_tokensOfAll hwritable
  cases children with
  | nil =>
    rw [bindAllWritten, pure_bind]
    exact htail position _
  | cons child children =>
    have htokens : belowTokens (tokensOfAll (child :: children)) ++ tail =
        .items (tokensOfAll (child :: children)) :: tail := by
      obtain ⟨_, _, _, _, _, _⟩ := child
      rfl
    rw [htokens, resolveFrom]
    simp only [hprojection, Plan.model, hchildren, bind_assoc, pure_bind, map_eq_pure_bind,
      Plan.addChildren, htail, Focus.finished, List.nil_append, List.singleton_append]

/-- What describes a node in writing is all skipped with it. -/
theorem eq_items_or_filter (attributes : Option (List String)) (where_ : Option (Entries Value))
    (below : List Token) :
    ∀ token ∈ fieldTokens attributes ++ (filterTokens where_ ++ belowTokens below),
      (∃ items, token = .items items) ∨ ∃ where_, token = .filter where_ := by
  intro token htoken
  rcases List.mem_append.mp htoken with hfields | hothers
  · obtain ⟨names, _, rfl⟩ := Option.map_eq_some_iff.mp (Option.mem_toList.mp hfields)
    exact .inl ⟨_, rfl⟩
  · rcases List.mem_append.mp hothers with hfilter | hbelow
    · obtain ⟨where_, _, rfl⟩ := Option.map_eq_some_iff.mp (Option.mem_toList.mp hfilter)
      exact .inr ⟨_, rfl⟩
    · cases below with
      | nil => cases hbelow
      | cons first rest =>
        exact .inl ⟨_, List.mem_singleton.mp hbelow⟩

mutual

/-- A node in writing is read as it is bound, and reading goes on with the nodes behind it. -/
theorem resolveFrom_tokensOf (hr : r.IsSound) : ∀ (parent : String) (builder : Builder),
    IsWritable builder → ∀ (tail : List Token) (plans : Resolving (List (Plan φ))),
    (∀ position focus, resolveFrom r form parent position focus tail =
      (focus.finished ++ ·) <$> plans) →
    ∀ position focus, resolveFrom r form parent position focus (tokensOf builder ++ tail) =
      bindWritten r form parent builder >>= fun bound =>
        (fun plans => focus.finished ++ (bound.toList ++ plans)) <$> plans
  | parent, .node model required attributes where_ relation? children, h, tail, plans, htail, position,
      focus => by
    have htokens : tokensOf (.node model required attributes where_ relation? children) ++ tail =
        .name model :: (fieldTokens attributes ++ (filterTokens where_ ++
          belowTokens (tokensOfAll children)) ++ tail) := by rw [tokensOf, List.cons_append]
    rw [htokens, resolveFrom, bindWritten]
    cases hrelation : r.relation? parent model with
    | none =>
      obtain ⟨position', hskipped⟩ := @resolveFrom_skipping φ r form parent (position + 1) _
        (eq_items_or_filter attributes where_ (tokensOfAll children)) tail
      simp only [bind_assoc, pure_bind, hskipped, htail, Focus.finished, map_eq_pure_bind,
        Option.toList_none, List.nil_append]
    | some relation =>
      obtain rfl : relation.name = model := (hr.isRelated (Entries.mem_of_get? hrelation)).1
      have hchildren := resolveFrom_written hr relation.name children h.2.2 0 .start
      have hbelow (position : Nat) (shaped : Option φ) := resolveFrom_below position relation.name
        (some relation.isRequired) attributes shaped (some relation) h.2.2 hchildren htail
      obtain ⟨position₁, hfields⟩ := @resolveFrom_fields φ r form parent
        (position + 1) relation.name (some relation.isRequired) attributes (some relation)
        (filterTokens where_ ++ (belowTokens (tokensOfAll children) ++ tail))
      obtain ⟨position₂, hfilter⟩ := @resolveFrom_filter φ r form parent
        position₁ relation.name (some relation.isRequired) attributes where_ (some relation)
        (belowTokens (tokensOfAll children) ++ tail)
      simp only [bind_assoc, pure_bind, List.append_assoc, Plan.ofRelation, hfields, hfilter, hbelow,
        map_eq_pure_bind, Option.toList_some, List.singleton_append]

/-- Nodes in writing are read as they are bound. -/
theorem resolveFrom_written (hr : r.IsSound) : ∀ (parent : String) (forest : List Builder),
    AreWritable forest → ∀ position focus,
    resolveFrom r form parent position focus (tokensOfAll forest) =
      (focus.finished ++ ·) <$> bindAllWritten r form parent forest
  | parent, [], _, position, focus => by
    rw [tokensOfAll, resolveFrom, bindAllWritten, map_pure, List.append_nil]
  | parent, builder :: rest, h, position, focus => by
    rw [tokensOfAll, resolveFrom_tokensOf hr parent builder h.1 _ _
      (resolveFrom_written hr parent rest h.2), bindAllWritten]
    simp only [map_eq_pure_bind, bind_assoc, pure_bind]

end

/-! ## Reading built nodes -/

/-- Built nodes are read as they are bound. -/
theorem resolveFrom_built (parent : String) (forest : List Builder) (position : Nat) (focus : Focus φ) :
    resolveFrom r form parent position focus (forest.map .plan) =
      (focus.finished ++ ·) <$> bindAll r form parent forest := by
  induction forest generalizing position focus with
  | nil => rw [List.map_nil, resolveFrom, bindAll, map_pure, List.append_nil]
  | cons builder rest ih =>
    rw [List.map_cons, resolveFrom, bindAll]
    simp only [ih, map_eq_pure_bind, bind_assoc, pure_bind]
    refine congrArg (bind r form parent builder >>= ·) (funext fun bound => ?_)
    cases bound with
    | none => simp only [Focus.finished, Option.toList_none]
    | some plan => simp only [Focus.finished, Option.toList_some]

mutual

/-- The cache keeps filters as they are, so nothing tells when a filter is looked at. -/
theorem bindWritten_cache : ∀ (parent : String) (builder : Builder), IsWritable builder →
    bindWritten r cacheForm parent builder = bind r cacheForm parent builder
  | parent, .node model required attributes where_ _ children, h => by
    obtain ⟨_, rfl, hchildren⟩ := h
    rw [bindWritten, bind, bindAllWritten_cache model children hchildren]
    cases r.relation? parent model with
    | none => rfl
    | some relation => cases where_ <;> rfl

/-- Nodes in writing are bound for the cache as they are when they are built. -/
theorem bindAllWritten_cache : ∀ (parent : String) (forest : List Builder), AreWritable forest →
    bindAllWritten r cacheForm parent forest = bindAll r cacheForm parent forest
  | _, [], _ => by rw [bindAllWritten, bindAll]
  | parent, builder :: rest, h => by
    rw [bindAllWritten, bindAll, bindWritten_cache parent builder h.1,
      bindAllWritten_cache parent rest h.2]

end

/-! ## Telling the same -/

/-- Whether a notice is on the request itself. -/
def Notice.isRequest : Notice → Bool
  | .request _ _ => true
  | .filter _ => false

/-- Whether notices are the same: on the request in the same order, on filters in some order. -/
def SameNotices (told told' : List Notice) : Prop :=
  told.filter Notice.isRequest = told'.filter Notice.isRequest ∧
    (told.filter fun n => !n.isRequest).Perm (told'.filter fun n => !n.isRequest)

theorem SameNotices.refl (told : List Notice) : SameNotices told told := ⟨rfl, .refl _⟩

theorem SameNotices.append {told told' more more' : List Notice} (h : SameNotices told told')
    (hmore : SameNotices more more') : SameNotices (told ++ more) (told' ++ more') := by
  simp only [SameNotices, List.filter_append]
  exact ⟨congrArg₂ (· ++ ·) h.1 hmore.1, h.2.append hmore.2⟩

/-- Notices on filters may be given earlier. -/
theorem SameNotices.append_comm {told told' lines : List Notice} (h : SameNotices told told')
    (hlines : ∀ n ∈ lines, n.isRequest = false) : SameNotices (told ++ lines) (lines ++ told') := by
  have hnone : lines.filter Notice.isRequest = [] := by
    rw [List.filter_eq_nil_iff]
    exact fun n hn => by simp [hlines n hn]
  simp only [SameNotices, List.filter_append, hnone, List.append_nil, List.nil_append]
  exact ⟨h.1, List.perm_append_comm.trans (h.2.append_left _)⟩

namespace Resolving

variable {α β γ : Type} {x x' : Resolving α} {y : Resolving β} {f f' : α → Resolving β}

/-- Whether a resolution fails. -/
def Fails (x : Resolving α) : Prop := ∃ fault told, Tells x (.error fault) told

/-- Whether two resolutions have one result and tell the same, or both fail. -/
inductive Matches (x x' : Resolving α) : Prop
  | ok {a : α} {told told' : List Notice} (h : Tells x (.ok a) told) (h' : Tells x' (.ok a) told')
    (hsame : SameNotices told told')
  | error (h : Fails x) (h' : Fails x')

theorem Fails.bind (h : Fails x) : Fails (x >>= f) := by
  obtain ⟨fault, told, hfails⟩ := h
  exact ⟨fault, told, hfails.bind_error⟩

theorem Fails.bind_of_tells {a : α} {told : List Notice} (hx : Tells x (.ok a) told)
    (h : Fails (f a)) : Fails (x >>= f) := by
  obtain ⟨fault, told', hfails⟩ := h
  exact ⟨fault, told ++ told', hx.bind hfails⟩

namespace Matches

theorem pure (a : α) : Matches (Pure.pure a) (Pure.pure a) :=
  .ok (Tells.pure a) (Tells.pure a) (.refl [])

theorem notify (notice : Notice) : Matches (Resolving.notify notice) (Resolving.notify notice) :=
  .ok (Tells.notify notice) (Tells.notify notice) (.refl [notice])

theorem bind (hx : Matches x x') (hf : ∀ a, Matches (f a) (f' a)) : Matches (x >>= f) (x' >>= f') := by
  cases hx with
  | error h h' => exact .error h.bind h'.bind
  | @ok a _ _ h h' hsame =>
    cases hf a with
    | error hfails hfails' => exact .error (hfails.bind_of_tells h) (hfails'.bind_of_tells h')
    | ok hrest hrest' hsame' => exact .ok (h.bind hrest) (h'.bind hrest') (hsame.append hsame')

/-- A step that tells only on filters may come earlier. -/
theorem swap (hx : Matches x x') {o : Outcome β} {lines : List Notice} (hy : Tells y o lines)
    (hlines : ∀ n ∈ lines, n.isRequest = false) (g : α → β → γ) :
    Matches (x >>= fun a => y >>= fun b => Pure.pure (g a b))
      (y >>= fun b => x' >>= fun a => Pure.pure (g a b)) := by
  cases o with
  | error fault =>
    have hfails : Fails y := ⟨fault, lines, hy⟩
    refine .error ?_ hfails.bind
    cases hx with
    | error h _ => exact h.bind
    | ok h _ _ => exact Fails.bind_of_tells h hfails.bind
  | ok b =>
    cases hx with
    | error h h' => exact .error h.bind (Fails.bind_of_tells hy h'.bind)
    | ok h h' hsame =>
      exact .ok (h.bind (hy.bind_pure _)) (hy.bind (h'.bind_pure _)) (hsame.append_comm hlines)

end Matches

end Resolving

/-! ## Both forms of a request -/

/-- Whether a store tells only on filters when it gives them their form. -/
def FilterForm.TellsOnFilters (form : FilterForm φ) : Prop :=
  ∀ model where_, ∃ o lines, Tells (form.shape model where_) o lines ∧
    ∀ n ∈ lines, n.isRequest = false

/-- The primary store reads filters, which tells on them, unless it has no table. -/
theorem tableForm_tellsOnFilters (r : Registry) : (tableForm r).TellsOnFilters := by
  intro model where_
  simp only [tableForm]
  cases r.table model with
  | error fault => exact ⟨_, _, Tells.throw fault, nofun⟩
  | ok m =>
    refine ⟨_, _, Tells.ofReported _, fun n hn => ?_⟩
    obtain ⟨line, _, rfl⟩ := List.mem_map.mp hn
    rfl

theorem shapeOf_tells (hform : form.TellsOnFilters) (model : String)
    (where_ : Option (Entries Value)) :
    ∃ o lines, Tells (shapeOf form model where_) o lines ∧ ∀ n ∈ lines, n.isRequest = false := by
  cases where_ with
  | none => exact ⟨_, _, Tells.pure none, nofun⟩
  | some where_ =>
    obtain ⟨o, lines, htells, hlines⟩ := hform model where_
    exact ⟨_, _, htells.map some, hlines⟩

mutual

/-- A node is bound as it is when it is written. -/
theorem bind_matches (hform : form.TellsOnFilters) : ∀ (parent : String) (builder : Builder),
    IsWritable builder → Matches (bind r form parent builder) (bindWritten r form parent builder)
  | parent, .node model required attributes where_ _ children, h => by
    obtain ⟨_, rfl, hchildren⟩ := h
    rw [bindWritten, bind]
    cases r.relation? parent model with
    | none => exact (Matches.notify _).bind fun _ => Matches.pure none
    | some relation =>
      obtain ⟨o, lines, htells, hlines⟩ := shapeOf_tells hform model where_
      have hswap := (bindAll_matches hform model children hchildren).swap htells hlines
        fun below shaped => some (Plan.node model (some relation.isRequired) attributes shaped
          (some relation) below)
      cases where_ <;> exact hswap

/-- Nodes are bound as they are when they are written. -/
theorem bindAll_matches (hform : form.TellsOnFilters) : ∀ (parent : String) (forest : List Builder),
    AreWritable forest → Matches (bindAll r form parent forest) (bindAllWritten r form parent forest)
  | _, [], _ => by
    rw [bindAllWritten, bindAll]
    exact Matches.pure []
  | parent, builder :: rest, h => by
    rw [bindAllWritten, bindAll]
    exact (bind_matches hform parent builder h.1).bind fun bound =>
      (bindAll_matches hform parent rest h.2).bind fun plans => Matches.pure _

end

/-- A request that is built and the same request in writing come to the same for the cache, to the last
notice.  For the primary store, one is read to plans just if the other is, and then to the same plans,
with the same notices. -/
theorem written_as_built (hr : r.Built) (model : String) {forest : List Builder}
    (h : AreWritable forest) :
    (resolve r cacheForm model (tokensOfAll forest)).run =
      (resolve r cacheForm model (forest.map .plan)).run ∧
    ∀ plans, ((resolve r (tableForm r) model (tokensOfAll forest)).run.2 = .ok plans ↔
        (resolve r (tableForm r) model (forest.map .plan)).run.2 = .ok plans) ∧
      ((resolve r (tableForm r) model (forest.map .plan)).run.2 = .ok plans →
        SameNotices (resolve r (tableForm r) model (forest.map .plan)).run.1
          (resolve r (tableForm r) model (tokensOfAll forest)).run.1) := by
  have hsound := hr.isSound
  have hmatches : Matches (resolve r (tableForm r) model (forest.map .plan))
      (resolve r (tableForm r) model (tokensOfAll forest)) := by
    rw [resolve, resolve, resolveFrom_built, resolveFrom_written hsound model forest h]
    simp only [map_eq_pure_bind]
    exact (bindAll_matches (tableForm_tellsOnFilters r) model forest h).bind fun _ => Matches.pure _
  refine ⟨?_, fun plans => ?_⟩
  · rw [resolve, resolve, resolveFrom_built, resolveFrom_written hsound model forest h,
      bindAllWritten_cache model forest h]
  · cases hmatches with
    | error hfails hfails' =>
      obtain ⟨_, _, hfails⟩ := hfails
      obtain ⟨_, _, hfails'⟩ := hfails'
      rw [hfails.run_eq, hfails'.run_eq]
      exact ⟨⟨nofun, nofun⟩, nofun⟩
    | ok hbuilt hwritten hsame =>
      rw [hbuilt.run_eq, hwritten.run_eq]
      exact ⟨Iff.rfl, fun _ => hsame⟩

/-- A built request with nodes that say much or little, some without a relation. -/
def nodesBelow : List Builder :=
  [.node "node" none (some ["id"]) (some [("id", .int 1)]) none
      [.node "leaf" none none (some []) none [], .node "node" none (some []) none none []],
    .node "leaf" none none none none [.node "node" none none none none []]]

example : tokensOfAll nodesBelow =
    [.name "node", .items [.name "*", .name "id"], .filter [("id", .int 1)],
      .items [.name "leaf", .filter [], .name "node", .items [.name "*"]],
      .name "leaf", .items [.name "node"]] := rfl

theorem nodesBelow_written_as_built :
    nodes.registry.Built ∧ AreWritable nodesBelow ∧
    (resolve nodes.registry cacheForm "node" (tokensOfAll nodesBelow)).run =
      (resolve nodes.registry cacheForm "node" (nodesBelow.map .plan)).run ∧
    ∀ plans, ((resolve nodes.registry (tableForm nodes.registry) "node" (tokensOfAll nodesBelow)).run.2 =
          .ok plans ↔
        (resolve nodes.registry (tableForm nodes.registry) "node" (nodesBelow.map .plan)).run.2 =
          .ok plans) ∧
      ((resolve nodes.registry (tableForm nodes.registry) "node" (nodesBelow.map .plan)).run.2 =
          .ok plans →
        SameNotices
          (resolve nodes.registry (tableForm nodes.registry) "node" (nodesBelow.map .plan)).run.1
          (resolve nodes.registry (tableForm nodes.registry) "node" (tokensOfAll nodesBelow)).run.1) := by
  have hwritable : AreWritable nodesBelow := by
    simp [nodesBelow, AreWritable, IsWritable, projectionMark]
  exact ⟨built_nodes, hwritable, written_as_built built_nodes "node" hwritable⟩

end TwinStore.Include
