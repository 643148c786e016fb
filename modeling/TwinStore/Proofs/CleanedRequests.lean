import TwinStore.Proofs.CascadeDelete
import TwinStore.Proofs.RequestReadings

/-!
# Requests without what means nothing

Tokens that mean nothing where they stand are skipped, and the tokens beside them mean what they would
without them.  So a request is read as the request that is left when all of them are taken out, at
every depth, and of that nothing is skipped: only built nodes can still name a relation that is not
there.

Main definitions:

- `cleaned`: a request without the tokens that mean nothing.
- `straysIn`: the notices on built nodes without a relation.
- `Continues`: how the reading of a cleaned request stands beside the reading of the request.

Main results:

- Theorem `resolveFrom_cleaned`: a request is read as it is read when it is cleaned.
- Theorem `resolution_recovers`: the same from the start, with the notices that are left.
-/

namespace TwinStore.Include

open Filter Resolving Twin

variable {r : Registry} {parent : String}

/-! ## Cleaned requests -/

/-- Whether a token is a text. -/
def Token.isName : Token → Bool
  | .name _ => true
  | _ => false

/-- A request without the tokens that mean nothing: values of no kind that is read, names and built
nodes without a relation and what follows them up to the next, lists and filters before the first
node, and fields that are no text. -/
def cleaned (r : Registry) (parent : String) (on : Option String) : List Token → List Token
  | [] => []
  | .plan builder :: rest =>
    match aim r parent builder.model with
    | some model => .plan builder :: cleaned r parent (some model) rest
    | none => cleaned r parent none rest
  | .name target :: rest =>
    match aim r parent target with
    | some model => .name target :: cleaned r parent (some model) rest
    | none => cleaned r parent none rest
  | .items tokens :: rest =>
    match on with
    | some model =>
      (match Token.projection? tokens with
        | some fields => .items (.name projectionMark :: fields.filter Token.isName)
        | none => .items (cleaned r model none tokens)) :: cleaned r parent on rest
    | none => cleaned r parent on rest
  | .filter where_ :: rest =>
    match on with
    | some _ => .filter where_ :: cleaned r parent on rest
    | none => cleaned r parent on rest
  | .other _ :: rest => cleaned r parent on rest

/-! ## Notices that are left -/

mutual

/-- The notices on a built node: that it has no relation, or else those on what is below it. -/
def straysOf (r : Registry) (parent : String) : Builder → List Notice
  | .node model _ _ _ _ children =>
    match r.relation? parent model with
    | none => [.request (noRelation parent model) (some parent)]
    | some _ => straysAmong r model children

/-- The notices on built nodes of one parent. -/
def straysAmong (r : Registry) (parent : String) : List Builder → List Notice
  | [] => []
  | builder :: rest => straysOf r parent builder ++ straysAmong r parent rest

end

/-- The notices on what is below the built nodes of a request. -/
def straysIn (r : Registry) : List Token → List Notice
  | [] => []
  | .plan builder :: rest => straysAmong r builder.model builder.children ++ straysIn r rest
  | .items tokens :: rest => straysIn r tokens ++ straysIn r rest
  | .name _ :: rest | .filter _ :: rest | .other _ :: rest => straysIn r rest

/-! ## Fields -/

theorem names_filter (fields : List Token) :
    Token.names (fields.filter Token.isName) = Token.names fields := by
  induction fields with
  | nil => rfl
  | cons token rest ih =>
    cases token with
    | name target => exact congrArg (target :: ·) ih
    | _ => exact ih

theorem length_names (fields : List Token) :
    (Token.names (fields.filter Token.isName)).length = (fields.filter Token.isName).length := by
  induction fields with
  | nil => rfl
  | cons token rest ih =>
    cases token with
    | name target => exact congrArg (· + 1) ih
    | _ => exact ih

theorem straysIn_filter (fields : List Token) : straysIn r (fields.filter Token.isName) = [] := by
  induction fields with
  | nil => rw [List.filter_nil, straysIn]
  | cons token rest ih =>
    cases token with
    | name target =>
      rw [List.filter_cons_of_pos rfl, straysIn]
      exact ih
    | _ => exact ih

/-- Fields that are texts are returned without a notice. -/
theorem project_tells {φ : Type} (plan : Plan φ) (fields : List Token) :
    Tells (project plan (fields.filter Token.isName)) (.ok (plan.withAttributes (Token.names fields)))
      [] := by
  have hlength := length_names fields
  rw [names_filter] at hlength
  simp only [project, names_filter, hlength, ne_eq, not_true_eq_false, if_false]
  exact Tells.pure _

/-! ## Lists of fields among requests -/

/-- The mark of a projection is no name of a model. -/
theorem relation?_mark (hr : r.IsSound) : r.relation? parent projectionMark = none := by
  cases hrelation : r.relation? parent projectionMark with
  | none => rfl
  | some relation =>
    obtain ⟨m, hm⟩ := Option.isSome_iff_exists.mp (hasModel_of_relation hr hrelation)
    have hname := (hr.isDeclared hm).name
    rw [hr.name_eq hm] at hname
    exact absurd hname (by decide)

/-- What is left of tokens for nodes is no list of fields, since it opens with a node if at all. -/
theorem projection?_cleaned (hr : r.IsSound) (tokens : List Token) :
    Token.projection? (cleaned r parent none tokens) = none := by
  induction tokens with
  | nil => rw [cleaned]; rfl
  | cons token rest ih =>
    cases token with
    | plan builder =>
      rw [cleaned]
      cases aim r parent builder.model with
      | none => exact ih
      | some model => rfl
    | name target =>
      rw [cleaned]
      cases haim : aim r parent target with
      | none => exact ih
      | some model =>
        have hmark : target ≠ projectionMark := by
          rintro rfl
          rw [aim, relation?_mark hr] at haim
          cases haim
        exact if_neg hmark
    | _ =>
      rw [cleaned]
      exact ih

/-! ## Built nodes -/

mutual

/-- A built node is bound for the cache if it has a relation, with a notice on each node that has
none. -/
theorem bind_tells : ∀ (parent : String) (builder : Builder), ∃ plan,
    Tells (bind r cacheForm parent builder) (.ok plan) (straysOf r parent builder) ∧
      plan.map Plan.model = aim r parent builder.model
  | parent, .node model required attributes where_ _ children => by
    simp only [bind, straysOf, aim, Plan.model]
    cases hrelation : r.relation? parent model with
    | none => exact ⟨none, (Tells.notify _).bind (Tells.pure none), rfl⟩
    | some relation =>
      obtain ⟨below, hbelow⟩ := bindAll_tells model children
      simp only
      cases where_ with
      | none => exact ⟨_, hbelow.bind_pure _, rfl⟩
      | some w =>
        have hwhere : Tells ((cacheForm.shape model w).map some)
          (.ok (some (Entries.erase w transformKey))) [] := (Tells.pure _).map some
        rw [← List.append_nil (straysAmong r model children)]
        exact ⟨_, hbelow.bind (hwhere.bind_pure _), rfl⟩

/-- Built nodes are bound for the cache, with a notice on each that has no relation. -/
theorem bindAll_tells : ∀ (parent : String) (builders : List Builder), ∃ plans,
    Tells (bindAll r cacheForm parent builders) (.ok plans) (straysAmong r parent builders)
  | _, [] => ⟨[], Tells.pure []⟩
  | parent, builder :: rest => by
    obtain ⟨plan, hplan, _⟩ := bind_tells parent builder
    obtain ⟨plans, hplans⟩ := bindAll_tells parent rest
    exact ⟨_, hplan.bind (hplans.bind_pure _)⟩

end

/-- On a built node with a relation there are only the notices on what is below it. -/
theorem straysOf_of_aim {builder : Builder} {model : String}
    (h : aim r parent builder.model = some model) :
    straysOf r parent builder = straysAmong r builder.model builder.children := by
  obtain ⟨target, required, attributes, where_, relation, children⟩ := builder
  obtain ⟨relation, hrelation, _⟩ := Option.map_eq_some_iff.mp h
  have hrelation' : r.relation? parent target = some relation := hrelation
  simp only [straysOf, hrelation', Plan.model, Plan.children]

/-! ## Requests -/

/-- How the reading of a cleaned request stands beside the reading of the request: at the same node, or
anywhere while the request has no node, where what is left goes on with a node or ends.  Then the
cleaned request still has to finish its own node. -/
inductive Continues : Focus (Entries Value) → Focus (Entries Value) → Option String → List Builder → Prop
  | on (p : Builder) : Continues (.on p) (.on p) (some p.model) []
  | start (focus : Focus (Entries Value)) : Continues .start focus none focus.finished
  | skipping (focus : Focus (Entries Value)) : Continues .skipping focus none focus.finished

namespace Continues

variable {focus focus' : Focus (Entries Value)} {on : Option String} {before : List Builder} {p q : Builder}

/-- What the next tokens apply to stays for the same model as it changes. -/
theorem of_model (h : q.model = p.model) : Continues (.on q) (.on q) (some p.model) [] := by
  rw [← h]
  exact .on q

theorem finished (h : Continues focus focus' on before) : before ++ focus.finished = focus'.finished := by
  cases h with
  | on p => rfl
  | start => exact List.append_nil _
  | skipping => exact List.append_nil _

end Continues

/-- How a token is cleaned: it is taken out, and only the reading of the request goes on, or a token is
left for it that brings both readings to the same node and finishes what is before it. -/
inductive CleansTo (r : Registry) (parent : String) (position : Nat) (focus next : Focus (Entries Value))
    (on : Option String) (before : List Builder) (token : Token) : Prop
  | out (on' : Option String)
      (htokens : ∀ rest, cleaned r parent on (token :: rest) = cleaned r parent on' rest)
      (h : Continues next focus on' before)
  | left (token' : Token) (on' : Option String)
      (htokens : ∀ rest, cleaned r parent on (token :: rest) = token' :: cleaned r parent on' rest)
      (htells : Tells (advance r cacheForm parent position focus token') (.ok next) (straysIn r [token']))
      (h : Continues next next on' []) (hbefore : before = focus.finishedBy token')

theorem straysIn_cons (token : Token) (rest : List Token) :
    straysIn r (token :: rest) = straysIn r [token] ++ straysIn r rest := by
  cases token <;> simp only [straysIn, List.append_nil, List.nil_append]

mutual

/-- A token is read for the cache as it is read when it is cleaned, wherever the reading of the cleaned
request stands. -/
theorem advance_cleaned (hr : r.IsSound) : ∀ (parent : String) (position position' : Nat)
    (focus focus' : Focus (Entries Value)) (on : Option String) (before : List Builder) (token : Token),
    Continues focus focus' on before →
    ∃ next, Yields (advance r cacheForm parent position focus token) next ∧
      CleansTo r parent position' focus' next on (before ++ focus.finishedBy token) token
  | parent, position, position', focus, focus', on, before, .plan builder, h => by
    obtain ⟨plan, hplan, hmodel⟩ := bind_tells (r := r) parent builder
    refine ⟨.behind plan, hplan.yields.map _, ?_⟩
    rw [Focus.finishedBy, h.finished]
    cases plan with
    | none =>
      refine .out none (fun rest => ?_) (.skipping focus')
      rw [cleaned, ← hmodel]
      rfl
    | some p =>
      refine .left (.plan builder) (some p.model) (fun rest => ?_) ?_ (.on p) rfl
      · rw [cleaned, ← hmodel]
        rfl
      · rw [straysOf_of_aim hmodel.symm] at hplan
        simp only [straysIn, List.append_nil]
        exact hplan.map Focus.behind
  | parent, position, position', focus, focus', on, before, .name target, h => by
    rw [Focus.finishedBy, h.finished]
    cases hrelation : r.relation? parent target with
    | none =>
      refine ⟨.skipping, ?_, .out none (fun rest => ?_) (.skipping focus')⟩
      · simp only [advance, hrelation]
        exact (Yields.notify _).bind (Yields.pure _)
      · rw [cleaned, aim, hrelation]
        rfl
    | some relation =>
      obtain rfl : relation.name = target := (hr.isRelated (Entries.mem_of_get? hrelation)).1
      refine ⟨.on (.ofRelation relation), ?_,
        .left (.name relation.name) (some relation.name) (fun rest => ?_) ?_ (.on _) rfl⟩
      · simp only [advance, hrelation]
        exact Yields.pure _
      · rw [cleaned, aim, hrelation]
        rfl
      · simp only [advance, hrelation, straysIn]
        exact Tells.pure _
  | parent, position, position', _, _, _, _, .items tokens, .start focus' => by
    rw [Focus.finishedBy, List.append_nil]
    exact ⟨.start, (Yields.notify _).bind (Yields.pure _),
      .out none (fun rest => by rw [cleaned]) (.start focus')⟩
  | parent, position, position', _, _, _, _, .items tokens, .skipping focus' => by
    rw [Focus.finishedBy, List.append_nil]
    exact ⟨.skipping, Yields.pure _, .out none (fun rest => by rw [cleaned]) (.skipping focus')⟩
  | parent, position, position', _, _, _, _, .items tokens, .on p => by
    cases hprojection : Token.projection? tokens with
    | some fields =>
      have hmark : Token.projection? (.name projectionMark :: fields.filter Token.isName) =
        some (fields.filter Token.isName) := rfl
      refine ⟨.on (p.withAttributes (Token.names fields)), ?_,
        .left (.items (.name projectionMark :: fields.filter Token.isName)) (some p.model)
          (fun rest => ?_) ?_ (.of_model (model_withAttributes p _)) rfl⟩
      · simp only [advance, hprojection]
        exact (project_yields p fields).map Focus.on
      · simp only [cleaned, hprojection]
      · simp only [advance, hmark, straysIn, straysIn_filter, List.append_nil]
        exact (project_tells p fields).map Focus.on
    | none =>
      obtain ⟨below, hbelow, htells⟩ := resolveFrom_cleaned hr p.model 0 0 .start .start none [] tokens
        (.start .start)
      refine ⟨.on (p.addChildren below), ?_,
        .left (.items (cleaned r p.model none tokens)) (some p.model)
          (fun rest => ?_) ?_ (.of_model (model_addChildren p _)) rfl⟩
      · simp only [advance, hprojection]
        exact hbelow.bind (Yields.pure _)
      · simp only [cleaned, hprojection]
      · simp only [advance, projection?_cleaned hr, straysIn, List.append_nil]
        exact htells.bind_pure _
  | parent, position, position', _, _, _, _, .filter where_, .start focus' => by
    rw [Focus.finishedBy, List.append_nil]
    exact ⟨.start, (Yields.notify _).bind (Yields.pure _),
      .out none (fun rest => by rw [cleaned]) (.start focus')⟩
  | parent, position, position', _, _, _, _, .filter where_, .skipping focus' => by
    rw [Focus.finishedBy, List.append_nil]
    exact ⟨.skipping, Yields.pure _, .out none (fun rest => by rw [cleaned]) (.skipping focus')⟩
  | parent, position, position', _, _, _, _, .filter where_, .on p => by
    refine ⟨.on (p.withWhere (Entries.erase where_ transformKey)), (Yields.pure _).bind (Yields.pure _),
      .left (.filter where_) (some p.model) (fun rest => by rw [cleaned]) ?_
        (.of_model (model_withWhere p _)) rfl⟩
    simp only [straysIn]
    exact (Tells.pure _).bind (Tells.pure _)
  | parent, position, position', focus, focus', on, before, .other kind, h => by
    rw [Focus.finishedBy, List.append_nil]
    exact ⟨focus, (Yields.notify _).bind (Yields.pure _), .out on (fun rest => by rw [cleaned]) h⟩

/-- A request is read for the cache as it is read when it is cleaned, wherever the reading of the cleaned
request stands, and of that there are only the notices on what is below built nodes. -/
theorem resolveFrom_cleaned (hr : r.IsSound) : ∀ (parent : String) (position position' : Nat)
    (focus focus' : Focus (Entries Value)) (on : Option String) (before : List Builder)
    (tokens : List Token), Continues focus focus' on before →
    ∃ plans, Yields (resolveFrom r cacheForm parent position focus tokens) plans ∧
      Tells (resolveFrom r cacheForm parent position' focus' (cleaned r parent on tokens))
        (.ok (before ++ plans)) (straysIn r (cleaned r parent on tokens))
  | parent, position, position', focus, focus', on, before, [], h => by
    rw [cleaned, resolveFrom, resolveFrom, straysIn]
    refine ⟨_, Yields.pure _, ?_⟩
    rw [h.finished]
    exact Tells.pure _
  | parent, position, position', focus, focus', on, before, token :: rest, h => by
    obtain ⟨next, hnext, hcleans⟩ :=
      advance_cleaned hr parent position position' focus focus' on before token h
    rw [resolveFrom_cons]
    cases hcleans with
    | out on' htokens hcontinues =>
      obtain ⟨plans, hplans, htells⟩ := resolveFrom_cleaned hr parent (position + 1) position' next focus'
        on' _ rest hcontinues
      refine ⟨_, hnext.bind (hplans.bind (Yields.pure _)), ?_⟩
      rw [htokens, ← List.append_assoc]
      exact htells
    | left token' on' htokens htoken hcontinues hbefore =>
      obtain ⟨plans, hplans, htells⟩ := resolveFrom_cleaned hr parent (position + 1) (position' + 1) next
        next on' [] rest hcontinues
      refine ⟨_, hnext.bind (hplans.bind (Yields.pure _)), ?_⟩
      rw [htokens, resolveFrom_cons, straysIn_cons, ← List.append_assoc, hbefore]
      exact htoken.bind (htells.bind_pure _)

end

/-- Reading a request for the cache never fails.  It gives what is read when the tokens that mean nothing
are taken out at every depth, and then there are only notices on unknown relations below built nodes. -/
theorem resolution_recovers (hr : r.Built) (model : String) (tokens : List Token) :
    ∃ plans, (resolve r cacheForm model tokens).run.2 = .ok plans ∧
      (resolve r cacheForm model (cleaned r model none tokens)).run =
        (straysIn r (cleaned r model none tokens), .ok plans) := by
  obtain ⟨plans, hplans, htells⟩ := resolveFrom_cleaned hr.isSound model 0 0 .start .start none []
    tokens (.start .start)
  exact ⟨plans, hplans.run_eq, htells.run_eq⟩

/-- A request for the records below a node with tokens that mean nothing at each depth. -/
def messyNodes : List Token :=
  [.filter [("id", .int 3)], .other "int", .name "node", .name "leaf", .other "bool",
    .filter [("leaf", .null)], .plan (.node "node" none none none none [.node "leaf" none none none none []]),
    .other "float", .items [.items [], .name "node", .filter [("id", .int 1)], .name "*", .items []],
    .items [.name "*", .other "int", .name "id"]]

example : cleaned nodes.registry "node" none messyNodes =
    [.name "node", .plan (.node "node" none none none none [.node "leaf" none none none none []]),
      .items [.name "node", .filter [("id", .int 1)]], .items [.name "*", .name "id"]] := by
  cbv

theorem messyNodes_recover :
    nodes.registry.Built ∧
    ∃ plans, (resolve nodes.registry cacheForm "node" messyNodes).run.2 = .ok plans ∧
      (resolve nodes.registry cacheForm "node" (cleaned nodes.registry "node" none messyNodes)).run =
        (straysIn nodes.registry (cleaned nodes.registry "node" none messyNodes), .ok plans) :=
  ⟨built_nodes, resolution_recovers built_nodes "node" messyNodes⟩

end TwinStore.Include
