import TwinStore.Cache.Change
import TwinStore.Primary.Change
import TwinStore.Proofs.Running

/-!
# Conditions that operations maintain

A condition on the sets of the cache is maintained by an operation if it holds afterwards wherever it
held before, whatever the outcome of the operation and whichever commands fail.  What is known of the
results is carried along, because later parts of an operation depend on what earlier ones gave.

Main definitions:

- `Action.Maintains`: an operation that maintains a condition and gives only results of some kind.

Main results:

- Theorem `Maintains.bind`, `Maintains.inScope`, `Maintains.each`: composed operations maintain what
  their parts maintain.
- Theorem `Cache.matching_maintains`: a search gives members of the set, with what they are read as.
-/

namespace TwinStore

/-- A condition on the sets of the cache. -/
abbrev SetCondition := Entries (List String) → Prop

namespace Action

variable {α β : Type} {I : SetCondition} {P P' : α → Prop} {Q : β → Prop}

/-- Whether an operation maintains a condition on the sets, whatever its outcome, and gives only
results of some kind. -/
def Maintains (I : SetCondition) (P : α → Prop) (x : Action α) : Prop :=
  ∀ s, I s.server.sets →
    I (runFrom x s).2.server.sets ∧ ∀ a, (runFrom x s).1 = .ok a → P a

namespace Maintains

variable {x : Action α} {f : α → Action β} {a : α}

/-! ## Single operations -/

theorem pure (h : P a) : Maintains I P (Pure.pure a : Action α) :=
  fun _ hs => ⟨hs, fun _ heq => Except.ok.inj heq ▸ h⟩

theorem throw (fault : Fault) : Maintains I P (MonadExcept.throw fault : Action α) :=
  fun _ hs => ⟨hs, nofun⟩

theorem ofOutcome {o : Outcome α} (h : ∀ a, o = .ok a → P a) :
    Maintains I P (Action.ofOutcome o) := by
  intro s hs
  rw [runFrom_ofOutcome]
  exact ⟨hs, h⟩

theorem of_modify {g : Stores → Stores} (h : ∀ s, I s.server.sets → I (g s).server.sets) :
    Maintains I (fun _ => True) (modify g : Action PUnit) :=
  fun s hs => ⟨h s hs, fun _ _ => trivial⟩

theorem of_set {s : Stores} (h : I s.server.sets) :
    Maintains I (fun _ => True) (set s : Action PUnit) :=
  fun _ _ => ⟨h, fun _ _ => trivial⟩

theorem report (ref : CorrelationRef) (severity : Severity) (component message : String)
    (context : Entries Value) :
    Maintains I (fun _ => True) (Action.report ref severity component message context) :=
  of_modify fun _ => id

theorem writeLog (lines : List LogLine) : Maintains I (fun _ => True) (Action.writeLog lines) :=
  of_modify fun _ => id

/-! ## Composed operations -/

theorem weaken (hx : Maintains I P x) (h : ∀ a, P a → P' a) : Maintains I P' x :=
  fun s hs => ⟨(hx s hs).1, fun a heq => h a ((hx s hs).2 a heq)⟩

theorem bind (hx : Maintains I P x) (hf : ∀ a, P a → Maintains I Q (f a)) :
    Maintains I Q (x >>= f) := by
  intro s hs
  obtain ⟨hfirst, hresult⟩ := hx s hs
  rw [runFrom_bind]
  split
  · next a s' hrun =>
    rw [hrun] at hfirst hresult
    exact hf a (hresult a rfl) s' hfirst
  · next fault s' hrun =>
    rw [hrun] at hfirst
    exact ⟨hfirst, nofun⟩

theorem ite {c : Prop} [Decidable c] {y : Action α} (hx : c → Maintains I P x)
    (hy : ¬c → Maintains I P y) : Maintains I P (if c then x else y) := by
  split_ifs with h
  · exact hx h
  · exact hy h

/-- An operation that looks at the stores sees sets that satisfy the condition. -/
theorem get_bind {f : Stores → Action β} (h : ∀ s, I s.server.sets → Maintains I Q (f s)) :
    Maintains I Q (get >>= f) := by
  intro s hs
  rw [runFrom_bind_of_ok (runFrom_get s)]
  exact h s hs s hs

theorem attempt (hx : Maintains I P x) :
    Maintains I (fun o => ∀ a, o = .ok a → P a) (Action.attempt x) := by
  intro s hs
  rw [runFrom_attempt]
  exact ⟨(hx s hs).1, fun o heq => Except.ok.inj heq ▸ (hx s hs).2⟩

theorem inScope {given : Option CorrelationRef} {body : CorrelationRef → Action α}
    (h : ∀ ref, Maintains I P (body ref)) : Maintains I P (Action.inScope given body) := by
  intro s hs
  rw [runFrom_inScope]
  exact h _ _ hs

theorem both {y : Action β} (hx : Maintains I P x) (hy : Maintains I Q y) :
    Maintains I (fun r => P r.1 ∧ Q r.2) (Action.both x y) := by
  refine bind hx.attempt fun o ho => bind hy.attempt fun o' ho' => ?_
  exact bind (ofOutcome ho) fun a ha => bind (ofOutcome ho') fun b hb => pure ⟨ha, hb⟩

theorem each {f : α → Action β} {as : List α} (hf : ∀ a ∈ as, Maintains I Q (f a)) :
    Maintains I (fun bs => ∀ b ∈ bs, Q b) (Action.each f as) := by
  induction as with
  | nil => exact pure nofun
  | cons a as ih =>
    refine bind (both (hf a List.mem_cons_self)
      (ih fun b hb => hf b (List.mem_cons_of_mem a hb))) fun r hr => pure ?_
    exact List.forall_mem_cons.mpr hr

theorem knows (d : Deployment) (ref : CorrelationRef) (component model : String) :
    Maintains I (fun known => known = true → d.registry.hasModel model = true)
      (Action.knows d ref component model) := by
  rw [Action.knows]
  split_ifs with h
  · exact pure fun _ => h
  · exact bind (report _ _ _ _ _) fun _ _ => pure nofun

theorem ofReported {r : Filter.Reported α} (h : ∀ a, r.run.2 = .ok a → P a) :
    Maintains I P (Action.ofReported r) :=
  bind (writeLog _) fun _ _ => ofOutcome h

end Maintains

end Action

open Action

/-! ## The cache -/

namespace Cache

open Filter Include

variable {I : SetCondition} {d : Deployment} {ref : CorrelationRef}

/-- A command maintains what its change maintains. -/
theorem request_maintains (command : Command) {change : Server → Server}
    (hchange : ∀ server : Server, I server.sets → I (change server).sets) :
    Maintains I (fun _ => True) (request command change) := by
  refine Maintains.bind (Maintains.of_modify fun _ => id) fun _ _ =>
    Maintains.get_bind fun s hs => ?_
  split
  · exact Maintains.bind (Maintains.of_modify fun s hs => hchange _ hs) fun _ _ =>
      Maintains.pure trivial
  · exact Maintains.throw _
  · exact Maintains.pure trivial

/-- Connecting leaves the sets alone. -/
theorem connect_maintains (d : Deployment) (ref : CorrelationRef) :
    Maintains I (fun _ => True) (connect d ref) := by
  have hunavailable (message : String) :
      Maintains I (fun _ => True) (unavailable ref message) :=
    Maintains.bind (Maintains.report _ _ _ _ _) fun _ _ => Maintains.pure trivial
  have hgreet : Maintains I (fun _ => True) (greet d ref) := by
    refine Maintains.bind (request_maintains .ping fun _ => id).attempt fun outcome _ => ?_
    split
    · refine Maintains.bind (Maintains.of_modify fun _ => id) fun _ _ => ?_
      split_ifs
      · exact Maintains.bind (Maintains.report _ _ _ _ _) fun _ _ => Maintains.pure trivial
      · exact Maintains.pure trivial
    · exact hunavailable _
  refine Maintains.get_bind fun s hs => ?_
  split_ifs
  · exact Maintains.pure trivial
  · exact hgreet
  · split
    · exact hunavailable _
    · exact Maintains.bind (Maintains.of_set hs) fun _ _ => hgreet

/-- Members that are read and tested are members with what they are read as. -/
theorem readMembers_maintains (model : String) (predicate : Predicate) (members : List String) :
    Maintains I (fun found => ∀ e ∈ found, e.1 ∈ members ∧
        decode e.1 (d.registry.attributeTypes model) = .ok e.2)
      (readMembers d ref model predicate members) := by
  induction members with
  | nil => exact Maintains.pure nofun
  | cons raw rest ih =>
    have hfirst : Maintains I (fun found => ∀ e ∈ found, e.1 = raw ∧
        decode e.1 (d.registry.attributeTypes model) = .ok e.2)
        (readMember d ref model predicate raw) := by
      unfold readMember
      split
      · next record hdecode =>
        refine Maintains.bind (Maintains.ofOutcome fun _ _ => trivial) fun answer _ => ?_
        refine Maintains.pure fun e he => ?_
        split_ifs at he
        · obtain rfl := Option.some.inj he
          exact ⟨rfl, hdecode⟩
        · cases he
      · split_ifs
        · exact Maintains.bind (Maintains.report _ _ _ _ _) fun _ _ => Maintains.pure nofun
        · exact Maintains.throw _
    refine Maintains.bind hfirst fun found hfound => Maintains.bind ih fun others hothers =>
      Maintains.pure fun e he => ?_
    rcases List.mem_append.mp he with he | he
    · obtain ⟨rfl, hdecode⟩ := hfound e (Option.mem_toList.mp he)
      exact ⟨List.mem_cons_self, hdecode⟩
    · exact ⟨List.mem_cons_of_mem raw (hothers e he).1, (hothers e he).2⟩

/-- A search gives members of the set, with what they are read as. -/
theorem matching_maintains (model : String) (where_ : Value) {P : String → Prop}
    (hP : ∀ sets, I sets → ∀ raw ∈ (Entries.get? sets (setKey d model)).getD [], P raw) :
    Maintains I (fun found => ∀ members, found = some members → ∀ e ∈ members, P e.1 ∧
        decode e.1 (d.registry.attributeTypes model) = .ok e.2)
      (matching d ref model where_) := by
  have hpredicate : Maintains I (fun _ => True) (predicateOf? d ref model where_) := by
    refine Maintains.bind (Maintains.ofReported fun _ _ => trivial).attempt fun outcome _ => ?_
    split
    · exact Maintains.pure trivial
    · exact Maintains.bind (Maintains.report _ _ _ _ _) fun _ _ => Maintains.pure trivial
    · exact Maintains.throw _
  refine Maintains.bind hpredicate fun predicate _ => ?_
  split
  · exact Maintains.pure nofun
  · refine Maintains.bind (connect_maintains d ref) fun connected _ => ?_
    split_ifs
    · refine Maintains.bind (request_maintains .members fun _ => id) fun failure _ => ?_
      split
      · exact Maintains.bind (Maintains.report _ _ _ _ _) fun _ _ => Maintains.pure nofun
      · refine Maintains.get_bind fun s hs => ?_
        refine Maintains.bind (readMembers_maintains _ _ _) fun found hfound =>
          Maintains.pure fun members hmembers e he => ?_
        obtain rfl := Option.some.inj hmembers
        exact ⟨hP _ hs _ (hfound e he).1, (hfound e he).2⟩
    · exact Maintains.pure nofun

/-- A search leaves the sets alone, if the search for related records does. -/
theorem findWith_maintains {φ : Type} (model : String) (where_ : Value) (plans : List (Plan φ))
    {related : Action (List (Option (List Record)))}
    (hrelated : Maintains I (fun _ => True) related) :
    Maintains I (fun _ => True) (findWith d ref model where_ plans related) := by
  refine Maintains.bind (Maintains.knows _ _ _ _) fun known _ => ?_
  split_ifs
  · refine Maintains.bind (matching_maintains model where_ fun _ _ _ _ => trivial) fun found _ => ?_
    cases found with
    | none => exact Maintains.pure trivial
    | some members =>
      refine Maintains.ite (fun _ => Maintains.pure trivial) fun _ =>
        Maintains.bind hrelated fun founds _ => ?_
      split
      · exact Maintains.pure trivial
      · exact Maintains.bind (Maintains.ofOutcome fun _ _ => trivial) fun _ _ =>
          Maintains.pure trivial
  · exact Maintains.pure trivial

mutual

/-- A search for a plan leaves the sets alone. -/
theorem findPlan_maintains : ∀ plan : Builder,
    Maintains I (fun _ => True) (findPlan d ref plan)
  | .node _ _ _ _ _ children => findWith_maintains _ _ _ (findPlans_maintains children)

/-- A search for some plans leaves the sets alone. -/
theorem findPlans_maintains : ∀ plans : List Builder,
    Maintains I (fun _ => True) (findPlans d ref plans)
  | [] => Maintains.pure trivial
  | plan :: rest => Maintains.bind (Maintains.both (findPlan_maintains plan)
      (findPlans_maintains rest)) fun _ _ => Maintains.pure trivial

end

/-- A search with plans leaves the sets alone. -/
theorem find_maintains (given : Option CorrelationRef) (model : String) (where_ : Value)
    (plans : List Builder) : Maintains I (fun _ => True) (find d given model where_ plans) :=
  Maintains.inScope fun _ => findWith_maintains _ _ _ (findPlans_maintains plans)

/-- Adding records maintains what adding their members maintains. -/
theorem create_maintains (given : Option CorrelationRef) (model : String) (records : Value)
    (hadd : d.registry.hasModel model = true → ∀ members,
      membersOf d.registry.modelNames records = .ok members →
      ∀ server : Server, I server.sets → I (server.add (setKey d model) members).sets) :
    Maintains I (fun _ => True) (create d given model records) := by
  refine Maintains.inScope fun ref => Maintains.bind (Maintains.knows _ _ _ _) fun known hknown =>
    Maintains.ite (fun h => Maintains.ite (fun _ => ?_) fun _ => Maintains.pure trivial)
      fun _ => Maintains.pure trivial
  split
  · exact Maintains.bind (Maintains.report _ _ _ _ _) fun _ _ => Maintains.pure trivial
  · exact Maintains.throw _
  · next members hmembers =>
    refine Maintains.bind (connect_maintains d ref) fun connected _ =>
      Maintains.ite (fun _ => ?_) fun _ => Maintains.pure trivial
    refine Maintains.bind (request_maintains .add (hadd (hknown h) members hmembers)) fun _ _ => ?_
    split
    · exact Maintains.bind (Maintains.report _ _ _ _ _) fun _ _ => Maintains.pure trivial
    · exact Maintains.pure trivial

/-- Removing records maintains what removing members maintains. -/
theorem delete_maintains (given : Option CorrelationRef) (model : String) (where_ : Value)
    (hremove : ∀ members (server : Server), I server.sets →
      I (server.remove (setKey d model) members).sets) :
    Maintains I (fun _ => True) (delete d given model where_) := by
  refine Maintains.inScope fun ref => Maintains.bind (Maintains.knows _ _ _ _) fun known _ =>
    Maintains.ite (fun _ => ?_) fun _ => Maintains.pure trivial
  · refine Maintains.bind (matching_maintains model where_ fun _ _ _ _ => trivial) fun found _ => ?_
    split
    · exact Maintains.pure trivial
    · exact Maintains.pure trivial
    · refine Maintains.bind (request_maintains .remove (hremove _)) fun failure _ => ?_
      split
      · exact Maintains.bind (Maintains.report _ _ _ _ _) fun _ _ => Maintains.pure trivial
      · exact Maintains.pure trivial

/-- Replacing members maintains what removing and adding them maintains. -/
theorem replace_maintains (model : String) {old new : List String}
    (hremove : ∀ members (server : Server), I server.sets →
      I (server.remove (setKey d model) members).sets)
    (hadd : ∀ server : Server, I server.sets → I (server.add (setKey d model) new).sets) :
    Maintains I (fun _ => True) (replace d ref model old new) := by
  have hreported (severity : Severity) (message : String) (context : Entries Value)
      (o : Option ChangeCounts) : Maintains I (fun _ => True)
        (Action.report ref severity component message context >>= fun _ => pure o) :=
    Maintains.bind (Maintains.report _ _ _ _ _) fun _ _ => Maintains.pure trivial
  refine Maintains.bind (request_maintains .remove (hremove _)) fun removal _ => ?_
  cases removal with
  | none =>
    refine Maintains.bind (request_maintains .add hadd) fun addition _ => ?_
    cases addition with
    | none => exact Maintains.pure trivial
    | some failure => exact hreported _ _ _ _
  | some failure =>
    refine Maintains.bind (Maintains.report _ _ _ _ _) fun _ _ =>
      Maintains.bind (request_maintains .add hadd) fun addition _ => ?_
    cases addition with
    | none => exact hreported _ _ _ _
    | some failure => exact hreported _ _ _ _

/-- An update maintains what removing members and adding the members of the updated records
maintains. -/
theorem update_maintains (given : Option CorrelationRef) (model : String) (spec where_ : Value)
    {P : String → Prop}
    (hP : ∀ sets, I sets → ∀ raw ∈ (Entries.get? sets (setKey d model)).getD [], P raw)
    (hremove : ∀ members (server : Server), I server.sets →
      I (server.remove (setKey d model) members).sets)
    (hadd : d.registry.hasModel model = true →
      ∀ fields, updatedFields spec = .ok fields →
      (∀ field ∈ fields, Entries.has (d.registry.attributeTypes model) field = true) →
      ∀ found : List (String × Record), (∀ e ∈ found, P e.1 ∧
        decode e.1 (d.registry.attributeTypes model) = .ok e.2) →
      ∀ members, updatedMembers d model spec (found.map (·.2)) = .ok members →
      ∀ server : Server, I server.sets → I (server.add (setKey d model) members).sets) :
    Maintains I (fun _ => True) (update d given model spec where_) := by
  refine Maintains.inScope fun ref => Maintains.bind (Maintains.knows _ _ _ _) fun known hknown =>
    Maintains.ite (fun h => ?_) fun _ => Maintains.pure trivial
  refine Maintains.bind (Maintains.ofOutcome fun fields hfields => hfields) fun fields hfields =>
    Maintains.ite (fun hunknown => ?_) fun _ =>
      Maintains.bind (Maintains.report _ _ _ _ _) fun _ _ => Maintains.pure trivial
  refine Maintains.bind (matching_maintains model where_ hP) fun found hfound => ?_
  split
  · exact Maintains.pure trivial
  · exact Maintains.pure trivial
  · split
    · exact Maintains.bind (Maintains.report _ _ _ _ _) fun _ _ => Maintains.pure trivial
    · exact Maintains.bind (Maintains.report _ _ _ _ _) fun _ _ => Maintains.pure trivial
    · exact Maintains.throw _
    · next members hmembers =>
      refine replace_maintains model hremove (hadd (hknown h) fields hfields ?_ _ ?_ members hmembers)
      · intro field hfield
        by_contra hmissing
        have hmem : field ∈ fields.filter (!Entries.has (d.registry.attributeTypes model) ·) :=
          List.mem_filter.mpr ⟨hfield, by simpa using hmissing⟩
        rw [List.isEmpty_iff.mp hunknown] at hmem
        cases hmem
      · exact hfound _ rfl

end Cache

/-! ## The primary store -/

namespace Primary

variable {I : SetCondition} {α : Type} {P : α → Prop} {d : Deployment} {ref : CorrelationRef}

theorem guarded_maintains (action model : String) {body : Action α} (h : Maintains I P body) :
    Maintains I (fun o => ∀ a, o = some a → P a) (guarded ref action model body) := by
  refine Maintains.bind h.attempt fun o ho => ?_
  split
  · exact Maintains.pure fun a ha => Option.some.inj ha ▸ ho _ rfl
  · split
    · exact Maintains.throw _
    · exact Maintains.bind (Maintains.report _ _ _ _ _) fun _ _ => Maintains.pure nofun

theorem onTable_maintains {given : Option CorrelationRef} {model : String}
    {body : CorrelationRef → Model → Action (Option α)}
    (h : ∀ ref m, d.registry.table model = .ok m →
      Maintains I (fun o => ∀ a, o = some a → P a) (body ref m)) :
    Maintains I (fun o => ∀ a, o = some a → P a) (onTable d given model body) := by
  refine Maintains.inScope fun ref => Maintains.bind (Maintains.knows _ _ _ _) fun known _ => ?_
  split_ifs
  · exact Maintains.bind (Maintains.ofOutcome fun m hm => hm) fun m hm => h ref m hm
  · exact Maintains.pure nofun

theorem run_maintains {statement : Database → Outcome (Database × α)}
    (h : ∀ db db' a, statement db = .ok (db', a) → P a) : Maintains I P (run statement) := by
  refine Maintains.get_bind fun s _ => ?_
  refine Maintains.bind (Maintains.ofOutcome fun r hr => h _ r.1 r.2 hr) fun r hr => ?_
  exact Maintains.bind (Maintains.of_modify fun _ => id) fun _ _ => Maintains.pure hr

end Primary

end TwinStore
