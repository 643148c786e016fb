import TwinStore.Proofs.AcceptedFilters
import TwinStore.Proofs.CleanFilters

/-!
# Filters in another order

The keys of a filter, those of an operator set and the members of a group are read in order, and a test
tries them in order, but what they say together does not depend on it.  A filter with its parts in
another order is accepted as well, asks for the same conditions and is true where the other one is.

Main definitions:

- `Reordered`: filters that differ in the order of keys or of members only.
- `Formula.SameParts`: formulas that say the same together, by the same conditions.
- `ComparesOn`: whether each single comparison of a filter has an answer for a record.

Main results:

- Theorem `Reading.outcome_filter_reordered`: a filter in another order is read as a formula that says
  the same.
- Theorem `only_known_conditions_count`: what nobody knows and the order of the rest do not count.
-/

namespace TwinStore

open Primary

variable {α β : Type}

/-! ## Clauses with the same conditions -/

namespace Filter.Clause

theorem ofFormulas_eq_map (ps : List (Formula α)) : ofFormulas ps = ps.map ofFormula := by
  induction ps with
  | nil => rfl
  | cons f ps ih => rw [ofFormulas, ih, List.map_cons]

/-- The constant of the empty filter has no conditions. -/
theorem leaves_of_isAlways {c : Clause α} (h : c.isAlways = true) : c.leaves = [] := by
  cases c <;> first | rfl | cases h

/-- A conjunction is not the constant of the empty filter. -/
theorem isAlways_conjunction (cs : List (Clause α)) : (conjunction cs).isAlways = false := by
  unfold conjunction
  split
  · rfl
  · next c hc =>
    have hmem : c ∈ cs.filter (!·.isAlways) := hc ▸ List.mem_singleton_self c
    simpa using (List.mem_filter.mp hmem).2
  · rfl

theorem isAlways_disjunction (cs : List (Clause α)) : (disjunction cs).isAlways = false := by
  unfold disjunction
  split_ifs with hany
  · rfl
  · split
    · simpa using hany
    · rfl

/-- A conjunction keeps all conditions of its parts. -/
theorem mem_leaves_conjunction {a : α} {cs : List (Clause α)} :
    a ∈ (conjunction cs).leaves ↔ a ∈ leavesOf cs := by
  refine ⟨leaves_conjunction, fun h => ?_⟩
  obtain ⟨c, hc, ha⟩ := mem_leavesOf.mp h
  have hkept : c ∈ cs.filter (!·.isAlways) := by
    refine List.mem_filter.mpr ⟨hc, ?_⟩
    cases halways : c.isAlways with
    | false => rfl
    | true => rw [leaves_of_isAlways halways] at ha; cases ha
  unfold conjunction
  split
  · next hnone => rw [hnone] at hkept; cases hkept
  · next c' hsingle =>
    rw [hsingle] at hkept
    rwa [← List.mem_singleton.mp hkept]
  · rw [leaves, mem_leavesOf]
    have hflat := (mem_leavesOf_conjuncts c).mpr ha
    obtain ⟨d, hd, ha⟩ := mem_leavesOf.mp hflat
    exact ⟨d, List.mem_flatMap.mpr ⟨c, hkept, hd⟩, ha⟩

/-- A disjunction keeps all conditions of its parts, unless one of them is an empty filter. -/
theorem mem_leaves_disjunction {a : α} {cs : List (Clause α)} :
    a ∈ (disjunction cs).leaves ↔ cs.any isAlways = false ∧ a ∈ leavesOf cs := by
  cases hany : cs.any isAlways with
  | true =>
    unfold disjunction
    rw [if_pos hany]
    exact iff_of_false List.not_mem_nil (fun h => Bool.noConfusion h.1)
  | false =>
    refine ⟨fun h => ⟨rfl, leaves_disjunction h⟩, fun h => ?_⟩
    obtain ⟨c, hc, ha⟩ := mem_leavesOf.mp h.2
    unfold disjunction
    rw [hany, if_neg Bool.false_ne_true]
    split
    · rwa [← List.mem_singleton.mp hc]
    · rw [leaves, mem_leavesOf]
      obtain ⟨d, hd, ha⟩ := mem_leavesOf.mp ((mem_leavesOf_disjuncts c).mpr ha)
      exact ⟨d, List.mem_flatMap.mpr ⟨c, hc, hd⟩, ha⟩

mutual

/-- Conditions that were replaced could all be. -/
theorem of_mapOutcome_eq_ok [Inhabited β] {f : α → Outcome β} : ∀ {c : Clause α} {c' : Clause β},
    c.mapOutcome f = .ok c' → ∀ a ∈ c.leaves, f a = .ok (f a).get
  | always, _, _ => List.forall_mem_nil _
  | truth, _, _ => List.forall_mem_nil _
  | compare a, _, h => by
    obtain ⟨b, hb, -⟩ := Outcome.map_eq_ok.mp h
    refine List.forall_mem_singleton.mpr ?_
    rw [hb]
    rfl
  | and parts, _, h => by
    obtain ⟨parts', hparts, -⟩ := Outcome.map_eq_ok.mp h
    exact of_mapOutcomes_eq_ok hparts
  | or parts, _, h => by
    obtain ⟨parts', hparts, -⟩ := Outcome.map_eq_ok.mp h
    exact of_mapOutcomes_eq_ok hparts

theorem of_mapOutcomes_eq_ok [Inhabited β] {f : α → Outcome β} : ∀ {cs : List (Clause α)}
    {cs' : List (Clause β)}, mapOutcomes f cs = .ok cs' → ∀ a ∈ leavesOf cs, f a = .ok (f a).get
  | [], _, _ => List.forall_mem_nil _
  | c :: cs, _, h => by
    obtain ⟨c', hc, h⟩ := Outcome.bind_eq_ok.mp h
    obtain ⟨cs', hcs, -⟩ := Outcome.bind_eq_ok.mp h
    exact List.forall_mem_append.mpr ⟨of_mapOutcome_eq_ok hc, of_mapOutcomes_eq_ok hcs⟩

end

end Filter.Clause

namespace Primary.Database

open Filter

variable {db : Database} {m : Model} {clause : Clause Comparison} {t : Table} {test : Test}

/-- A clause is a test on the rows of a table exactly if all its conditions can be made ready. -/
theorem tableAndTest_eq_ok : db.tableAndTest m clause = .ok (t, test) ↔
    db.table m = .ok t ∧ (∀ c ∈ clause.leaves, c.IsReady) ∧ test = clause.map Comparison.condition := by
  have hready (h : ∀ c ∈ clause.leaves, Condition.ofComparison c = .ok (Condition.ofComparison c).get) :
      prepare clause = .ok (clause.map fun c => (Condition.ofComparison c).get) :=
    Clause.mapOutcome_eq_ok h
  constructor
  · intro h
    obtain ⟨prepared, hprepare, h⟩ := Outcome.bind_eq_ok.mp h
    obtain ⟨t', ht, h⟩ := Outcome.bind_eq_ok.mp h
    obtain ⟨test', htest, h⟩ := Outcome.bind_eq_ok.mp h
    cases h
    have hfirst := Clause.of_mapOutcome_eq_ok hprepare
    obtain rfl := Except.ok.inj ((hready hfirst).symm.trans hprepare)
    have hsecond := Clause.of_mapOutcome_eq_ok htest
    have hmapped := (Clause.mapOutcome_eq_ok hsecond).symm.trans htest
    refine ⟨ht, fun c hc => ⟨hfirst c hc, ?_⟩, ?_⟩
    · exact hsecond _ (Clause.leaves_map _ clause ▸ List.mem_map_of_mem hc)
    · rw [← Except.ok.inj hmapped, Clause.map_map]
      rfl
  · rintro ⟨ht, hconditions, rfl⟩
    have hsecond := @Clause.mapOutcome_eq_ok (Condition Value) (Condition Cell) _
      (Condition.mapOutcome cellOf) (clause.map fun c => (Condition.ofComparison c).get) ?_
    · rw [tableAndTest, hready fun c hc => (hconditions c hc).1, Outcome.ok_bind, ht, Outcome.ok_bind,
        ready, hsecond, Clause.map_map]
      rfl
    · intro condition hcondition
      rw [Clause.leaves_map] at hcondition
      obtain ⟨c, hc, rfl⟩ := List.mem_map.mp hcondition
      exact (hconditions c hc).2

end Primary.Database

namespace Filter

/-! ## Formulas that say the same -/

namespace Formula

theorem evalAll_eq_all (p : α → Bool) (ps : List (Formula α)) : evalAll p ps = ps.all (·.eval p) := by
  induction ps with
  | nil => rfl
  | cons f ps ih => rw [evalAll, ih, List.all_cons]

theorem evalAny_eq_any (p : α → Bool) (ps : List (Formula α)) : evalAny p ps = ps.any (·.eval p) := by
  induction ps with
  | nil => rfl
  | cons f ps ih => rw [evalAny, ih, List.any_cons]

/-- Whether lists of formulas say the same together, in conjunction and in disjunction, by the same
conditions, and their clauses as well. -/
structure SameParts (ps qs : List (Formula α)) : Prop where
  all : ∀ p, evalAll p ps = evalAll p qs
  any : ∀ p, evalAny p ps = evalAny p qs
  isEmpty : ps.isEmpty = qs.isEmpty
  leaves : ∀ c, c ∈ leavesOf ps ↔ c ∈ leavesOf qs
  always : (Clause.ofFormulas ps).any Clause.isAlways = (Clause.ofFormulas qs).any Clause.isAlways
  compared : ∀ c,
    c ∈ Clause.leavesOf (Clause.ofFormulas ps) ↔ c ∈ Clause.leavesOf (Clause.ofFormulas qs)

namespace SameParts

variable {ps qs rs ps' qs' : List (Formula α)}

theorem trans (h : SameParts ps qs) (h' : SameParts qs rs) : SameParts ps rs :=
  ⟨fun p => (h.all p).trans (h'.all p), fun p => (h.any p).trans (h'.any p),
    h.isEmpty.trans h'.isEmpty, fun c => (h.leaves c).trans (h'.leaves c), h.always.trans h'.always,
    fun c => (h.compared c).trans (h'.compared c)⟩

/-- Formulas in another order say the same. -/
theorem of_perm (h : ps.Perm qs) : SameParts ps qs := by
  have hclauses : (Clause.ofFormulas ps).Perm (Clause.ofFormulas qs) := by
    rw [Clause.ofFormulas_eq_map, Clause.ofFormulas_eq_map]
    exact h.map _
  refine ⟨fun p => ?_, fun p => ?_, h.isEmpty_eq, fun c => ?_, hclauses.any_eq, fun c => ?_⟩
  · rw [evalAll_eq_all, evalAll_eq_all, h.all_eq]
  · rw [evalAny_eq_any, evalAny_eq_any, h.any_eq]
  · simp only [mem_leavesOf, h.mem_iff]
  · simp only [Clause.mem_leavesOf, hclauses.mem_iff]

/-- Lists that say the same may be put together. -/
theorem append (h : SameParts ps qs) (h' : SameParts ps' qs') : SameParts (ps ++ ps') (qs ++ qs') := by
  have hclauses (xs ys : List (Formula α)) :
      Clause.ofFormulas (xs ++ ys) = Clause.ofFormulas xs ++ Clause.ofFormulas ys := by
    simp only [Clause.ofFormulas_eq_map, List.map_append]
  refine ⟨fun p => ?_, fun p => ?_, ?_, fun c => ?_, ?_, fun c => ?_⟩
  · have hfirst := h.all p
    have hlater := h'.all p
    simp only [evalAll_eq_all, List.all_append] at hfirst hlater ⊢
    rw [hfirst, hlater]
  · have hfirst := h.any p
    have hlater := h'.any p
    simp only [evalAny_eq_any, List.any_append] at hfirst hlater ⊢
    rw [hfirst, hlater]
  · have hfirst := h.isEmpty
    have hlater := h'.isEmpty
    rw [Bool.eq_iff_iff, List.isEmpty_iff, List.isEmpty_iff] at hfirst hlater ⊢
    rw [List.append_eq_nil_iff, List.append_eq_nil_iff, hfirst, hlater]
  · rw [leavesOf_append, leavesOf_append, List.mem_append, List.mem_append, h.leaves, h'.leaves]
  · rw [hclauses, hclauses, List.any_append, List.any_append, h.always, h'.always]
  · rw [hclauses, hclauses, Clause.leavesOf_append, Clause.leavesOf_append, List.mem_append,
      List.mem_append, h.compared, h'.compared]

/-- Conjunctions of lists that say the same say the same. -/
theorem conj (h : SameParts ps qs) : SameParts [.conj ps] [.conj qs] := by
  have halways (xs : List (Formula α)) : (Clause.ofFormula (.conj xs)).isAlways = xs.isEmpty := by
    cases xs with
    | nil => rfl
    | cons x xs => exact Clause.isAlways_conjunction _
  have hleaves (xs : List (Formula α)) (c : α) :
      c ∈ (Clause.ofFormula (.conj xs)).leaves ↔ c ∈ Clause.leavesOf (Clause.ofFormulas xs) := by
    cases xs with
    | nil => rfl
    | cons x xs => exact Clause.mem_leaves_conjunction
  refine ⟨fun p => ?_, fun p => ?_, rfl, fun c => ?_, ?_, fun c => ?_⟩
  · simp only [evalAll, eval, h.all]
  · simp only [evalAny, eval, h.all]
  · simp only [leavesOf, Formula.leaves, List.append_nil, h.leaves]
  · simp only [Clause.ofFormulas, List.any_cons, List.any_nil, halways, h.isEmpty]
  · simp only [Clause.ofFormulas, Clause.leavesOf, List.append_nil, hleaves, h.compared]

/-- So do disjunctions. -/
theorem disj (h : SameParts ps qs) : SameParts [.disj ps] [.disj qs] := by
  refine ⟨fun p => ?_, fun p => ?_, rfl, fun c => ?_, ?_, fun c => ?_⟩
  · simp only [evalAll, eval, h.any]
  · simp only [evalAny, eval, h.any]
  · simp only [leavesOf, Formula.leaves, List.append_nil, h.leaves]
  · simp only [Clause.ofFormulas, List.any_cons, Clause.ofFormula, Clause.isAlways_disjunction]
  · simp only [Clause.ofFormulas, Clause.leavesOf, List.append_nil, Clause.ofFormula,
      Clause.mem_leaves_disjunction, h.always, h.compared]

/-- A group of filters that say the same says the same. -/
theorem grouped (h : SameParts ps qs) (connective : Connective) :
    SameParts (connective.grouped ps) (connective.grouped qs) := by
  rw [Connective.grouped, Connective.grouped, h.isEmpty]
  split_ifs
  · exact of_perm .nil
  · cases connective with
    | and => exact h.conj
    | or => exact h.disj

end SameParts

end Formula

/-! ## Filters in another order -/

mutual

/-- Whether two filters, or two groups of filters, differ in the order of keys and of members only. -/
inductive Reordered : Value → Value → Prop
  | refl (v : Value) : Reordered v v
  | map {es fs : List (String × Value)} (h : ReorderedEntries es fs) : Reordered (.map es) (.map fs)
  | list {vs ws : List Value} (h : ReorderedMembers vs ws) : Reordered (.list vs) (.list ws)
  | tuple {vs ws : List Value} (h : ReorderedMembers vs ws) : Reordered (.tuple vs) (.tuple ws)

/-- Whether the entries of two filters differ in order only: among themselves, in the groups under keys
with a dollar sign, and in the operator sets under all other keys. -/
inductive ReorderedEntries : List (String × Value) → List (String × Value) → Prop
  | nil : ReorderedEntries [] []
  | keep {es fs : List (String × Value)} (e : String × Value) (h : ReorderedEntries es fs) :
    ReorderedEntries (e :: es) (e :: fs)
  | group {key : String} (hkey : key.startsWith "$" = true) {v w : Value} (hvalue : Reordered v w)
    {es fs : List (String × Value)} (h : ReorderedEntries es fs) :
    ReorderedEntries ((key, v) :: es) ((key, w) :: fs)
  | field {key : String} (hkey : key.startsWith "$" = false) {operators operators' : List (String × Value)}
    (hoperators : operators.Perm operators') {es fs : List (String × Value)} (h : ReorderedEntries es fs) :
    ReorderedEntries ((key, .map operators) :: es) ((key, .map operators') :: fs)
  | swap (d e : String × Value) (es : List (String × Value)) :
    ReorderedEntries (d :: e :: es) (e :: d :: es)
  | trans {es fs gs : List (String × Value)} (h : ReorderedEntries es fs) (h' : ReorderedEntries fs gs) :
    ReorderedEntries es gs

/-- Whether the members of two groups differ in order only, and each of them in the order of its parts. -/
inductive ReorderedMembers : List Value → List Value → Prop
  | nil : ReorderedMembers [] []
  | cons {v w : Value} (hfirst : Reordered v w) {vs ws : List Value} (h : ReorderedMembers vs ws) :
    ReorderedMembers (v :: vs) (w :: ws)
  | swap (v w : Value) (vs : List Value) : ReorderedMembers (v :: w :: vs) (w :: v :: vs)
  | trans {us vs ws : List Value} (h : ReorderedMembers us vs) (h' : ReorderedMembers vs ws) :
    ReorderedMembers us ws

end

theorem ReorderedEntries.refl : ∀ es : List (String × Value), ReorderedEntries es es
  | [] => .nil
  | e :: es => .keep e (refl es)

/-- The keys of a filter may stand in any order. -/
theorem ReorderedEntries.of_perm {es fs : List (String × Value)} (h : es.Perm fs) :
    ReorderedEntries es fs := by
  induction h with
  | nil => exact .nil
  | cons e _ ih => exact .keep e ih
  | swap d e es => exact .swap e d es
  | trans _ _ ih ih' => exact .trans ih ih'

/-- The members of a group may stand in any order. -/
theorem ReorderedMembers.of_perm {vs ws : List Value} (h : vs.Perm ws) : ReorderedMembers vs ws := by
  induction h with
  | nil => exact .nil
  | cons v _ ih => exact .cons (.refl v) ih
  | swap v w vs => exact .swap w v vs
  | trans _ _ ih ih' => exact .trans ih ih'

theorem ReorderedMembers.length_eq : ∀ {vs ws : List Value}, ReorderedMembers vs ws →
    vs.length = ws.length
  | _, _, .nil => rfl
  | _, _, .cons _ h => congrArg Nat.succ h.length_eq
  | _, _, .swap _ _ _ => rfl
  | _, _, .trans h h' => h.length_eq.trans h'.length_eq

/-- Which members are filters does not depend on the order. -/
theorem ReorderedMembers.areMaps : ∀ {vs ws : List Value}, ReorderedMembers vs ws →
    (∀ v ∈ vs, v.isMap = true) → ∀ w ∈ ws, w.isMap = true
  | _, _, .nil, hmaps => hmaps
  | _, _, .cons hfirst h, hmaps => by
    obtain ⟨hv, hvs⟩ := List.forall_mem_cons.mp hmaps
    refine List.forall_mem_cons.mpr ⟨?_, h.areMaps hvs⟩
    cases hfirst with
    | refl => exact hv
    | map => rfl
    | list | tuple => cases hv
  | _, _, .swap v w vs, hmaps => fun u hu => hmaps u ((List.Perm.swap v w vs).mem_iff.mp hu)
  | _, _, .trans h h', hmaps => h'.areMaps (h.areMaps hmaps)

/-- A group in another order is well formed as well. -/
theorem Reordered.exists_groupMembers {v w : Value} (h : Reordered v w) {key : String}
    (hv : ∃ members, groupMembers key v = .ok members) : ∃ members, groupMembers key w = .ok members := by
  have hlist {vs ws : List Value} (h : ReorderedMembers vs ws)
      (hvs : ∃ members, vs.mapM (filterIn key) = .ok members) :
      ∃ members, ws.mapM (filterIn key) = .ok members := by
    have hfilter (v : Value) : (∃ entries, filterIn key v = .ok entries) ↔ v.isMap = true := by
      cases v with
      | map entries => exact iff_of_true ⟨entries, rfl⟩ rfl
      | _ => exact iff_of_false (fun ⟨_, h⟩ => nomatch h) nofun
    rw [exists_mapM_iff] at hvs ⊢
    simp only [hfilter] at hvs ⊢
    exact h.areMaps hvs
  cases h with
  | refl => exact hv
  | map => exact ⟨_, rfl⟩
  | list h =>
    rw [groupMembers_list] at hv ⊢
    exact hlist h hv
  | tuple h =>
    rw [groupMembers_tuple] at hv ⊢
    exact hlist h hv

/-! ## Readings in another order -/

open Formula

/-- Whether a second reading has a result that says the same, if a first one has a result. -/
def ReadsLike (o o' : Outcome (List (Formula α))) : Prop :=
  ∀ ps, o = .ok ps → ∃ qs, o' = .ok qs ∧ SameParts ps qs

/-- The parts of two readings together. -/
def joined (o o' : Outcome (List (Formula α))) : Outcome (List (Formula α)) := do return (← o) ++ (← o')

theorem joined_eq_ok {o o' : Outcome (List (Formula α))} {ps : List (Formula α)} :
    joined o o' = .ok ps ↔ ∃ xs ys, o = .ok xs ∧ o' = .ok ys ∧ ps = xs ++ ys := by
  cases o with
  | error => exact iff_of_false nofun (fun ⟨_, _, h, _⟩ => nomatch h)
  | ok xs =>
    cases o' with
    | error => exact iff_of_false nofun (fun ⟨_, _, _, h, _⟩ => nomatch h)
    | ok ys =>
      refine ⟨fun h => ⟨xs, ys, rfl, rfl, (Except.ok.inj h).symm⟩, ?_⟩
      rintro ⟨_, _, ⟨⟩, ⟨⟩, rfl⟩
      rfl

namespace ReadsLike

variable {o o' q q' r : Outcome (List (Formula α))}

theorem refl (o : Outcome (List (Formula α))) : ReadsLike o o := fun ps h => ⟨ps, h, .of_perm (.refl ps)⟩

theorem trans (h : ReadsLike o q) (h' : ReadsLike q r) : ReadsLike o r := by
  intro ps hps
  obtain ⟨qs, hqs, hsame⟩ := h ps hps
  obtain ⟨rs, hrs, hsame'⟩ := h' qs hqs
  exact ⟨rs, hrs, hsame.trans hsame'⟩

theorem joined (h : ReadsLike o o') (h' : ReadsLike q q') : ReadsLike (joined o q) (joined o' q') := by
  intro ps hps
  obtain ⟨xs, ys, hxs, hys, rfl⟩ := joined_eq_ok.mp hps
  obtain ⟨xs', hxs', hsame⟩ := h xs hxs
  obtain ⟨ys', hys', hsame'⟩ := h' ys hys
  exact ⟨xs' ++ ys', joined_eq_ok.mpr ⟨xs', ys', hxs', hys', rfl⟩, hsame.append hsame'⟩

/-- Filters that are read alike are read alike as members of a group. -/
theorem conj (h : ReadsLike o o') :
    ReadsLike (o.map fun ps => [.conj ps]) (o'.map fun ps => [.conj ps]) := by
  intro ps hps
  obtain ⟨xs, hxs, rfl⟩ := Outcome.map_eq_ok.mp hps
  obtain ⟨xs', hxs', hsame⟩ := h xs hxs
  exact ⟨_, Outcome.map_eq_ok.mpr ⟨xs', hxs', rfl⟩, hsame.conj⟩

/-- Two readings may change places. -/
theorem swap (o q r : Outcome (List (Formula α))) :
    ReadsLike (Filter.joined o (Filter.joined q r)) (Filter.joined q (Filter.joined o r)) := by
  intro ps hps
  obtain ⟨xs, yzs, rfl, hyzs, rfl⟩ := joined_eq_ok.mp hps
  obtain ⟨ys, zs, rfl, rfl, rfl⟩ := joined_eq_ok.mp hyzs
  refine ⟨ys ++ (xs ++ zs), rfl, .of_perm ?_⟩
  rw [← List.append_assoc, ← List.append_assoc]
  exact List.perm_append_comm.append_right zs

end ReadsLike

namespace Reading

variable (reading : Reading α)

theorem outcome_entries_joined (e : String × Value) (es : List (String × Value)) :
    (reading.entries (e :: es)).outcome = joined (reading.part e.1 e.2).outcome (reading.entries es).outcome :=
  reading.outcome_entries_cons e.1 e.2 es

theorem outcome_groups_singleton (es : List (String × Value)) :
    (reading.groups [.map es]).outcome = (reading.entries es).outcome.map fun ps => [.conj ps] := by
  rw [outcome_groups_cons]
  cases (reading.entries es).outcome <;> rfl

theorem outcome_groups_joined (v : Value) (vs : List Value) :
    (reading.groups (v :: vs)).outcome = joined (reading.groups [v]).outcome (reading.groups vs).outcome := by
  cases v with
  | map inner =>
    rw [outcome_groups_cons, outcome_groups_cons, joined, bind_assoc]
    rfl
  | _ =>
    show (reading.groups vs).outcome = _
    cases (reading.groups vs).outcome <;> rfl

/-- An operator set in another order is read as the same conditions. -/
theorem readsLike_field (key : String) {operators operators' : List (String × Value)}
    (h : operators.Perm operators') :
    ReadsLike (reading.field key (.map operators)).outcome (reading.field key (.map operators')).outcome := by
  have : Inhabited (Formula α) := ⟨.conj []⟩
  rw [outcome_field, outcome_field]
  intro ps hps
  obtain ⟨type, htype, hps⟩ := Outcome.bind_eq_ok.mp hps
  obtain ⟨qs, hqs, hperm⟩ := Outcome.exists_mapM_of_perm hps (h.symm.filterMap _)
  exact ⟨qs, by rw [htype]; exact hqs, .of_perm hperm.symm⟩

/-- A group is read like another one whose members are. -/
theorem readsLike_group {v w : Value} (h : Reordered v w)
    (hmembers : ReadsLike (reading.groups (nestedIn v)).outcome (reading.groups (nestedIn w)).outcome)
    (key : String) : ReadsLike (reading.group key v).outcome (reading.group key w).outcome := by
  cases hkey : Connective.ofKey? key with
  | none =>
    rw [reading.outcome_group_of_unknown hkey, reading.outcome_group_of_unknown hkey]
    exact .refl _
  | some connective =>
    rw [outcome_group reading hkey, outcome_group reading hkey]
    intro ps hps
    obtain ⟨members, hv, hps⟩ := Outcome.bind_eq_ok.mp hps
    obtain ⟨parts, hparts, hps⟩ := Outcome.bind_eq_ok.mp hps
    obtain rfl := Except.ok.inj hps
    obtain ⟨members', hw⟩ := h.exists_groupMembers ⟨members, hv⟩
    obtain ⟨parts', hparts', hsame⟩ := hmembers parts hparts
    exact ⟨_, by rw [hw, hparts']; rfl, hsame.grouped connective⟩

mutual

/-- The members of a group in another order are read as formulas that say the same. -/
theorem readsLike_nestedIn : ∀ {v w : Value}, Reordered v w →
    ReadsLike (reading.groups (nestedIn v)).outcome (reading.groups (nestedIn w)).outcome
  | _, _, .refl v => .refl _
  | .map es, .map fs, .map h => by
    rw [nestedIn, nestedIn, outcome_groups_singleton, outcome_groups_singleton]
    exact (readsLike_entries h).conj
  | _, _, .list h => readsLike_groups h
  | _, _, .tuple h => readsLike_groups h

/-- The entries of a filter in another order are read as formulas that say the same. -/
theorem readsLike_entries : ∀ {es fs : List (String × Value)}, ReorderedEntries es fs →
    ReadsLike (reading.entries es).outcome (reading.entries fs).outcome
  | _, _, .nil => .refl _
  | _, _, .keep e h => by
    rw [outcome_entries_joined, outcome_entries_joined]
    exact (ReadsLike.refl _).joined (readsLike_entries h)
  | _, _, @ReorderedEntries.group key hkey v w hvalue es fs h => by
    rw [outcome_entries_joined, outcome_entries_joined]
    refine ReadsLike.joined ?_ (readsLike_entries h)
    have hgroup := reading.readsLike_group hvalue (readsLike_nestedIn hvalue) key
    rw [part, part, if_pos hkey, if_pos hkey]
    split_ifs
    · exact .refl _
    · exact hgroup
  | _, _, @ReorderedEntries.field key hkey _ _ hoperators es fs h => by
    have hfield : ¬ key.startsWith "$" = true := by rw [hkey]; exact Bool.false_ne_true
    rw [outcome_entries_joined, outcome_entries_joined, reading.part_of_field hfield,
      reading.part_of_field hfield]
    exact (reading.readsLike_field key hoperators).joined (readsLike_entries h)
  | _, _, .swap d e es => by
    simp only [outcome_entries_joined]
    exact .swap _ _ _
  | _, _, .trans h h' => (readsLike_entries h).trans (readsLike_entries h')

theorem readsLike_groups : ∀ {vs ws : List Value}, ReorderedMembers vs ws →
    ReadsLike (reading.groups vs).outcome (reading.groups ws).outcome
  | _, _, .nil => .refl _
  | _, _, @ReorderedMembers.cons v w hfirst vs ws h => by
    have hnested := readsLike_nestedIn hfirst
    rw [reading.outcome_groups_joined v vs, reading.outcome_groups_joined w ws]
    refine ReadsLike.joined ?_ (readsLike_groups h)
    cases hfirst with
    | refl => exact .refl _
    | map => exact hnested
    | list | tuple => exact .refl _
  | _, _, .swap v w vs => by
    rw [reading.outcome_groups_joined v (w :: vs), reading.outcome_groups_joined w vs,
      reading.outcome_groups_joined w (v :: vs), reading.outcome_groups_joined v vs]
    exact .swap _ _ _
  | _, _, .trans h h' => (readsLike_groups h).trans (readsLike_groups h')

end

/-- A filter in another order is read as a formula that says the same. -/
theorem outcome_filter_reordered {where_ where' : Value} (h : Reordered where_ where') {f : Formula α}
    (hf : (reading.filter where_).outcome = .ok f) :
    ∃ ps qs, f = .conj ps ∧ (reading.filter where').outcome = .ok (.conj qs) ∧ SameParts ps qs := by
  have hself (hf' : (reading.filter where_).outcome = .ok f) : ∃ ps, f = .conj ps := by
    obtain ⟨stripped, lines, -, hf'⟩ := runFrom_bind_eq_ok.mp (runFrom_eq hf')
    obtain ⟨parts, lines', -, hf'⟩ := runFrom_bind_eq_ok.mp hf'
    exact ⟨parts, (Except.ok.inj (Prod.mk.inj hf').1).symm⟩
  obtain ⟨ps, rfl⟩ := hself hf
  cases h with
  | refl => exact ⟨ps, ps, rfl, hf, .of_perm (.refl ps)⟩
  | map h =>
    rw [outcome_filter_map] at hf ⊢
    obtain ⟨_, hps, hconj⟩ := Outcome.map_eq_ok.mp hf
    obtain rfl := Formula.conj.inj hconj
    obtain ⟨qs, hqs, hsame⟩ := reading.readsLike_entries h _ hps
    exact ⟨_, qs, rfl, by rw [hqs]; rfl, hsame⟩
  | @list vs ws h =>
    cases vs with
    | nil =>
      obtain rfl := List.length_eq_zero_iff.mp h.length_eq.symm
      exact ⟨ps, ps, rfl, hf, .of_perm (.refl ps)⟩
    | cons v vs => cases hf
  | @tuple vs ws h =>
    cases vs with
    | nil =>
      obtain rfl := List.length_eq_zero_iff.mp h.length_eq.symm
      exact ⟨ps, ps, rfl, hf, .of_perm (.refl ps)⟩
    | cons v vs => cases hf

end Reading

/-! ## Predicates and clauses -/

/-- Whether each single comparison of a filter has an answer for a record. -/
def ComparesOn (where_ : Value) (types : Option (Entries AttributeType)) (record : Record) : Prop :=
  ∀ f, ((recordReading types).filter where_).run.2 = .ok f →
    ∀ c ∈ f.leaves, ∃ answer, c.holdsFor record = .ok answer

/-- A record satisfies a filter in another order as well, if each single comparison has an answer. -/
theorem predicate_of_reordered {where_ where' : Value} (h : Reordered where_ where')
    {types : Option (Entries AttributeType)} {predicate : Predicate}
    (hpredicate : (Predicate.ofFilter where_ types).run.2 = .ok predicate) :
    ∃ predicate', (Predicate.ofFilter where' types).run.2 = .ok predicate' ∧
      ∀ record, ComparesOn where_ types record → predicate' record = predicate record := by
  obtain ⟨f, hf, rfl⟩ := Outcome.map_eq_ok.mp ((outcome_map_filter _ where_ _).symm.trans hpredicate)
  obtain ⟨ps, qs, rfl, hqs, hsame⟩ := (recordReading types).outcome_filter_reordered h hf
  refine ⟨_, (outcome_map_filter _ where' _).trans (by rw [hqs]; rfl), fun record hcompares => ?_⟩
  have hanswers : ∀ c ∈ leavesOf ps, c.holdsFor record = .ok (c.holdsFor record).get := by
    intro c hc
    obtain ⟨answer, hanswer⟩ := hcompares _ hf c hc
    rw [hanswer]
    rfl
  have hanswers' : ∀ c ∈ leavesOf qs, c.holdsFor record = .ok (c.holdsFor record).get :=
    fun c hc => hanswers c ((hsame.leaves c).mpr hc)
  show allHoldFor record qs = allHoldFor record ps
  rw [allHoldFor_eq_ok hanswers, allHoldFor_eq_ok hanswers', hsame.all]

/-- A filter in another order selects the same rows. -/
theorem clause_of_reordered {where_ where' : Value} (h : Reordered where_ where') {m : Model}
    {clause : Clause Comparison} (hclause : (toClause where_ m).run.2 = .ok clause) :
    ∃ clause', (toClause where' m).run.2 = .ok clause' ∧
      ∀ (db : Database) t test, db.tableAndTest m clause = .ok (t, test) →
        ∃ test', db.tableAndTest m clause' = .ok (t, test') ∧
          ∀ row, test'.selects row = test.selects row := by
  obtain ⟨f, hf, rfl⟩ := Outcome.map_eq_ok.mp ((outcome_map_filter _ where_ _).symm.trans hclause)
  obtain ⟨ps, qs, rfl, hqs, hsame⟩ := (storeReading m).outcome_filter_reordered h hf
  have hleaves (c : Comparison) : c ∈ (Clause.ofFormula (.conj ps)).leaves ↔
      c ∈ (Clause.ofFormula (.conj qs)).leaves := by
    simpa [Clause.ofFormulas, Clause.leavesOf] using hsame.conj.compared c
  refine ⟨_, (outcome_map_filter _ where' _).trans (by rw [hqs]; rfl), fun db t test htest => ?_⟩
  obtain ⟨ht, hready, rfl⟩ := Database.tableAndTest_eq_ok.mp htest
  refine ⟨_, Database.tableAndTest_eq_ok.mpr ⟨ht, fun c hc => hready c ((hleaves c).mpr hc), rfl⟩,
    fun row => ?_⟩
  rw [Test.selects_eq_eval, Test.selects_eq_eval, Clause.eval_map, Clause.eval_map,
    Clause.eval_ofFormula, Clause.eval_ofFormula, Formula.eval, Formula.eval, hsame.all]

/-- Only the known conditions of a filter count.  Both stores read a filter exactly as what is left of it
without the parts that nobody knows; and a filter in another order is accepted as well, selects the same
rows, and the same records of those for which each single comparison has an answer. -/
theorem only_known_conditions_count (where_ : Value) :
    (∀ types, (Predicate.ofFilter (clean where_) types).run.2 = (Predicate.ofFilter where_ types).run.2) ∧
    (∀ m, (toClause (clean where_) m).run.2 = (toClause where_ m).run.2) ∧
    ∀ where', Reordered where_ where' →
      (∀ types predicate, (Predicate.ofFilter where_ types).run.2 = .ok predicate →
        ∃ predicate', (Predicate.ofFilter where' types).run.2 = .ok predicate' ∧
          ∀ record, ComparesOn where_ types record → predicate' record = predicate record) ∧
      ∀ m clause, (toClause where_ m).run.2 = .ok clause →
        ∃ clause', (toClause where' m).run.2 = .ok clause' ∧
          ∀ (db : Database) t test, db.tableAndTest m clause = .ok (t, test) →
            ∃ test', db.tableAndTest m clause' = .ok (t, test') ∧
              ∀ row, test'.selects row = test.selects row := by
  refine ⟨fun types => ?_, fun m => ?_, fun where' h =>
    ⟨fun types predicate => predicate_of_reordered h, fun m clause => clause_of_reordered h⟩⟩
  · have hsame := (recordReading types).outcome_filter_clean where_
    exact (outcome_map_filter _ _ _).trans ((congrArg _ hsame).trans (outcome_map_filter _ _ _).symm)
  · have hsame := (storeReading m).outcome_filter_clean where_
    exact (outcome_map_filter _ _ _).trans ((congrArg _ hsame).trans (outcome_map_filter _ _ _).symm)

/-- A filter with parts that nobody knows, for appointments with a number above five that are at no time or
have a number from six to eight. -/
def noisyFilter : Value :=
  .map [("$transform", .int 1), ("n", .map [("$gt", .int 5), ("$near", .text "here")]), ("$and", .list []),
    ("$or", .list [.map [("at", .null)],
      .map [("$not", .int 0), ("n", .map [("$lt", .int 9), ("$gte", .int 6)])]])]

/-- That filter with its keys, operators and members the other way round. -/
def reversedFilter : Value :=
  .map [("$or", .list [.map [("n", .map [("$gte", .int 6), ("$lt", .int 9)]), ("$not", .int 0)],
      .map [("at", .null)]]),
    ("$and", .list []), ("n", .map [("$near", .text "here"), ("$gt", .int 5)]), ("$transform", .int 1)]

theorem reordered_reversedFilter : Reordered noisyFilter reversedFilter := by
  have hkey : "$or".startsWith "$" = true := String.startsWith_string_iff.mpr ⟨['o', 'r'], by decide⟩
  have hfield : "n".startsWith "$" = false := String.startsWith_string_eq_false_iff.mpr (by decide)
  refine .map (.trans (.keep _ (.field hfield (List.Perm.swap _ _ []) (.keep _ (.group hkey (.list ?_) .nil))))
    (.of_perm (List.reverse_perm _).symm))
  refine .trans (.cons (.refl _) (.cons (.map ?_) .nil)) (.swap _ _ [])
  exact .trans (.keep _ (.field hfield (List.Perm.swap _ _ []) .nil)) (.swap _ _ [])

/-- An appointment at no time. -/
def openAppointment : Record := [("n", .int 7), ("at", .null)]

/-- What nobody knows and the order of the rest do not count for that filter. -/
theorem reversed_filter_selects_alike : Reordered noisyFilter reversedFilter ∧
    clean noisyFilter = .map [("n", .map [("$gt", .int 5)]),
      ("$or", .list [.map [("at", .null)], .map [("n", .map [("$lt", .int 9), ("$gte", .int 6)])]])] ∧
    (Predicate.ofFilter (clean noisyFilter) (some appointment.attributeTypes)).run.2 =
      (Predicate.ofFilter noisyFilter (some appointment.attributeTypes)).run.2 ∧
    ComparesOn noisyFilter (some appointment.attributeTypes) openAppointment ∧
    (∃ predicate predicate',
      (Predicate.ofFilter noisyFilter (some appointment.attributeTypes)).run.2 = .ok predicate ∧
      (Predicate.ofFilter reversedFilter (some appointment.attributeTypes)).run.2 = .ok predicate' ∧
      predicate openAppointment = .ok true ∧ predicate' openAppointment = predicate openAppointment) ∧
    ∃ clause clause', (toClause noisyFilter appointment).run.2 = .ok clause ∧
      (toClause reversedFilter appointment).run.2 = .ok clause' ∧
      ∀ (db : Database) t test, db.tableAndTest appointment clause = .ok (t, test) →
        ∃ test', db.tableAndTest appointment clause' = .ok (t, test') ∧
          ∀ row, test'.selects row = test.selects row := by
  obtain ⟨hpredicate, -, hreordered⟩ := only_known_conditions_count noisyFilter
  have hreads : ((recordReading (some appointment.attributeTypes)).filter noisyFilter).run.2 = .ok
      (.conj [.leaf ⟨"n", some .int, .gt, .int 5⟩, .disj [
        .conj [.leaf ⟨"at", some .datetime, .eq, .null⟩],
        .conj [.leaf ⟨"n", some .int, .lt, .int 9⟩, .leaf ⟨"n", some .int, .gte, .int 6⟩]]]) := by cbv
  have hcompares : ComparesOn noisyFilter (some appointment.attributeTypes) openAppointment := by
    intro f hf
    obtain rfl := Except.ok.inj (hreads.symm.trans hf)
    intro c hc
    simp only [Formula.leaves, Formula.leavesOf, List.append_nil, List.cons_append, List.nil_append,
      List.mem_cons, List.not_mem_nil, or_false] at hc
    rcases hc with rfl | rfl | rfl | rfl <;> exact ⟨_, by cbv⟩
  obtain ⟨hrecords, hrows⟩ := hreordered reversedFilter reordered_reversedFilter
  have hpredicate' : (Predicate.ofFilter noisyFilter (some appointment.attributeTypes)).run.2 = .ok _ :=
    (outcome_map_filter _ noisyFilter _).trans (congrArg (Except.map _) hreads)
  obtain ⟨predicate', haccepts, hsame⟩ := hrecords _ _ hpredicate'
  have hclause : ∃ clause, (toClause noisyFilter appointment).run.2 = .ok clause := ⟨_, by cbv⟩
  obtain ⟨clause, hclause⟩ := hclause
  obtain ⟨clause', haccepts', hselects⟩ := hrows _ _ hclause
  exact ⟨reordered_reversedFilter, by cbv, hpredicate _, hcompares,
    ⟨_, predicate', hpredicate', haccepts, by cbv, hsame _ hcompares⟩,
    clause, clause', hclause, haccepts', hselects⟩

end Filter

end TwinStore
