import TwinStore.Primary.Condition
import TwinStore.Proofs.Requirement

/-!
# The truth of clauses

A clause selects a row if it is true there; by the logic of three truth values it is true exactly
where its conditions make it true, whether the others are false or unknown.  Dropping and flattening
groups does not change that.

Main definitions:

- `Clause.leaves`, `Clause.map`, `Clause.eval`: the conditions of a clause, their replacement and
  the truth of the clause.

Main results:

- Theorem `Clause.eval_ofFormula`: the clause of a formula is true where the formula is.
- Theorem `Test.selects_eq_eval`: a clause selects the rows on which its conditions make it true.
- Theorem `Clause.mapOutcome_eq_ok`: conditions that can all be replaced are replaced.
-/

namespace TwinStore.Filter.Clause

variable {α β : Type}

mutual

/-- The conditions of a clause. -/
def leaves : Clause α → List α
  | always => []
  | truth => []
  | compare c => [c]
  | and parts => leavesOf parts
  | or parts => leavesOf parts

/-- The conditions of several clauses. -/
def leavesOf : List (Clause α) → List α
  | [] => []
  | part :: rest => leaves part ++ leavesOf rest

end

mutual

/-- The clause with every condition replaced. -/
def map (g : α → β) : Clause α → Clause β
  | always => always
  | truth => truth
  | compare c => compare (g c)
  | and parts => and (mapAll g parts)
  | or parts => or (mapAll g parts)

/-- Several clauses with every condition replaced. -/
def mapAll (g : α → β) : List (Clause α) → List (Clause β)
  | [] => []
  | part :: rest => map g part :: mapAll g rest

end

mutual

/-- Whether a clause is true, given the conditions that are. -/
def eval (p : α → Bool) : Clause α → Bool
  | always => true
  | truth => true
  | compare c => p c
  | and parts => evalAll p parts
  | or parts => evalAny p parts

/-- Whether all clauses are true. -/
def evalAll (p : α → Bool) : List (Clause α) → Bool
  | [] => true
  | part :: rest => eval p part && evalAll p rest

/-- Whether some clause is true. -/
def evalAny (p : α → Bool) : List (Clause α) → Bool
  | [] => false
  | part :: rest => eval p part || evalAny p rest

end

/-! ## Lists of clauses -/

theorem evalAll_append (p : α → Bool) (xs ys : List (Clause α)) :
    evalAll p (xs ++ ys) = (evalAll p xs && evalAll p ys) := by
  induction xs with
  | nil => rfl
  | cons x xs ih => rw [List.cons_append, evalAll, evalAll, ih, Bool.and_assoc]

theorem evalAny_append (p : α → Bool) (xs ys : List (Clause α)) :
    evalAny p (xs ++ ys) = (evalAny p xs || evalAny p ys) := by
  induction xs with
  | nil => rfl
  | cons x xs ih => rw [List.cons_append, evalAny, evalAny, ih, Bool.or_assoc]

@[simp]
theorem leavesOf_append (xs ys : List (Clause α)) :
    leavesOf (xs ++ ys) = leavesOf xs ++ leavesOf ys := by
  induction xs with
  | nil => rfl
  | cons x xs ih => rw [List.cons_append, leavesOf, leavesOf, ih, List.append_assoc]

/-- A condition of some clause is a condition of all of them together. -/
theorem mem_leavesOf {a : α} {cs : List (Clause α)} :
    a ∈ leavesOf cs ↔ ∃ c ∈ cs, a ∈ c.leaves := by
  induction cs with
  | nil => simp [leavesOf]
  | cons c cs ih => simp [leavesOf, ih]

/-- The constant of the empty filter is true. -/
theorem eval_of_isAlways {p : α → Bool} {c : Clause α} (h : c.isAlways = true) :
    c.eval p = true := by
  cases c <;> first | rfl | cases h

/-- A clause is true where its conjuncts are. -/
theorem evalAll_conjuncts (p : α → Bool) (c : Clause α) : evalAll p c.conjuncts = c.eval p := by
  cases c <;> simp [conjuncts, evalAll, eval]

/-- A clause is true where one of its disjuncts is. -/
theorem evalAny_disjuncts (p : α → Bool) (c : Clause α) : evalAny p c.disjuncts = c.eval p := by
  cases c <;> simp [disjuncts, evalAny, eval]

/-- Flattening does not change a conjunction. -/
theorem evalAll_flatMap (p : α → Bool) (cs : List (Clause α)) :
    evalAll p (cs.flatMap conjuncts) = evalAll p cs := by
  induction cs with
  | nil => rfl
  | cons c cs ih => rw [List.flatMap_cons, evalAll_append, evalAll_conjuncts, ih, evalAll]

/-- Flattening does not change a disjunction. -/
theorem evalAny_flatMap (p : α → Bool) (cs : List (Clause α)) :
    evalAny p (cs.flatMap disjuncts) = evalAny p cs := by
  induction cs with
  | nil => rfl
  | cons c cs ih => rw [List.flatMap_cons, evalAny_append, evalAny_disjuncts, ih, evalAny]

/-- Empty filters say nothing in a conjunction. -/
theorem evalAll_filter (p : α → Bool) (cs : List (Clause α)) :
    evalAll p (cs.filter (!·.isAlways)) = evalAll p cs := by
  induction cs with
  | nil => rfl
  | cons c cs ih =>
    rw [List.filter_cons, evalAll]
    by_cases h : c.isAlways = true
    · rw [if_neg (by simp [h]), ih, eval_of_isAlways h, Bool.true_and]
    · rw [if_pos (by simp [h]), evalAll, ih]

/-- An empty filter makes a disjunction true. -/
theorem evalAny_of_any {p : α → Bool} {cs : List (Clause α)} (h : cs.any isAlways = true) :
    evalAny p cs = true := by
  induction cs with
  | nil => cases h
  | cons c cs ih =>
    rw [List.any_cons, Bool.or_eq_true] at h
    rw [evalAny, Bool.or_eq_true]
    exact h.imp eval_of_isAlways ih

/-- A conjunction is true where all its parts are. -/
theorem eval_conjunction (p : α → Bool) (cs : List (Clause α)) :
    (conjunction cs).eval p = evalAll p cs := by
  rw [← evalAll_filter, conjunction]
  split
  · next h => rw [h]; rfl
  · next c h => rw [h, evalAll, evalAll, Bool.and_true]
  · rw [eval, evalAll_flatMap]

/-- A disjunction is true where one of its parts is. -/
theorem eval_disjunction (p : α → Bool) (cs : List (Clause α)) :
    (disjunction cs).eval p = evalAny p cs := by
  unfold disjunction
  split_ifs with h
  · rw [evalAny_of_any h]
    rfl
  · split
    · rw [evalAny, evalAny, Bool.or_false]
    · rw [eval, evalAny_flatMap]

/-- Flattening keeps conditions. -/
theorem mem_leavesOf_conjuncts {a : α} (c : Clause α) : a ∈ leavesOf c.conjuncts ↔ a ∈ c.leaves := by
  cases c <;> simp [conjuncts, leavesOf, leaves]

theorem mem_leavesOf_disjuncts {a : α} (c : Clause α) : a ∈ leavesOf c.disjuncts ↔ a ∈ c.leaves := by
  cases c <;> simp [disjuncts, leavesOf, leaves]

/-- A conjunction has no other conditions than its parts. -/
theorem leaves_conjunction {a : α} {cs : List (Clause α)} (h : a ∈ (conjunction cs).leaves) :
    a ∈ leavesOf cs := by
  have hsub : ∀ c ∈ cs.filter (!·.isAlways), c ∈ cs := fun c hc => (List.mem_filter.mp hc).1
  rw [mem_leavesOf]
  unfold conjunction at h
  split at h
  · cases h
  · next c heq =>
    rw [heq] at hsub
    exact ⟨c, hsub c (by simp), h⟩
  · rw [leaves, mem_leavesOf] at h
    obtain ⟨c, hc, ha⟩ := h
    obtain ⟨c', hc', hc⟩ := List.mem_flatMap.mp hc
    exact ⟨c', hsub c' hc', (mem_leavesOf_conjuncts c').mp (mem_leavesOf.mpr ⟨c, hc, ha⟩)⟩

/-- A disjunction has no other conditions than its parts. -/
theorem leaves_disjunction {a : α} {cs : List (Clause α)} (h : a ∈ (disjunction cs).leaves) :
    a ∈ leavesOf cs := by
  rw [mem_leavesOf]
  unfold disjunction at h
  split_ifs at h
  · cases h
  · split at h
    · next c _ => exact ⟨c, by simp, h⟩
    · rw [leaves, mem_leavesOf] at h
      obtain ⟨c, hc, ha⟩ := h
      obtain ⟨c', hc', hc⟩ := List.mem_flatMap.mp hc
      exact ⟨c', hc', (mem_leavesOf_disjuncts c').mp (mem_leavesOf.mpr ⟨c, hc, ha⟩)⟩

/-! ## Clauses of formulas -/

mutual

/-- The clause of a formula is true where the formula is. -/
theorem eval_ofFormula (p : α → Bool) : ∀ f : Formula α, (ofFormula f).eval p = f.eval p
  | .leaf c => rfl
  | .conj [] => rfl
  | .conj (part :: rest) => by
    rw [ofFormula, eval_conjunction, evalAll, Formula.eval, Formula.evalAll,
      eval_ofFormula p part, evalAll_ofFormulas p rest]
  | .disj parts => by
    rw [ofFormula, eval_disjunction, Formula.eval, evalAny_ofFormulas p parts]

theorem evalAll_ofFormulas (p : α → Bool) :
    ∀ fs : List (Formula α), evalAll p (ofFormulas fs) = Formula.evalAll p fs
  | [] => rfl
  | f :: fs => by
    rw [ofFormulas, evalAll, Formula.evalAll, eval_ofFormula p f, evalAll_ofFormulas p fs]

theorem evalAny_ofFormulas (p : α → Bool) :
    ∀ fs : List (Formula α), evalAny p (ofFormulas fs) = Formula.evalAny p fs
  | [] => rfl
  | f :: fs => by
    rw [ofFormulas, evalAny, Formula.evalAny, eval_ofFormula p f, evalAny_ofFormulas p fs]

end

mutual

/-- The clause of a formula has no other conditions than the formula. -/
theorem leaves_ofFormula {a : α} : ∀ {f : Formula α}, a ∈ (ofFormula f).leaves → a ∈ f.leaves
  | .leaf c, h => h
  | .conj [], h => by cases h
  | .conj (part :: rest), h => by
    rw [ofFormula] at h
    rw [Formula.leaves, Formula.leavesOf, List.mem_append]
    have hparts := leaves_conjunction h
    rw [leavesOf, List.mem_append] at hparts
    exact hparts.imp leaves_ofFormula leavesOf_ofFormulas
  | .disj parts, h => by
    rw [ofFormula] at h
    exact leavesOf_ofFormulas (leaves_disjunction h)

theorem leavesOf_ofFormulas {a : α} :
    ∀ {fs : List (Formula α)}, a ∈ leavesOf (ofFormulas fs) → a ∈ Formula.leavesOf fs
  | [], h => h
  | f :: fs, h => by
    rw [ofFormulas, leavesOf, List.mem_append] at h
    rw [Formula.leavesOf, List.mem_append]
    exact h.imp leaves_ofFormula leavesOf_ofFormulas

end

/-! ## Replaced conditions -/

mutual

/-- Conditions that can all be replaced are replaced. -/
theorem mapOutcome_eq_ok [Inhabited β] {f : α → Outcome β} :
    ∀ {c : Clause α}, (∀ a ∈ c.leaves, f a = .ok (f a).get) →
      c.mapOutcome f = .ok (c.map fun a => (f a).get)
  | always, _ => rfl
  | truth, _ => rfl
  | compare a, h => by
    rw [mapOutcome, h a (by simp [leaves])]
    rfl
  | and parts, h => by
    rw [mapOutcome, mapOutcomes_eq_ok h]
    rfl
  | or parts, h => by
    rw [mapOutcome, mapOutcomes_eq_ok h]
    rfl

theorem mapOutcomes_eq_ok [Inhabited β] {f : α → Outcome β} :
    ∀ {cs : List (Clause α)}, (∀ a ∈ leavesOf cs, f a = .ok (f a).get) →
      mapOutcomes f cs = .ok (mapAll (fun a => (f a).get) cs)
  | [], _ => rfl
  | c :: cs, h => by
    simp only [leavesOf, List.mem_append] at h
    rw [mapOutcomes, mapOutcome_eq_ok fun a ha => h a (Or.inl ha),
      mapOutcomes_eq_ok fun a ha => h a (Or.inr ha)]
    rfl

end

mutual

/-- The conditions of a clause with replaced conditions are the replacements. -/
theorem leaves_map (g : α → β) : ∀ c : Clause α, (c.map g).leaves = c.leaves.map g
  | always => rfl
  | truth => rfl
  | compare c => rfl
  | and parts => by rw [map, leaves, leaves, leavesOf_mapAll g parts]
  | or parts => by rw [map, leaves, leaves, leavesOf_mapAll g parts]

theorem leavesOf_mapAll (g : α → β) :
    ∀ cs : List (Clause α), leavesOf (mapAll g cs) = (leavesOf cs).map g
  | [] => rfl
  | c :: cs => by
    rw [mapAll, leavesOf, leavesOf, List.map_append, leaves_map g c, leavesOf_mapAll g cs]

end

mutual

/-- A clause with replaced conditions is true if the conditions that came from are. -/
theorem eval_map (p : β → Bool) (g : α → β) : ∀ c : Clause α, (c.map g).eval p = c.eval (p ∘ g)
  | always => rfl
  | truth => rfl
  | compare c => rfl
  | and parts => by rw [map, eval, eval, evalAll_mapAll p g parts]
  | or parts => by rw [map, eval, eval, evalAny_mapAll p g parts]

theorem evalAll_mapAll (p : β → Bool) (g : α → β) :
    ∀ cs : List (Clause α), evalAll p (mapAll g cs) = evalAll (p ∘ g) cs
  | [] => rfl
  | c :: cs => by rw [mapAll, evalAll, evalAll, eval_map p g c, evalAll_mapAll p g cs]

theorem evalAny_mapAll (p : β → Bool) (g : α → β) :
    ∀ cs : List (Clause α), evalAny p (mapAll g cs) = evalAny (p ∘ g) cs
  | [] => rfl
  | c :: cs => by rw [mapAll, evalAny, evalAny, eval_map p g c, evalAny_mapAll p g cs]

end

mutual

/-- Conditions that are replaced twice are replaced at once. -/
theorem map_map {γ : Type} (k : β → γ) (g : α → β) :
    ∀ c : Clause α, (c.map g).map k = c.map (k ∘ g)
  | always => rfl
  | truth => rfl
  | compare c => rfl
  | and parts => by rw [map, map, map, mapAll_mapAll k g parts]
  | or parts => by rw [map, map, map, mapAll_mapAll k g parts]

theorem mapAll_mapAll {γ : Type} (k : β → γ) (g : α → β) :
    ∀ cs : List (Clause α), mapAll k (mapAll g cs) = mapAll (k ∘ g) cs
  | [] => rfl
  | c :: cs => by rw [mapAll, mapAll, mapAll, map_map k g c, mapAll_mapAll k g cs]

end

mutual

/-- The truth of a clause depends on its own conditions only. -/
theorem eval_congr {p q : α → Bool} : ∀ {c : Clause α}, (∀ a ∈ c.leaves, p a = q a) →
    c.eval p = c.eval q
  | always, _ => rfl
  | truth, _ => rfl
  | compare a, h => h a (by simp [leaves])
  | and parts, h => by rw [eval, eval, evalAll_congr h]
  | or parts, h => by rw [eval, eval, evalAny_congr h]

theorem evalAll_congr {p q : α → Bool} : ∀ {cs : List (Clause α)},
    (∀ a ∈ leavesOf cs, p a = q a) → evalAll p cs = evalAll q cs
  | [], _ => rfl
  | c :: cs, h => by
    simp only [leavesOf, List.mem_append] at h
    rw [evalAll, evalAll, eval_congr fun a ha => h a (Or.inl ha),
      evalAll_congr fun a ha => h a (Or.inr ha)]

theorem evalAny_congr {p q : α → Bool} : ∀ {cs : List (Clause α)},
    (∀ a ∈ leavesOf cs, p a = q a) → evalAny p cs = evalAny q cs
  | [], _ => rfl
  | c :: cs, h => by
    simp only [leavesOf, List.mem_append] at h
    rw [evalAny, evalAny, eval_congr fun a ha => h a (Or.inl ha),
      evalAny_congr fun a ha => h a (Or.inr ha)]

end

end TwinStore.Filter.Clause

namespace TwinStore.Primary

open Filter

/-! ## Three truth values -/

/-- A conjunction is true where both parts are. -/
theorem andThree_eq_true (a b : Option Bool) :
    (andThree a b == some true) = ((a == some true) && (b == some true)) := by
  rcases a with _ | _ | _ <;> rcases b with _ | _ | _ <;> rfl

/-- A disjunction is true where one part is. -/
theorem orThree_eq_true (a b : Option Bool) :
    (orThree a b == some true) = ((a == some true) || (b == some true)) := by
  rcases a with _ | _ | _ <;> rcases b with _ | _ | _ <;> rfl

mutual

/-- A clause selects the rows on which its conditions make it true. -/
theorem Test.selects_eq_eval (row : Row) :
    ∀ t : Test, t.selects row = t.eval fun c => c.holds? row == some true
  | .always => rfl
  | .truth => rfl
  | .compare c => rfl
  | .and parts => by
    rw [Test.selects, Test.holds?, Clause.eval, Test.allHold_eq_evalAll row parts]
  | .or parts => by
    rw [Test.selects, Test.holds?, Clause.eval, Test.someHolds_eq_evalAny row parts]

theorem Test.allHold_eq_evalAll (row : Row) : ∀ ts : List Test,
    (Test.allHold? row ts == some true) = Clause.evalAll (fun c => c.holds? row == some true) ts
  | [] => rfl
  | t :: ts => by
    rw [Test.allHold?, andThree_eq_true, Clause.evalAll, ← Test.selects_eq_eval row t,
      Test.allHold_eq_evalAll row ts]
    rfl

theorem Test.someHolds_eq_evalAny (row : Row) : ∀ ts : List Test,
    (Test.someHolds? row ts == some true) = Clause.evalAny (fun c => c.holds? row == some true) ts
  | [] => rfl
  | t :: ts => by
    rw [Test.someHolds?, orThree_eq_true, Clause.evalAny, ← Test.selects_eq_eval row t,
      Test.someHolds_eq_evalAny row ts]
    rfl

end

end TwinStore.Primary
