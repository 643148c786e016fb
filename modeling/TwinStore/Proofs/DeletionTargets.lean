import TwinStore.Proofs.KeyFilters
import TwinStore.Proofs.QuietFilters

/-!
# Targets of a deletion

A deletion claims the records that it finds, and goes on with the records that refer to them.  These
are named by the values of their keys, under the name of an attribute, so the filter compares that
attribute with those values and nothing else.

Main results:

- Theorem `mem_of_mem_claimRows`: claimed records are among those that were found.
- Theorem `exists_of_mem_targets`: the filter for records that refer to others compares one field.
-/

namespace TwinStore

open Filter

/-- The filter for records of which a field has one of some values compares that field with them. -/
theorem Filter.mentions_amongFilter {field : String} (h : Text.isIdentifier field = true)
    (keys : List Value) : mentions (amongFilter field keys) = [⟨field, .isIn, .list keys⟩] := by
  obtain ⟨hdollar, htransform⟩ := Text.not_startsWith_of_isIdentifier h
  rw [amongFilter, mentions, mentionedBy, if_neg htransform, hdollar, if_neg Bool.false_ne_true]
  rfl

/-- A filter that names one field and a value compares them. -/
theorem Filter.mentions_equals {field : String} (h : Text.isIdentifier field = true) {v : Value}
    (hv : v.isMap = false) : mentions (.map [(field, v)]) = [⟨field, .eq, v⟩] := by
  obtain ⟨hdollar, htransform⟩ := Text.not_startsWith_of_isIdentifier h
  rw [mentions, mentionedBy, if_neg htransform, hdollar, if_neg Bool.false_ne_true]
  cases v <;> first | rfl | cases hv

namespace Twin

variable {r : Registry} {model : String} {rows : List Record}

/-- Claimed records are among those that were found. -/
theorem mem_of_mem_claimRows {fresh : List Record} {pending pending' : List Identity}
    (h : claimRows r model rows pending = .ok (fresh, pending')) {row : Record} (hrow : row ∈ fresh) :
    row ∈ rows := by
  obtain ⟨named, hnamed, h⟩ := Outcome.bind_eq_ok.mp h
  obtain ⟨rfl, rfl⟩ := Prod.mk.inj (Except.ok.inj h)
  obtain ⟨e, he, rfl⟩ := List.mem_map.mp hrow
  obtain ⟨row', hrow', heq⟩ := Outcome.exists_of_mem_mapM hnamed (List.mem_filter.mp he).1
  obtain ⟨_, _, heq⟩ := Outcome.bind_eq_ok.mp heq
  obtain rfl := Except.ok.inj heq
  exact hrow'

/-- Listed keys are among the values. -/
theorem mem_of_mem_distinctKeys {vs keys : List Value} (h : distinctKeys vs = .ok keys) {k : Value}
    (hk : k ∈ keys) : k ∈ vs := by
  induction vs generalizing keys with
  | nil =>
    obtain rfl : [] = keys := Except.ok.inj h
    cases hk
  | cons v vs ih =>
    obtain ⟨key, hkey, h⟩ := Outcome.bind_eq_ok.mp h
    obtain ⟨others, hothers, h⟩ := Outcome.bind_eq_ok.mp h
    have hself : key = v := by
      unfold Value.asKey at hkey
      split_ifs at hkey
      exact (Except.ok.inj hkey).symm
    split_ifs at h
    · obtain rfl := Except.ok.inj h
      exact List.mem_cons_of_mem v (ih hothers hk)
    · obtain rfl := Except.ok.inj h
      rcases List.mem_cons.mp hk with rfl | hk
      · exact hself ▸ List.mem_cons_self
      · exact List.mem_cons_of_mem v (ih hothers (List.mem_filter.mp hk).1)

/-- The filter for the records that belong to some records by a relation compares the field of the
relation with keys of these. -/
theorem exists_of_mem_targets (hr : r.IsSound) {below : List (String × Value)}
    (h : targets r model rows = .ok below) {target : String × Value} (htarget : target ∈ below) :
    ∃ e ∈ r.relationsOf model, e.2.cascades = true ∧ target.1 = e.2.name ∧
      ∃ keys, (∀ k ∈ keys, ∃ row ∈ rows, k = row.field e.2.thisKey) ∧
        target.2 = amongFilter e.2.otherKey keys ∧
        mentions target.2 = [⟨e.2.otherKey, .isIn, .list keys⟩] := by
  obtain ⟨filters, hfilters, h⟩ := Outcome.bind_eq_ok.mp h
  obtain rfl := Except.ok.inj h
  obtain ⟨filter, hfilter, heq⟩ := List.mem_filterMap.mp htarget
  obtain ⟨e, he, htarget⟩ := Outcome.exists_of_mem_mapM hfilters hfilter
  obtain ⟨hmem, hcascades⟩ := List.mem_filter.mp he
  obtain ⟨keys, hkeys, htarget⟩ := Outcome.bind_eq_ok.mp htarget
  split_ifs at htarget
  · obtain rfl := Except.ok.inj htarget
    cases heq
  · obtain rfl := Except.ok.inj htarget
    obtain rfl := Option.some.inj heq
    obtain ⟨_, _, other, _, hother, _, hattribute⟩ := hr.isRelated hmem
    obtain ⟨b, hb, hname⟩ := List.any_eq_true.mp hattribute
    have hidentifier := (hr.isDeclared hother).attributes b hb
    rw [beq_iff_eq.mp hname] at hidentifier
    refine ⟨e, hmem, hcascades, rfl, keys, fun k hk => ?_, rfl, mentions_amongFilter hidentifier keys⟩
    obtain ⟨row, hrow, rfl⟩ := List.mem_map.mp (mem_of_mem_distinctKeys hkeys hk)
    exact ⟨row, hrow, rfl⟩

end Twin

end TwinStore
