import TwinStore.Proofs.CascadeClosure

/-!
# How deletions end

A deletion that is not done can take a step, and it cannot take steps forever: there are only so many
records to claim.  When it is done it has destroyed exactly the closure of what it was asked for.

Main results:

- Theorem `Invariant.exists_step`: a deletion that is not done can take a step.
- Theorem `Invariant.add_room_le`: the number of steps is bounded.
- Theorem `Invariant.start`: the invariant holds at the start.
- Theorem `Invariant.destroyed_iff`: a deletion that is done has destroyed the closure.
-/

namespace TwinStore.Twin

open Primary Filter

namespace Task

theorem mem_searchesAll {part task : Task} {parts : List Task} (hpart : part ∈ parts)
    (h : task ∈ part.searches) : task ∈ searchesAll parts := by
  obtain ⟨before, after, rfl⟩ := List.append_of_mem hpart
  rw [searchesAll_append, searchesAll]
  exact List.mem_append_right _ (List.mem_append_left _ h)

theorem mem_heldAll {part : Task} {item : Item} {parts : List Task} (hpart : part ∈ parts)
    (h : item ∈ part.held) : item ∈ heldAll parts := by
  obtain ⟨before, after, rfl⟩ := List.append_of_mem hpart
  rw [heldAll_append, heldAll]
  exact List.mem_append_right _ (List.mem_append_left _ h)

end Task

namespace Invariant

variable {d : Deployment} {ref : CorrelationRef} {db : Database} {roots : List Item}
  {first : String × Value} {p p' : Progress}

/-! ## Progress -/

/-- What a query of a search gives when it is run. -/
theorem exists_ask_run (ref : CorrelationRef) (hs : Setting d.registry db roots) (h : Invariant d.registry db roots first p)
    {model : String} {where_ : Value} (hmem : .ask model where_ ∈ p.task.searches) :
    ∃ rows s', runFrom (query d (some ref) model (.filter where_) .null []) p.stores =
      (.ok (some rows), s') := by
  obtain ⟨rows, hgives, _⟩ := h.exists_ask ref hs hmem
  obtain ⟨s', hrun, _⟩ := hgives p.stores rfl
  exact ⟨rows, s', hrun⟩

/-- What the destruction of a held item gives when it is run. -/
theorem exists_destroy_run (ref : CorrelationRef) (hs : Setting d.registry db roots)
    (h : Invariant d.registry db roots first p) {item : Item} (hmem : item ∈ p.task.held) :
    ∃ b s', runFrom (Primary.destroy d (some ref) item.model (.map item.record)) p.stores =
      (.ok (some b), s') := by
  obtain ⟨b, _, hgives, _⟩ := h.exists_destroy ref hs hmem
  obtain ⟨s', hrun, _⟩ := hgives p.stores rfl
  exact ⟨b, s', hrun⟩

/-- A task that is not done can take a step, wherever it stands. -/
theorem exists_step_of (hs : Setting d.registry db roots)
    (h : Invariant d.registry db roots first p) (task : Task)
    (hsearches : ∀ t ∈ task.searches, t ∈ p.task.searches)
    (hheld : ∀ o ∈ task.held, o ∈ p.task.held) (hne : task ≠ .done) :
    ∃ p', Step d ref ⟨p.stores, p.pending, p.calls, task⟩ p' := by
  match task with
  | .ask model where_ =>
    obtain ⟨rows, s', hrun⟩ := h.exists_ask_run ref hs (hsearches _ List.mem_cons_self)
    exact ⟨_, .ask hrun⟩
  | .claim model where_ rows =>
    obtain ⟨fresh, pending', below, hclaim, htargets, _⟩ :=
      h.exists_claim hs (hsearches _ List.mem_cons_self)
    exact ⟨_, .claim hclaim htargets⟩
  | .cascade model where_ fresh parts =>
    by_cases hall : ∀ part ∈ parts, part = .done
    · exact ⟨_, .joined hall⟩
    · push Not at hall
      obtain ⟨part, hpart, hne⟩ := hall
      obtain ⟨⟨s', pending', calls', part'⟩, hstep⟩ := exists_step_of hs h part
        (fun t ht => hsearches t (Task.mem_searchesAll hpart ht))
        (fun o ho => hheld o (List.mem_append_right _ (Task.mem_heldAll hpart ho))) hne
      obtain ⟨before, after, rfl⟩ := List.append_of_mem hpart
      exact ⟨_, .part hstep⟩
  | .destroy model where_ [] => exact ⟨⟨p.stores, _, _, _⟩, .destroyed rfl⟩
  | .destroy model where_ (row :: left) =>
    obtain ⟨b, s', hrun⟩ := h.exists_destroy_run ref hs (hheld ⟨model, row⟩
      List.mem_cons_self)
    exact ⟨_, @Step.destroy _ _ _ _ _ _ _ _ [] left row _ hrun⟩
  | .clear model where_ => exact ⟨⟨p.stores, _, _, _⟩, .clear rfl rfl⟩
  | .done => exact absurd rfl hne
termination_by sizeOf task
decreasing_by
  have hlt := List.sizeOf_lt_of_mem hpart
  simp only [Task.cascade.sizeOf_spec]
  omega

/-- A deletion that is not done can take a step. -/
theorem exists_step (hs : Setting d.registry db roots) (h : Invariant d.registry db roots first p)
    (hne : p.task ≠ .done) : ∃ p', Step d ref p p' :=
  h.exists_step_of hs p.task (fun _ => id) (fun _ => id) hne

/-! ## Termination -/

/-- No more records are claimed than are stored. -/
theorem length_claimed_le (hs : Setting d.registry db roots)
    (h : Invariant d.registry db roots first p) : p.claimed.length ≤ db.size := by
  have hsub : p.claimed ⊆ db.tables.flatMap fun e =>
      e.2.rows.map fun row => Item.mk e.1 (Database.recordOf e.2.model row).get := by
    intro o ho
    obtain ⟨m, t, row, hm, ht, hrow, hrecord⟩ := hs.holds (h.doomed o ho)
    obtain ⟨t', ht', horderly⟩ := hs.orderly o.model m hm
    obtain rfl : t = t' := Except.ok.inj (ht.symm.trans ht')
    have hname : m.name = o.model := hs.sound.name_eq (Registry.model?_of_table hm)
    have hmem : (o.model, t) ∈ db.tables := by
      rw [← hname]
      rw [Database.table] at ht
      cases hget : Entries.get? db.tables m.name with
      | none => simp [hget] at ht
      | some t' =>
        rw [hget] at ht
        obtain rfl : t' = t := Except.ok.inj ht
        exact Entries.mem_of_get? hget
    refine List.mem_flatMap.mpr ⟨_, hmem, List.mem_map.mpr ⟨row, hrow, ?_⟩⟩
    rw [horderly.model_eq, hrecord]
    rfl
  have hlength := (List.subperm_of_subset h.nodup hsub).length_le
  rw [List.length_flatMap] at hlength
  simpa [Database.size] using hlength

/-- How many steps a deletion in progress can still take: as many as its tasks have left, and as many
as the records that it may still claim make room for. -/
def room (r : Registry) (db : Database) (p : Progress) : Nat :=
  p.task.weight + (db.size - p.pending.length) * (5 * relationCount r + 1)

/-- Every step takes from the room. -/
theorem room_lt (hs : Setting d.registry db roots) (h : Invariant d.registry db roots first p)
    (hstep : Step d ref p p') : room d.registry db p' < room d.registry db p := by
  obtain ⟨n, hpending, hweight⟩ := hstep.weight_lt
  have hbound := (h.step hs hstep).length_claimed_le hs
  rw [← (h.step hs hstep).length, hpending] at hbound
  have hsplit : db.size - p.pending.length = (db.size - p'.pending.length) + n := by omega
  rw [room, room, hsplit, Nat.add_mul]
  omega

/-- The steps of a run and what is left of the room are no more than the room was. -/
theorem add_room_le (hs : Setting d.registry db roots) (h : Invariant d.registry db roots first p)
    {n : Nat} (hruns : Runs d ref n p p') :
    n + room d.registry db p' ≤ room d.registry db p := by
  induction hruns with
  | none => exact (Nat.zero_add _).le
  | step hruns hstep ih =>
    have hlt := (h.runs hs hruns).room_lt hs hstep
    have hle := ih h
    omega

/-! ## Start and end -/

/-- A query that is answered for some stores is answered for all stores of the same content. -/
theorem exists_query_of_content {s s' s₀ : Stores} {model : String} {m : Model} {where_ : Value}
    {rows : List Record} {given : Option CorrelationRef} (hm : d.registry.table model = .ok m)
    (hcontent : s₀.content = s.content)
    (hquery : runFrom (query d given model (.filter where_) .null []) s = (.ok (some rows), s')) :
    ∃ s₁, runFrom (query d given model (.filter where_) .null []) s₀ = (.ok (some rows), s₁) := by
  have hgives := query_gives hm given (.filter where_) [] s.content
  have hanswer := (hgives.outcome_eq rfl hquery).1
  obtain ⟨s₁, hrun, _⟩ := hgives s₀ hcontent
  exact ⟨s₁, by rw [hrun, ← hanswer]⟩

/-- A deletion by a filter that the primary store can answer starts with the invariant. -/
theorem start {s s' : Stores} {model : String} {m : Model} {where_ : Value} {rows : List Record}
    {given : Option CorrelationRef} (hr : d.registry.IsSound) (hkeys : d.registry.HasKeys)
    (hdb : s.database.IsOrderly d.registry) (hplanned : s.plannedDeletions = [])
    (hm : d.registry.table model = .ok m)
    (hquery : runFrom (query d given model (.filter where_) .null []) s = (.ok (some rows), s')) :
    Setting d.registry s.database (itemsOf model rows) ∧
      Invariant d.registry s.database (itemsOf model rows) (model, where_)
        ⟨s, [], [], .ask model where_⟩ := by
  obtain ⟨test, htest⟩ := exists_tests hm hquery
  obtain ⟨t, ht, horderly⟩ := hdb model m hm
  have hrows := ((query_gives_stored (c := s.content) hm ht horderly htest given).outcome_eq rfl
    hquery).1
  obtain rfl := Option.some.inj (Except.ok.inj hrows)
  have hfound := mem_found_iff (Database.without_nil d.registry s.database) hdb hm ht htest
  have hs : Setting d.registry s.database (itemsOf model (recordsOf t test)) := by
    refine ⟨hr, hkeys, hdb, fun o ho => ?_⟩
    obtain ⟨⟨rfl, m', t', _, row, hm', ht', _, hrow, hrecord, _⟩, _⟩ := (hfound o).mp ho
    exact ⟨m', t', row, hm', ht', hrow, hrecord⟩
  refine ⟨hs, hplanned, Database.without_nil _ _, ?_, rfl, List.nodup_nil, nofun, fun task htask => ?_,
    fun o ho hdue => Or.inr ⟨.ask model where_, List.mem_cons_self, ?_⟩, fun name filter hopen => ?_,
    nofun⟩
  · intro identity
    simp [Progress.claimed, Task.held, destroyed]
  · obtain rfl := List.mem_singleton.mp htask
    exact ⟨⟨m, test, hm, htest⟩, fun o hseeks => .root ((hfound o).mpr ⟨hseeks, List.not_mem_nil⟩)⟩
  · rcases hdue with hroot | ⟨owner, howner, _⟩
    · exact ((hfound o).mp hroot).1
    · cases howner
  · obtain ⟨rfl, rfl⟩ := Task.ask.inj (List.mem_singleton.mp hopen)
    exact Or.inl rfl

/-- A deletion that is done has destroyed exactly what must be destroyed. -/
theorem destroyed_iff (hs : Setting d.registry db roots) (h : Invariant d.registry db roots first p)
    (hdone : p.task = .done) (o : Item) :
    o ∈ destroyed p.calls ↔ Doomed d.registry db roots o := by
  have hclaimed : p.claimed = destroyed p.calls := by
    rw [Progress.claimed, hdone, Task.held, List.nil_append]
  have hclosed (o : Item) (ho : db.Holds d.registry o) (hdue : IsDue d.registry roots p.claimed o) :
      o ∈ p.claimed := by
    refine (h.due o ho hdue).resolve_right ?_
    rintro ⟨task, htask, _⟩
    rw [hdone] at htask
    cases htask
  rw [← hclaimed]
  refine ⟨h.doomed o, fun hdoomed => ?_⟩
  induction hdoomed with
  | root hroot => exact hclosed _ (hs.stored _ hroot) (Or.inl hroot)
  | follow _ hstored hbelongs ih => exact hclosed _ hstored (Or.inr ⟨_, ih, hbelongs⟩)

/-- Nothing is destroyed twice. -/
theorem nodup_destroyed (h : Invariant d.registry db roots first p) : (destroyed p.calls).Nodup :=
  h.nodup.sublist (List.sublist_append_right _ _)

end Invariant

end TwinStore.Twin
