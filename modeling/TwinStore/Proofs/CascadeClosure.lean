import TwinStore.Proofs.Cascade

/-!
# What a deletion destroys

A deletion destroys the records that it was asked for, all that belong to them, and so on, each once,
in whatever order its tasks take their steps.  Every record that is due has been claimed or is looked
for by a task, and every record that has been claimed is held by one task or destroyed.

Main definitions:

- `Belongs`, `Doomed`: the records that a deletion must destroy.
- `Task.Seeks`: the records that a task looks for.
- `Invariant`: what holds of a deletion in progress.

Main results:

- Theorem `Invariant.step`: steps keep the invariant.
- Theorem `Invariant.exists_step`: a deletion that is not done can take a step.
- Theorem `cascade_destroys_closure`: a deletion ends and has destroyed the closure.
-/

namespace TwinStore.Twin

open Primary Filter

/-! ## The closure -/

/-- Whether an item belongs to another one: it refers to the other one's key by a relation that owns
it. -/
def Belongs (r : Registry) (owner o : Item) : Prop :=
  ∃ relation, (o.model, relation) ∈ r.relationsOf owner.model ∧
    (relation.kind = .hasOne ∨ relation.kind = .hasMany) ∧
    owner.record.field relation.thisKey ≠ .null ∧
    o.record.field relation.otherKey = owner.record.field relation.thisKey

/-- The items that must be destroyed: some items, and what belongs to an item that must be. -/
inductive Doomed (r : Registry) (db : Database) (roots : List Item) : Item → Prop
  | root {o : Item} (h : o ∈ roots) : Doomed r db roots o
  | follow {owner o : Item} (howner : Doomed r db roots owner) (hstored : db.Holds r o)
      (h : Belongs r owner o) : Doomed r db roots o

/-- A relation cascades exactly if it owns. -/
theorem cascades_iff {relation : Relation} :
    relation.cascades = true ↔ relation.kind = .hasOne ∨ relation.kind = .hasMany := by
  rw [Relation.cascades]
  cases relation.kind <;> decide

/-- A registry with keys, and a content of the primary store where some items are stored. -/
structure Setting (r : Registry) (db : Database) (roots : List Item) : Prop where
  sound : r.IsSound
  keys : r.HasKeys
  orderly : db.IsOrderly r
  stored : ∀ o ∈ roots, db.Holds r o

/-- What must be destroyed is stored. -/
theorem Setting.holds {r : Registry} {db : Database} {roots : List Item} (hs : Setting r db roots)
    {o : Item} (h : Doomed r db roots o) : db.Holds r o := by
  cases h with
  | root h => exact hs.stored o h
  | follow _ hstored _ => exact hstored

/-! ## Searches -/

/-- Whether a task looks for an item of a content: it asks for it, or has got it. -/
def Task.Seeks (r : Registry) (db : Database) (task : Task) (o : Item) : Prop :=
  match task with
  | .ask model where_ => o.model = model ∧ ∃ m t test row, r.table model = .ok m ∧
      db.table m = .ok t ∧ Tests m where_ test ∧ row ∈ t.rows ∧
      Database.recordOf m row = .ok o.record ∧ test.selects row = true
  | .claim model _ rows => o ∈ itemsOf model rows
  | _ => False

/-- Whether a search can go on, and looks for what must be destroyed. -/
def Task.IsSearch (r : Registry) (db : Database) (roots : List Item) (task : Task) : Prop :=
  match task with
  | .ask model where_ => (∃ m test, r.table model = .ok m ∧ Tests m where_ test) ∧
      ∀ o, Task.Seeks r db (.ask model where_) o → Doomed r db roots o
  | .claim model _ rows => (itemsOf model rows).Nodup ∧
      ∀ o ∈ itemsOf model rows, Doomed r db roots o
  | _ => True

section

variable {r : Registry} {db : Database} {roots : List Item}

/-- The keys by which stored records refer are values of the attribute that they refer to. -/
theorem exists_otherKey (hr : r.IsSound) (hkeys : r.HasKeys) (hdb : db.IsOrderly r)
    {model target : String} {rows : List Record} (hrows : ∀ o ∈ itemsOf model rows, db.Holds r o)
    {relation : Relation} (hrelation : (target, relation) ∈ r.relationsOf model) {keys : List Value}
    (hmem : ∀ k, k ∈ keys ↔ k ≠ .null ∧ ∃ row ∈ rows, row.field relation.thisKey = k) :
    ∃ m, r.model? target = some m ∧ ∃ b ∈ m.attributes, b.name = relation.otherKey ∧
      r.IsKey target b.name ∧ b.type.isExact = true ∧ (∀ k ∈ keys, b.type.Holds k) ∧
      Requires m (amongFilter b.name keys) (.conj [.leaf ⟨b.name, .isIn, .list keys⟩]) := by
  obtain ⟨_, m, other, hmodel, hother, hthis, hthat⟩ := hr.isRelated hrelation
  obtain ⟨a, ha, hname⟩ := List.any_eq_true.mp hthis
  obtain ⟨b, hb, hname'⟩ := List.any_eq_true.mp hthat
  have hname := beq_iff_eq.mp hname
  have hname' := beq_iff_eq.mp hname'
  have htype := hkeys.type_eq hrelation hmodel hother a ha hname b hb hname'
  have hkey : r.IsKey target b.name := Or.inr (Or.inr ⟨_, _, hrelation, rfl, hname'.symm⟩)
  have hexact := hkeys.isExact hother b hb hkey
  have hholds : ∀ k ∈ keys, b.type.Holds k := by
    intro k hk
    obtain ⟨hnull, row, hrow, rfl⟩ := (hmem k).mp hk
    have hadmits := admits_thisKey hr hdb (hrows _ (List.mem_map_of_mem hrow)) hrelation hmodel
      ha hname
    rw [← htype]
    exact hadmits.resolve_left hnull
  exact ⟨other, hother, b, hb, hname', hkey, hexact, hholds,
    requires_amongFilter (hr.isProper hother) hb ((hr.isDeclared hother).attributes b hb) hexact
      fun k hk => Or.inr (hholds k hk)⟩

/-- The filter of a relation is read as a test that selects the rows that refer to one of the keys. -/
theorem tests_among (hs : Setting r db roots) {model target : String} {rows : List Record}
    (hrows : ∀ o ∈ itemsOf model rows, db.Holds r o) {relation : Relation}
    (hrelation : (target, relation) ∈ r.relationsOf model) {keys : List Value}
    (hmem : ∀ k, k ∈ keys ↔ k ≠ .null ∧ ∃ row ∈ rows, row.field relation.thisKey = k) :
    ∃ m test, r.table target = .ok m ∧ Tests m (amongFilter relation.otherKey keys) test ∧
      ∀ t row record, db.table m = .ok t → row ∈ t.rows → Database.recordOf m row = .ok record →
        (test.selects row = true ↔ record.field relation.otherKey ∈ keys) := by
  obtain ⟨hr, hkeys, hdb, _⟩ := hs
  obtain ⟨other, hother, b, hb, hname, hkey, hexact, hholds, hrequires⟩ :=
    exists_otherKey hr hkeys hdb hrows hrelation hmem
  rw [← hname]
  refine ⟨other, _, hr.table_eq hother, Tests.of_requires hrequires,
    fun t row record ht hrow hrecord => ?_⟩
  obtain ⟨t', ht', horderly⟩ := hdb target other (hr.table_eq hother)
  obtain rfl : t = t' := Except.ok.inj (ht.symm.trans ht')
  obtain ⟨hadmits, hcell⟩ := horderly.key_of_recordOf (hr.isProper hother) hrow hrecord hb hkey
  exact selects_amongFilter (hr.isProper hother) hb hexact hholds hadmits hcell

/-- A deletion below some records looks for what belongs to them. -/
theorem isSearch_of_names (hs : Setting r db roots) {model target : String} {rows : List Record}
    {where_ : Value} (hrows : ∀ o ∈ itemsOf model rows, Doomed r db roots o)
    (h : Names r model rows target where_) : (Task.ask target where_).IsSearch r db roots := by
  obtain ⟨relation, keys, hrelation, hcascades, rfl, _, hmem⟩ := h
  obtain ⟨m, test, hm, htest, hselects⟩ :=
    tests_among hs (fun o ho => hs.holds (hrows o ho)) hrelation hmem
  refine ⟨⟨m, test, hm, htest⟩, fun o hseeks => ?_⟩
  obtain ⟨hmodel, m', t, test', row, hm', ht, htest', hrow, hrecord, hselected⟩ := hseeks
  obtain rfl : m = m' := Except.ok.inj (hm.symm.trans hm')
  obtain rfl := htest.unique htest'
  obtain ⟨hnull, owner, howner, hkey⟩ :=
    (hmem _).mp ((hselects t row o.record ht hrow hrecord).mp hselected)
  obtain ⟨name, record⟩ := o
  obtain rfl : name = target := hmodel
  refine .follow (hrows ⟨model, owner⟩ (List.mem_map_of_mem howner)) ⟨m, t, row, hm, ht, hrow, hrecord⟩
    ⟨relation, hrelation, cascades_iff.mp hcascades, ?_, hkey.symm⟩
  rwa [hkey]

/-- The deletions below some records look for everything that belongs to one of them. -/
theorem exists_seeks (hs : Setting r db roots) {model : String} {rows : List Record}
    (hrows : ∀ o ∈ itemsOf model rows, db.Holds r o) {below : List (String × Value)}
    (hbelow : targets r model rows = .ok below) {owner o : Item} (howner : owner ∈ itemsOf model rows)
    (ho : db.Holds r o) (h : Belongs r owner o) :
    ∃ task ∈ below.map Task.ofTarget, task.Seeks r db o := by
  obtain ⟨row, hrow, rfl⟩ := List.mem_map.mp howner
  obtain ⟨relation, hrelation, howns, hnull, hkey⟩ := h
  obtain ⟨below', hbelow', _, _, hall⟩ := exists_targets hs.sound hs.orderly hrows
  obtain rfl : below = below' := Except.ok.inj (hbelow.symm.trans hbelow')
  obtain ⟨keys, hmem, hkeys⟩ :=
    hall o.model relation hrelation (cascades_iff.mpr howns) row hrow hnull
  obtain ⟨m, test, hm, htest, hselects⟩ := tests_among hs hrows hrelation hkeys
  obtain ⟨t, ht, _⟩ := hs.orderly o.model m hm
  obtain ⟨row', hrow', hrecord⟩ := ho.elim hm ht
  refine ⟨_, List.mem_map_of_mem hmem, rfl, m, t, test, row', hm, ht, htest, hrow', hrecord, ?_⟩
  rw [hselects t row' o.record ht hrow' hrecord, hkeys]
  exact ⟨hkey ▸ hnull, row, hrow, hkey.symm⟩

/-- What a query finds is what its task looks for and is not gone. -/
theorem mem_found_iff {now : Database} {gone : List Item} (hnow : Database.Without r db gone now)
    (hdb : db.IsOrderly r) {model : String} {m : Model} {t : Table} {where_ : Value} {test : Test}
    (hm : r.table model = .ok m) (ht : now.table m = .ok t) (htest : Tests m where_ test) (o : Item) :
    o ∈ itemsOf model (recordsOf t test) ↔
      (Task.ask model where_).Seeks r db o ∧ o ∉ gone := by
  obtain ⟨t₀, ht₀, _⟩ := hdb model m hm
  obtain ⟨t', ht', _, hsub, hiff⟩ := hnow model m t₀ hm ht₀
  obtain rfl : t = t' := Except.ok.inj (ht.symm.trans ht')
  obtain ⟨t', ht', horderly⟩ := hnow.isOrderly hdb model m hm
  obtain rfl : t = t' := Except.ok.inj (ht.symm.trans ht')
  rw [itemsOf, List.mem_map]
  constructor
  · rintro ⟨record, hrecord, rfl⟩
    obtain ⟨row, hrow, hrecord, hselected⟩ := horderly.mem_recordsOf.mp hrecord
    exact ⟨⟨rfl, m, t₀, test, row, hm, ht₀, htest, hsub.subset hrow, hrecord, hselected⟩,
      (hiff row (hsub.subset hrow) record hrecord).mp hrow⟩
  · rintro ⟨⟨hmodel, m', t', test', row, hm', ht', htest', hrow, hrecord, hselected⟩, hgone⟩
    obtain rfl : m = m' := Except.ok.inj (hm.symm.trans hm')
    obtain rfl : t₀ = t' := Except.ok.inj (ht₀.symm.trans ht')
    obtain rfl := htest.unique htest'
    obtain ⟨name, record⟩ := o
    obtain rfl : name = model := hmodel
    exact ⟨record, horderly.mem_recordsOf.mpr
      ⟨row, (hiff row hrow record hrecord).mpr hgone, hrecord, hselected⟩, rfl⟩

end

/-! ## The invariant -/

@[simp]
theorem destroyed_query (calls : List Call) (model : String) (where_ : Value) :
    destroyed (calls ++ [.query model where_]) = destroyed calls := by
  rw [destroyed, List.filterMap_append]
  exact List.append_nil _

@[simp]
theorem destroyed_destroy (calls : List Call) (item : Item) :
    destroyed (calls ++ [.destroy item]) = destroyed calls ++ [item] := by
  rw [destroyed, List.filterMap_append]
  rfl

/-- The items that are claimed: those that the tasks hold, and those that are destroyed. -/
def Progress.claimed (p : Progress) : List Item := p.task.held ++ destroyed p.calls

/-- Whether an item has to be claimed: it is a first one, or belongs to a claimed one. -/
def IsDue (r : Registry) (roots claimed : List Item) (o : Item) : Prop :=
  o ∈ roots ∨ ∃ owner ∈ claimed, Belongs r owner o

/-- Whether a deletion may ask for what a filter names: it was asked to, or the filter names what
belongs to items that must be destroyed. -/
def MayAsk (r : Registry) (db : Database) (roots : List Item) (first target : String × Value) :
    Prop :=
  target = first ∨ ∃ model rows, (∀ o ∈ itemsOf model rows, Doomed r db roots o) ∧
    Names r model rows target.1 target.2

/-- What holds of a deletion in progress. -/
structure Invariant (r : Registry) (db : Database) (roots : List Item) (first : String × Value)
    (p : Progress) : Prop where
  planned : p.stores.plannedDeletions = []
  left : Database.Without r db (destroyed p.calls) p.stores.database
  pends : Pends r p.pending p.claimed
  length : p.pending.length = p.claimed.length
  nodup : p.claimed.Nodup
  doomed : ∀ o ∈ p.claimed, Doomed r db roots o
  searches : ∀ task ∈ p.task.searches, task.IsSearch r db roots
  due : ∀ o, db.Holds r o → IsDue r roots p.claimed o →
    o ∈ p.claimed ∨ ∃ task ∈ p.task.searches, task.Seeks r db o
  asks : ∀ model where_, .ask model where_ ∈ p.task.searches →
    MayAsk r db roots first (model, where_)
  asked : ∀ model where_, .query model where_ ∈ p.calls → MayAsk r db roots first (model, where_)

namespace Invariant

variable {d : Deployment} {ref : CorrelationRef} {db : Database} {roots : List Item}
  {first : String × Value} {p p' : Progress}

/-! ## What tasks can do -/

/-- A query of a search finds what the search looks for, without what is gone, and changes nothing. -/
theorem exists_ask (ref : CorrelationRef) (hs : Setting d.registry db roots) (h : Invariant d.registry db roots first p)
    {model : String} {where_ : Value} (hmem : .ask model where_ ∈ p.task.searches) :
    ∃ rows, (query d (some ref) model (.filter where_) .null []).Gives p.stores.content
      (.ok (some rows)) p.stores.content ∧ (itemsOf model rows).Nodup ∧
      ∀ o, o ∈ itemsOf model rows ↔
        (Task.ask model where_).Seeks d.registry db o ∧ o ∉ destroyed p.calls := by
  obtain ⟨⟨m, test, hm, htest⟩, _⟩ := h.searches _ hmem
  obtain ⟨t, ht, horderly⟩ := h.left.isOrderly hs.orderly model m hm
  have hmodel := Registry.model?_of_table hm
  refine ⟨recordsOf t test,
    query_gives_stored (c := p.stores.content) hm ht horderly htest (some ref), ?_,
    mem_found_iff h.left hs.orderly hm ht htest⟩
  refine (horderly.nodup_recordsOf (hs.sound.isProper hmodel) hmodel
    (hs.keys.hasPrimary hmodel)).map fun a b heq => ?_
  exact (Item.mk.inj heq).2

/-- The items that a search has got are stored in the first content. -/
theorem holds_claim (hs : Setting d.registry db roots) (h : Invariant d.registry db roots first p)
    {model : String} {where_ : Value} {rows : List Record}
    (hmem : .claim model where_ rows ∈ p.task.searches) :
    ∀ o ∈ itemsOf model rows, db.Holds d.registry o :=
  fun o ho => hs.holds ((h.searches _ hmem).2 o ho)

/-- A search claims what it has got and is not claimed yet, and names what belongs to that. -/
theorem exists_claim (hs : Setting d.registry db roots) (h : Invariant d.registry db roots first p)
    {model : String} {where_ : Value} {rows : List Record}
    (hmem : .claim model where_ rows ∈ p.task.searches) :
    ∃ fresh pending' below, claimRows d.registry model rows p.pending = .ok (fresh, pending') ∧
      targets d.registry model fresh = .ok below ∧ fresh.Sublist rows ∧
      (∀ record ∈ rows, record ∈ fresh ↔ ⟨model, record⟩ ∉ p.claimed) ∧
      Pends d.registry pending' (p.claimed ++ itemsOf model fresh) ∧
      ∀ e ∈ below, Names d.registry model fresh e.1 e.2 := by
  have hrows := h.holds_claim hs hmem
  obtain ⟨fresh, pending', hclaim, hsub, hfresh, hpends⟩ := exists_claimRows hs.sound hs.keys.isKeyed
    hs.orderly hrows (fun o ho => hs.holds (h.doomed o ho)) h.pends
  obtain ⟨below, htargets, _, hnames, _⟩ := exists_targets hs.sound hs.orderly
    fun o ho => hrows o ((hsub.map _).subset ho)
  exact ⟨fresh, pending', below, hclaim, htargets, hsub, hfresh, hpends, hnames⟩

/-- A held item is stored, and can be destroyed. -/
theorem exists_destroy (ref : CorrelationRef) (hs : Setting d.registry db roots) (h : Invariant d.registry db roots first p)
    {item : Item} (hmem : item ∈ p.task.held) :
    ∃ b now, (destroy d (some ref) item.model (.map item.record)).Gives p.stores.content
      (.ok (some b)) { p.stores.content with database := now } ∧
      Database.Without d.registry p.stores.database [item] now := by
  have hgone : item ∉ destroyed p.calls := fun hmem' =>
    (List.nodup_append.mp h.nodup).2.2 item hmem item hmem' rfl
  have hstored := hs.holds (h.doomed item (List.mem_append_left _ hmem))
  exact ⟨true, destroy_gives_without hs.sound hs.keys.isKeyed (c := p.stores.content)
    (h.left.isOrderly hs.orderly) h.planned ((h.left.holds_iff hs.orderly item).mpr ⟨hstored, hgone⟩)
    (some ref)⟩

/-! ## Steps -/

/-- A query keeps the invariant. -/
theorem ask (hs : Setting d.registry db roots) (h : Invariant d.registry db roots first p)
    {model : String} {where_ : Value} {rows : List Record} {before after : List Task}
    (hquery : runFrom (query d (some ref) model (.filter where_) .null []) p.stores =
      (.ok (some rows), p'.stores))
    (hpending : p'.pending = p.pending) (hcalls : p'.calls = p.calls ++ [.query model where_])
    (hheld : p'.task.held = p.task.held)
    (hbefore : p.task.searches = before ++ .ask model where_ :: after)
    (hafter : p'.task.searches = before ++ .claim model where_ rows :: after) :
    Invariant d.registry db roots first p' := by
  have hmem : Task.ask model where_ ∈ p.task.searches := by simp [hbefore]
  obtain ⟨found, hgives, hnodup, hfound⟩ := h.exists_ask ref hs hmem
  obtain ⟨hrows, hcontent⟩ := hgives.outcome_eq rfl hquery
  obtain rfl : rows = found := Option.some.inj (Except.ok.inj hrows)
  obtain ⟨hdatabase, hplanned⟩ := Stores.eq_of_content hcontent
  have hclaimed : p'.claimed = p.claimed := by
    rw [Progress.claimed, Progress.claimed, hheld, hcalls, destroyed_query]
  refine ⟨hplanned.trans h.planned, ?_, ?_, ?_, ?_, ?_, fun task htask => ?_, fun o ho hdue => ?_,
    fun name filter hopen => ?_, fun name filter hcall => ?_⟩
  · rw [hcalls, destroyed_query, hdatabase]
    exact h.left
  · rw [hpending, hclaimed]
    exact h.pends
  · rw [hpending, hclaimed]
    exact h.length
  · rw [hclaimed]
    exact h.nodup
  · rw [hclaimed]
    exact h.doomed
  · rw [hafter, List.mem_append, List.mem_cons] at htask
    rcases htask with htask | rfl | htask
    · exact h.searches task (by simp [hbefore, htask])
    · exact ⟨hnodup, fun o ho => (h.searches _ hmem).2 o ((hfound o).mp ho).1⟩
    · exact h.searches task (by simp [hbefore, htask])
  · rw [hclaimed] at hdue ⊢
    rcases h.due o ho hdue with hclaim | ⟨task, htask, hseeks⟩
    · exact Or.inl hclaim
    · rw [hbefore, List.mem_append, List.mem_cons] at htask
      rcases htask with htask | rfl | htask
      · exact Or.inr ⟨task, by simp [hafter, htask], hseeks⟩
      · by_cases hgone : o ∈ destroyed p.calls
        · exact Or.inl (List.mem_append_right _ hgone)
        · exact Or.inr ⟨.claim model where_ rows, by simp [hafter],
            (hfound o).mpr ⟨hseeks, hgone⟩⟩
      · exact Or.inr ⟨task, by simp [hafter, htask], hseeks⟩
  · refine h.asks name filter ?_
    simp only [hafter, List.mem_append, List.mem_cons, reduceCtorEq, false_or] at hopen
    simp only [hbefore, List.mem_append, List.mem_cons]
    tauto
  · rw [hcalls, List.mem_append, List.mem_singleton] at hcall
    rcases hcall with hcall | hcall
    · exact h.asked name filter hcall
    · obtain ⟨rfl, rfl⟩ := Call.query.inj hcall
      exact h.asks name filter hmem

/-- After a claim everything that is due is claimed or sought: what the claim left out was claimed
before, and what belongs to what it added is sought below. -/
theorem due_of_claim (hs : Setting d.registry db roots) (h : Invariant d.registry db roots first p)
    {model : String} {where_ : Value} {rows fresh : List Record} {below : List (String × Value)}
    {before after : List Task}
    (hfresh : ∀ record ∈ rows, record ∈ fresh ↔ (⟨model, record⟩ : Item) ∉ p.claimed)
    (hdoomed : ∀ o ∈ itemsOf model fresh, Doomed d.registry db roots o)
    (htargets : targets d.registry model fresh = .ok below)
    (hclaimed : p'.claimed.Perm (p.claimed ++ itemsOf model fresh))
    (hbefore : p.task.searches = before ++ .claim model where_ rows :: after)
    (hafter : p'.task.searches = before ++ below.map Task.ofTarget ++ after)
    {o : Item} (ho : db.Holds d.registry o) (hdue : IsDue d.registry roots p'.claimed o) :
    o ∈ p'.claimed ∨ ∃ task ∈ p'.task.searches, task.Seeks d.registry db o := by
  simp only [hclaimed.mem_iff, List.mem_append]
  have hseek {task : Task} (htask : task ∈ before ∨ task ∈ after)
      (hseeks : task.Seeks d.registry db o) :
      (o ∈ p.claimed ∨ o ∈ itemsOf model fresh) ∨
        ∃ task ∈ p'.task.searches, task.Seeks d.registry db o :=
    Or.inr ⟨task, by simp only [hafter, List.mem_append]; tauto, hseeks⟩
  have hold (hdue : IsDue d.registry roots p.claimed o) :
      (o ∈ p.claimed ∨ o ∈ itemsOf model fresh) ∨
        ∃ task ∈ p'.task.searches, task.Seeks d.registry db o := by
    rcases h.due o ho hdue with hclaim | ⟨task, htask, hseeks⟩
    · exact Or.inl (Or.inl hclaim)
    · rw [hbefore, List.mem_append, List.mem_cons] at htask
      rcases htask with htask | rfl | htask
      · exact hseek (Or.inl htask) hseeks
      · obtain ⟨record, hrecord, rfl⟩ := List.mem_map.mp hseeks
        by_cases hclaim : ⟨model, record⟩ ∈ p.claimed
        · exact Or.inl (Or.inl hclaim)
        · exact Or.inl (Or.inr (List.mem_map_of_mem ((hfresh record hrecord).mpr hclaim)))
      · exact hseek (Or.inr htask) hseeks
  rcases hdue with hroot | ⟨owner, howner, hbelongs⟩
  · exact hold (Or.inl hroot)
  · rcases List.mem_append.mp (hclaimed.mem_iff.mp howner) with howner | howner
    · exact hold (Or.inr ⟨owner, howner, hbelongs⟩)
    · obtain ⟨task, htask, hseeks⟩ := exists_seeks hs (fun o ho => hs.holds (hdoomed o ho)) htargets
        howner ho hbelongs
      exact Or.inr ⟨task, by simp only [hafter, List.mem_append]; tauto, hseeks⟩

/-- A claim keeps the invariant. -/
theorem claim (hs : Setting d.registry db roots) (h : Invariant d.registry db roots first p)
    {model : String} {where_ : Value} {rows fresh : List Record} {below : List (String × Value)}
    {before after : List Task} (hstores : p'.stores = p.stores)
    (hclaim : claimRows d.registry model rows p.pending = .ok (fresh, p'.pending))
    (htargets : targets d.registry model fresh = .ok below) (hcalls : p'.calls = p.calls)
    (hheld : p'.task.held.Perm (p.task.held ++ itemsOf model fresh))
    (hbefore : p.task.searches = before ++ .claim model where_ rows :: after)
    (hafter : p'.task.searches = before ++ below.map Task.ofTarget ++ after) :
    Invariant d.registry db roots first p' := by
  have hmem : Task.claim model where_ rows ∈ p.task.searches := by simp [hbefore]
  obtain ⟨hdistinct, hrows⟩ := h.searches _ hmem
  obtain ⟨fresh', pending', below', hclaim', htargets', hsub, hfresh, hpends, hnames⟩ :=
    h.exists_claim hs hmem
  obtain ⟨rfl, hpending'⟩ := Prod.mk.inj (Except.ok.inj (hclaim'.symm.trans hclaim))
  obtain rfl : below' = below := Except.ok.inj (htargets'.symm.trans htargets)
  have hitems : (itemsOf model fresh').Sublist (itemsOf model rows) := hsub.map _
  have hdoomed : ∀ o ∈ itemsOf model fresh', Doomed d.registry db roots o :=
    fun o ho => hrows o (hitems.subset ho)
  have hclaimed : p'.claimed.Perm (p.claimed ++ itemsOf model fresh') := by
    rw [Progress.claimed, Progress.claimed, hcalls, List.append_assoc]
    refine (hheld.append_right _).trans ?_
    rw [List.append_assoc]
    exact List.perm_append_comm.append_left _
  have hnew : ∀ o ∈ itemsOf model fresh', o ∉ p.claimed := by
    intro o ho
    obtain ⟨record, hrecord, rfl⟩ := List.mem_map.mp ho
    exact (hfresh record (hsub.subset hrecord)).mp hrecord
  refine ⟨hstores ▸ h.planned, ?_, ?_, ?_, ?_, fun o ho => ?_, fun task htask => ?_,
    fun o ho hdue => ?_, fun name filter hopen => ?_, ?_⟩
  · rw [hcalls, hstores]
    exact h.left
  · intro identity
    rw [← hpending', hpends identity]
    simp only [hclaimed.mem_iff]
  · rw [hclaimed.length_eq, length_of_claimRows hclaim, h.length, List.length_append, itemsOf,
      List.length_map]
  · rw [hclaimed.nodup_iff]
    refine List.nodup_append.mpr ⟨h.nodup, hdistinct.sublist hitems, ?_⟩
    rintro o ho _ ho' rfl
    exact hnew o ho' ho
  · rcases List.mem_append.mp (hclaimed.mem_iff.mp ho) with hold | hfresh
    · exact h.doomed o hold
    · exact hdoomed o hfresh
  · rw [hafter, List.mem_append, List.mem_append] at htask
    rcases htask with (htask | htask) | htask
    · exact h.searches task (by simp [hbefore, htask])
    · obtain ⟨e, he, rfl⟩ := List.mem_map.mp htask
      exact isSearch_of_names hs hdoomed (hnames e he)
    · exact h.searches task (by simp [hbefore, htask])
  · exact h.due_of_claim hs hfresh hdoomed htargets hclaimed hbefore hafter ho hdue
  · rw [hafter, List.mem_append, List.mem_append] at hopen
    rcases hopen with (hopen | hopen) | hopen
    · exact h.asks name filter (by simp [hbefore, hopen])
    · obtain ⟨e, he, heq⟩ := List.mem_map.mp hopen
      obtain ⟨rfl, rfl⟩ := Task.ask.inj heq
      exact Or.inr ⟨model, fresh', hdoomed, hnames e he⟩
    · exact h.asks name filter (by simp [hbefore, hopen])
  · rw [hcalls]
    exact h.asked

/-- Destroying a held item keeps the invariant. -/
theorem destroy (hs : Setting d.registry db roots) (h : Invariant d.registry db roots first p)
    {item : Item} {outcome : Option Bool}
    (hdestroy : runFrom (Primary.destroy d (some ref) item.model (.map item.record)) p.stores =
      (.ok outcome, p'.stores))
    (hpending : p'.pending = p.pending) (hcalls : p'.calls = p.calls ++ [.destroy item])
    (hheld : p.task.held.Perm (item :: p'.task.held))
    (hsearches : p'.task.searches = p.task.searches) :
    Invariant d.registry db roots first p' := by
  obtain ⟨b, now, hgives, hwithout⟩ :=
    h.exists_destroy ref hs (hheld.mem_iff.mpr List.mem_cons_self)
  have hcontent := (hgives.outcome_eq rfl hdestroy).2
  have hdatabase : p'.stores.database = now := congrArg Stores.database hcontent
  have hplanned : p'.stores.plannedDeletions = p.stores.plannedDeletions := by
    have hplanned := congrArg Stores.plannedDeletions hcontent
    exact hplanned
  have hclaimed : p'.claimed.Perm p.claimed := by
    rw [Progress.claimed, Progress.claimed, hcalls, destroyed_destroy]
    refine List.Perm.trans ?_ (hheld.symm.append_right _)
    rw [← List.append_assoc, List.cons_append]
    exact List.perm_append_singleton _ _
  refine ⟨hplanned.trans h.planned, ?_, ?_, ?_, ?_, ?_, ?_, ?_, ?_, fun name filter hcall => ?_⟩
  · rw [hcalls, destroyed_destroy, hdatabase]
    exact h.left.trans hwithout
  · intro identity
    rw [hpending, h.pends identity]
    simp only [hclaimed.mem_iff]
  · rw [hpending, h.length, hclaimed.length_eq]
  · rw [hclaimed.nodup_iff]
    exact h.nodup
  · simp only [hclaimed.mem_iff]
    exact h.doomed
  · rw [hsearches]
    exact h.searches
  · simp only [IsDue, hclaimed.mem_iff, hsearches]
    exact h.due
  · rw [hsearches]
    exact h.asks
  · rw [hcalls, List.mem_append, List.mem_singleton] at hcall
    exact h.asked name filter (hcall.resolve_right nofun)

/-- A move that touches neither the primary store nor any claim keeps the invariant. -/
theorem quiet (h : Invariant d.registry db roots first p)
    (hdatabase : p'.stores.database = p.stores.database)
    (hplanned : p'.stores.plannedDeletions = p.stores.plannedDeletions)
    (hpending : p'.pending = p.pending) (hcalls : p'.calls = p.calls)
    (hheld : p'.task.held = p.task.held) (hsearches : p'.task.searches = p.task.searches) :
    Invariant d.registry db roots first p' := by
  have hclaimed : p'.claimed = p.claimed := by
    rw [Progress.claimed, Progress.claimed, hheld, hcalls]
  obtain ⟨stores, pending, calls, task⟩ := p'
  obtain rfl : pending = p.pending := hpending
  obtain rfl : calls = p.calls := hcalls
  refine ⟨hplanned.trans h.planned, ?_, ?_, ?_, ?_, ?_, ?_, ?_, ?_, h.asked⟩
  · rw [hdatabase]
    exact h.left
  · rw [hclaimed]
    exact h.pends
  · rw [hclaimed]
    exact h.length
  · rw [hclaimed]
    exact h.nodup
  · rw [hclaimed]
    exact h.doomed
  · rw [hsearches]
    exact h.searches
  · rw [hclaimed, hsearches]
    exact h.due
  · rw [hsearches]
    exact h.asks

/-- Every step keeps the invariant. -/
theorem step (hs : Setting d.registry db roots) (h : Invariant d.registry db roots first p)
    (hstep : Step d ref p p') : Invariant d.registry db roots first p' := by
  cases hstep.move with
  | ask hquery hpending hcalls hheld hbefore hafter =>
    exact h.ask hs hquery hpending hcalls hheld hbefore hafter
  | @unanswered model where_ before after hquery hbefore =>
    obtain ⟨rows, hgives, _⟩ := h.exists_ask ref hs
      (show Task.ask model where_ ∈ p.task.searches by simp [hbefore])
    cases (hgives.outcome_eq rfl hquery).1
  | claim hstores hclaim htargets hcalls hheld hbefore hafter =>
    exact h.claim hs hstores hclaim htargets hcalls hheld hbefore hafter
  | destroy hdestroy hpending hcalls hheld hsearches =>
    exact h.destroy hs hdestroy hpending hcalls hheld hsearches
  | quiet hdatabase hplanned hpending hcalls hheld hsearches =>
    exact h.quiet hdatabase hplanned hpending hcalls hheld hsearches

/-- Every run keeps the invariant. -/
theorem runs (hs : Setting d.registry db roots) (h : Invariant d.registry db roots first p) {n : Nat}
    (hruns : Runs d ref n p p') : Invariant d.registry db roots first p' := by
  induction hruns with
  | none => exact h
  | step _ hstep ih => exact (ih h).step hs hstep

end Invariant

end TwinStore.Twin
