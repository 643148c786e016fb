import TwinStore.Proofs.RegisteredBatches

/-!
# The graph of relations

A relation is accepted if its kind is known, its target is among the models, and both keys are
attributes.  Whether that is so does not depend on the order of the models, nor on any other
declared relation: the check looks at names and attributes only.

Main definitions:

- `Model.Relates`: the relation that a declaration makes among models.
- `Registry.IsGraphOf`: the relations of a registry are those that its models declare, as far as they
  hold.

Main results:

- Theorem `relationsOf_register`: where the relations of a batch come from.
- Theorem `relation_graph_is_exact`: a batch gives the relations that hold, in whatever order, and one
  declaration does not matter to the others.
-/

namespace TwinStore

/-! ## Declarations -/

/-- A kind is known by its name. -/
theorem RelationKind.ofName?_eq_some {s : String} {kind : RelationKind} :
    ofName? s = some kind ↔ kind.name = s := by
  constructor
  · intro h
    simpa using List.find?_some h
  · rintro rfl
    cases kind <;> rfl

namespace Model

variable {m : Model}

/-- An attribute is declared under its name. -/
theorem hasAttribute_iff {name : String} :
    m.hasAttribute name = true ↔ ∃ a ∈ m.attributes, a.name = name := by
  rw [hasAttribute, List.any_eq_true]
  simp only [beq_iff_eq]

/-- A proper model has no repeated attribute. -/
theorem hasRepeatedAttribute_of_nodup {attributes : List Attribute}
    (h : (attributes.map (·.name)).Nodup) : hasRepeatedAttribute attributes = false := by
  induction attributes with
  | nil => rfl
  | cons a rest ih =>
    rw [List.map_cons, List.nodup_cons] at h
    rw [hasRepeatedAttribute, Bool.or_eq_false_iff, List.any_eq_false]
    refine ⟨fun b hb hname => h.1 ?_, ih h.2⟩
    exact beq_iff_eq.mp hname ▸ List.mem_map_of_mem hb

/-- The relation that a declaration of a model makes among models: its kind is one of the known ones,
its target is one of the models, and its keys are attributes of the two. -/
structure Relates (models : List Model) (m : Model) (target : String) (spec : RelationDeclaration)
    (relation : Relation) : Prop where
  kind : relation.kind.name = spec.kind
  thisKey : ∃ a ∈ m.attributes, a.name = spec.thisKey
  otherKey : ∃ other ∈ models, other.name = target ∧ ∃ a ∈ other.attributes, a.name = spec.otherKey
  relation_eq : relation =
    ⟨target, m.name, relation.kind, spec.thisKey, spec.otherKey, spec.innerJoin⟩

end Model

namespace Registry

variable {r r' : Registry} {models : List Model} {m : Model} {name target : String}
  {spec : RelationDeclaration} {relation : Relation}

/-! ## Accepted relations -/

/-- Whether a relation is accepted is decided by the kind, the attributes of the model and those of its
target. -/
theorem relationOf?_eq_ok : r.relationOf? m target spec = .ok relation ↔
    relation.kind.name = spec.kind ∧ m.hasAttribute spec.thisKey = true ∧
      (∃ other, r.model? target = some other ∧ other.hasAttribute spec.otherKey = true) ∧
      relation = ⟨target, m.name, relation.kind, spec.thisKey, spec.otherKey, spec.innerJoin⟩ := by
  rw [← RelationKind.ofName?_eq_some, relationOf?]
  constructor
  · intro h
    split at h
    · cases h
    · cases h
    · next kind other hkind hother =>
      split_ifs at h with hthis hthat
      cases h
      exact ⟨hkind, by simpa using hthis, ⟨other, hother, by simpa using hthat⟩, rfl⟩
  · rintro ⟨hkind, hthis, ⟨other, hother, hthat⟩, heq⟩
    rw [hkind, hother]
    simp only [hthis, hthat, Bool.not_true, Bool.false_eq_true, if_false]
    rw [← heq]

/-- The accepted relations are the declared ones that the check lets through. -/
theorem mem_acceptedRelations_iff : (target, relation) ∈ r.acceptedRelations m ↔
    ∃ spec, (target, spec) ∈ m.relations ∧ r.relationOf? m target spec = .ok relation := by
  rw [acceptedRelations, List.mem_filterMap]
  constructor
  · rintro ⟨⟨t, spec⟩, hspec, h⟩
    simp only at h
    split at h
    · next found hfound =>
      obtain ⟨rfl, rfl⟩ := Prod.mk.inj (Option.some.inj h)
      exact ⟨spec, hspec, hfound⟩
    · cases h
  · rintro ⟨spec, hspec, h⟩
    exact ⟨(target, spec), hspec, by simp only [h]⟩

/-- The attributes that two registries know under every name are the same. -/
def HasSameFields (r r' : Registry) : Prop :=
  ∀ name, (r'.model? name).map (·.attributes) = (r.model? name).map (·.attributes)

/-- The check looks at no more than names and attributes. -/
theorem relationOf?_congr (h : HasSameFields r r') {m' : Model} (hname : m'.name = m.name)
    (hattributes : m'.attributes = m.attributes) :
    r'.relationOf? m' target spec = r.relationOf? m target spec := by
  have hthis : m'.hasAttribute spec.thisKey = m.hasAttribute spec.thisKey := by
    rw [Model.hasAttribute, Model.hasAttribute, hattributes]
  have htarget := h target
  rw [relationOf?, relationOf?, hthis, hname]
  cases hother : r.model? target with
  | none =>
    rw [hother, Option.map_none, Option.map_eq_none_iff] at htarget
    rw [htarget]
  | some other =>
    rw [hother, Option.map_some, Option.map_eq_some_iff] at htarget
    obtain ⟨other', hother', hsame⟩ := htarget
    have hthat : other'.hasAttribute spec.otherKey = other.hasAttribute spec.otherKey := by
      rw [Model.hasAttribute, Model.hasAttribute, hsame]
    rw [hother']
    cases RelationKind.ofName? spec.kind with
    | none => rfl
    | some kind => simp only [hthat]

/-- The relations of a model that hold are the same wherever the same attributes are known. -/
theorem acceptedRelations_congr (h : HasSameFields r r') (m : Model) :
    r'.acceptedRelations m = r.acceptedRelations m := by
  rw [acceptedRelations, acceptedRelations]
  simp only [relationOf?_congr h (m := m) rfl rfl]

/-- Leaving out a declared relation leaves out what it made, and nothing else. -/
theorem erase_acceptedRelations (r : Registry) (m : Model) (target : String) :
    Entries.erase (r.acceptedRelations m) target =
      r.acceptedRelations { m with relations := Entries.erase m.relations target } := by
  have hcheck (other : String) (spec : RelationDeclaration) (relations : Entries RelationDeclaration) :
      r.relationOf? { m with relations } other spec = r.relationOf? m other spec :=
    relationOf?_congr (fun _ => rfl) rfl rfl
  simp only [acceptedRelations, Entries.erase, hcheck, List.filter_filterMap, List.filterMap_filter]
  congr 1
  funext ⟨other, spec⟩
  by_cases hother : other = target <;> cases r.relationOf? m other spec <;> simp [hother]

/-- The targets of accepted relations are declared, in this order. -/
theorem keys_acceptedRelations (r : Registry) (m : Model) :
    (Entries.keys (r.acceptedRelations m)).Sublist (Entries.keys m.relations) := by
  rw [acceptedRelations]
  induction m.relations with
  | nil => exact List.Sublist.refl _
  | cons e relations ih =>
    obtain ⟨target, spec⟩ := e
    rw [List.filterMap_cons]
    cases hcheck : r.relationOf? m target spec with
    | ok relation =>
      simp only [hcheck]
      exact ih.cons_cons target
    | error problem =>
      simp only [hcheck]
      exact ih.cons target

/-! ## Registered relations -/

/-- The relations that the models of a list are given are those that hold. -/
theorem relationsOf_foldl (hnames : (models.map (·.name)).Nodup) (hm : m ∈ models) :
    (models.foldl addRelations r).relationsOf m.name = r.acceptedRelations m := by
  induction models generalizing r with
  | nil => cases hm
  | cons n models ih =>
    rw [List.map_cons, List.nodup_cons] at hnames
    rw [List.foldl_cons]
    rcases List.mem_cons.mp hm with rfl | hm
    · rw [relationsOf_foldl_of_notMem hnames.1, relationsOf, addRelations, Entries.get?_set_self,
        Option.getD_some]
    · rw [ih hnames.2 hm]
      exact acceptedRelations_congr (fun _ => rfl) m

/-- Models of different names, each without a repeated attribute, make a registry of their own. -/
theorem canTake_empty (hnames : (models.map (·.name)).Nodup) (hproper : ∀ m ∈ models, m.IsProper) :
    ({} : Registry).CanTake models :=
  ⟨hnames, fun _ _ => rfl, fun m hm => Model.hasRepeatedAttribute_of_nodup (hproper m hm)⟩

/-- The relations of a registry that was made of models: those that hold among them, and none under
any other name. -/
theorem relationsOf_register (h : ({} : Registry).CanTake models) :
    ∃ r lines, ({} : Registry).register models = (r, lines, .ok ()) ∧
      (∀ m ∈ models, r.relationsOf m.name = (({} : Registry).grown models).acceptedRelations m) ∧
      ∀ name ∉ models.map (·.name), r.relationsOf name = [] :=
  ⟨_, _, register_of_canTake h, fun _ hm => relationsOf_foldl h.areDistinct hm,
    fun _ hname => relationsOf_foldl_of_notMem hname⟩

/-- What models are found in a registry that was made of them. -/
theorem model?_grown_empty (models : List Model) (name : String) :
    (({} : Registry).grown models).model? name =
      Entries.get? (models.map fun m => (m.name, m)) name := by
  rw [model?_grown]
  rfl

/-- The relations of a registry are those that its models declare, as far as they hold: at most one
for a target, in the order of the declarations. -/
structure IsGraphOf (r : Registry) (models : List Model) : Prop where
  mem_iff : ∀ m ∈ models, ∀ target relation, (target, relation) ∈ r.relationsOf m.name ↔
    ∃ spec, (target, spec) ∈ m.relations ∧ m.Relates models target spec relation
  sublist : ∀ m ∈ models, (Entries.keys (r.relationsOf m.name)).Sublist (Entries.keys m.relations)
  eq_nil : ∀ name ∉ models.map (·.name), r.relationsOf name = []

/-- Among models of different names the check finds what a declaration asks for. -/
theorem relationOf?_grown_eq_ok (hnames : (models.map (·.name)).Nodup) :
    (({} : Registry).grown models).relationOf? m target spec = .ok relation ↔
      m.Relates models target spec relation := by
  have htarget : (∃ other, (({} : Registry).grown models).model? target = some other ∧
      other.hasAttribute spec.otherKey = true) ↔
      ∃ other ∈ models, other.name = target ∧ ∃ a ∈ other.attributes, a.name = spec.otherKey := by
    simp only [model?_grown_empty, Model.hasAttribute_iff]
    constructor
    · rintro ⟨other, hother, hkey⟩
      obtain ⟨other', hmem, heq⟩ := List.mem_map.mp (Entries.mem_of_get? hother)
      obtain ⟨hname, rfl⟩ := Prod.mk.inj heq
      exact ⟨other', hmem, hname, hkey⟩
    · rintro ⟨other, hmem, rfl, hkey⟩
      exact ⟨other, Entries.get?_map_of_mem id hnames hmem, hkey⟩
  rw [relationOf?_eq_ok, htarget, Model.hasAttribute_iff]
  exact ⟨fun ⟨hkind, hthis, hother, heq⟩ => ⟨hkind, hthis, hother, heq⟩,
    fun h => ⟨h.kind, h.thisKey, h.otherKey, h.relation_eq⟩⟩

/-- The order of the models does not matter to what is found under a name. -/
theorem hasSameFields_of_perm {shuffled : List Model} (hnames : (models.map (·.name)).Nodup)
    (h : models.Perm shuffled) :
    HasSameFields (({} : Registry).grown models) (({} : Registry).grown shuffled) := by
  intro name
  rw [model?_grown_empty, model?_grown_empty,
    Entries.get?_of_perm (by rwa [keys_named]) (h.map fun m => (m.name, m))]

/-- Other relations of the models do not matter to the attributes that are found under a name. -/
theorem hasSameFields_of_map {models models' : List Model}
    (h : models'.map (fun m => (m.name, m.attributes)) = models.map fun m => (m.name, m.attributes)) :
    HasSameFields (({} : Registry).grown models) (({} : Registry).grown models') := by
  have hfields (models : List Model) (name : String) :
      ((({} : Registry).grown models).model? name).map (·.attributes) =
        Entries.get? (models.map fun m => (m.name, m.attributes)) name := by
    rw [model?_grown_empty, ← Entries.get?_map, List.map_map]
    rfl
  intro name
  rw [hfields, hfields, h]

/-- Where a model declares other relations, its own change with them, those of the others do not. -/
theorem exists_register_replaced {before after : List Model}
    {relations : Entries RelationDeclaration}
    (hrelations : ∀ n ∈ before ++ m :: after, r.relationsOf n.name =
      (({} : Registry).grown (before ++ m :: after)).acceptedRelations n)
    (hothers : ∀ name ∉ (before ++ m :: after).map (·.name), r.relationsOf name = [])
    (hnames : ((before ++ m :: after).map (·.name)).Nodup)
    (hproper : ∀ n ∈ before ++ m :: after, n.IsProper)
    (hsame : Entries.erase relations target = Entries.erase m.relations target) :
    ∃ r' lines', ({} : Registry).register (before ++ { m with relations } :: after) =
        (r', lines', .ok ()) ∧
      (∀ name, name ≠ m.name → r'.relationsOf name = r.relationsOf name) ∧
      Entries.erase (r'.relationsOf m.name) target =
        Entries.erase (r.relationsOf m.name) target := by
  have hsameNames : (before ++ { m with relations } :: after).map (·.name) =
      (before ++ m :: after).map (·.name) := by simp
  have hproper' : ∀ n ∈ before ++ { m with relations } :: after, n.IsProper := by
    intro n hn
    rcases List.mem_append.mp hn with hn | hn
    · exact hproper n (List.mem_append_left _ hn)
    · rcases List.mem_cons.mp hn with rfl | hn
      · exact hproper m List.mem_append_cons_self
      · exact hproper n (List.mem_append_right _ (List.mem_cons_of_mem m hn))
  have hfields : HasSameFields (({} : Registry).grown (before ++ m :: after))
      (({} : Registry).grown (before ++ { m with relations } :: after)) :=
    hasSameFields_of_map (by simp)
  obtain ⟨r', lines', hr', hrelations', hothers'⟩ := relationsOf_register
    (canTake_empty (hsameNames ▸ hnames) hproper')
  refine ⟨r', lines', hr', fun name hname => ?_, ?_⟩
  · by_cases hmem : name ∈ (before ++ m :: after).map (·.name)
    · obtain ⟨n, hn, rfl⟩ := List.mem_map.mp hmem
      have hn' : n ∈ before ++ { m with relations } :: after := by
        rw [List.mem_append, List.mem_cons] at hn ⊢
        exact hn.imp_right fun h => Or.inr (h.resolve_left fun heq => hname (heq ▸ rfl))
      rw [hrelations n hn, hrelations' n hn', acceptedRelations_congr hfields]
    · rw [hothers name hmem, hothers' name (hsameNames ▸ hmem)]
  · have hm' := hrelations' { m with relations } List.mem_append_cons_self
    calc Entries.erase (r'.relationsOf m.name) target
        = (({} : Registry).grown (before ++ { m with relations } :: after)).acceptedRelations
            { m with relations := Entries.erase relations target } := by
          rw [hm', erase_acceptedRelations]
      _ = (({} : Registry).grown (before ++ m :: after)).acceptedRelations
            { m with relations := Entries.erase m.relations target } := by
          rw [hsame, acceptedRelations_congr hfields]
      _ = Entries.erase (r.relationsOf m.name) target := by
          rw [hrelations m List.mem_append_cons_self, erase_acceptedRelations]

/-- After one batch of models of different names, each without a repeated attribute, a model has for
every declared relation an entry with its kind and keys exactly if the kind is known, the target is
one of the models and both keys are attributes.  The order of the models does not matter, and whatever
a model declares for one target, be it nothing or what does not hold, changes no other entry. -/
theorem relation_graph_is_exact (hnames : (models.map (·.name)).Nodup)
    (hproper : ∀ m ∈ models, m.IsProper) :
    ∃ r lines, ({} : Registry).register models = (r, lines, .ok ()) ∧ r.IsGraphOf models ∧
      (∀ shuffled, models.Perm shuffled → ∃ r' lines',
        ({} : Registry).register shuffled = (r', lines', .ok ()) ∧
          ∀ name, r'.relationsOf name = r.relationsOf name) ∧
      ∀ before m after relations target, models = before ++ m :: after →
        Entries.erase relations target = Entries.erase m.relations target → ∃ r' lines',
          ({} : Registry).register (before ++ { m with relations } :: after) =
              (r', lines', .ok ()) ∧
            (∀ name, name ≠ m.name → r'.relationsOf name = r.relationsOf name) ∧
            Entries.erase (r'.relationsOf m.name) target =
              Entries.erase (r.relationsOf m.name) target := by
  obtain ⟨r, lines, hr, hrelations, hothers⟩ := relationsOf_register (canTake_empty hnames hproper)
  refine ⟨r, lines, hr, ⟨fun m hm target relation => ?_, fun m hm => ?_, hothers⟩,
    fun shuffled hperm => ?_, fun before m after relations target hmodels hsame => ?_⟩
  · rw [hrelations m hm, mem_acceptedRelations_iff]
    simp only [relationOf?_grown_eq_ok hnames]
  · rw [hrelations m hm]
    exact keys_acceptedRelations _ m
  · have hnames' := (hperm.map (·.name)).nodup_iff.mp hnames
    obtain ⟨r', lines', hr', hrelations', hothers'⟩ := relationsOf_register
      (canTake_empty hnames' fun m hm => hproper m (hperm.mem_iff.mpr hm))
    refine ⟨r', lines', hr', fun name => ?_⟩
    by_cases hname : name ∈ models.map (·.name)
    · obtain ⟨m, hm, rfl⟩ := List.mem_map.mp hname
      rw [hrelations m hm, hrelations' m (hperm.mem_iff.mp hm)]
      exact acceptedRelations_congr (hasSameFields_of_perm hnames hperm) m
    · rw [hothers name hname, hothers' name fun h => hname ((hperm.map (·.name)).mem_iff.mpr h)]
  · subst hmodels
    exact exists_register_replaced hrelations hothers hnames hproper hsame

/-- Authors, who say where their books are, and their shelves, which nobody registers. -/
def author : Model where
  name := "author"
  attributes := [{ name := "id", type := .int, primaryKey := true }]
  relations := [("book", ⟨"hasMany", "id", "author", true⟩), ("shelf", ⟨"hasMany", "id", "author", true⟩)]

/-- Books, each with its author. -/
def book : Model where
  name := "book"
  attributes := [{ name := "id", type := .int, primaryKey := true }, { name := "author", type := .int }]
  relations := [("author", ⟨"belongsTo", "author", "id", false⟩)]

/-- Authors and books know each other in either order, and without the shelves. -/
theorem author_and_book_graph :
    ([author, book].map (·.name)).Nodup ∧ (∀ m ∈ [author, book], m.IsProper) ∧
    ∃ r lines, ({} : Registry).register [author, book] = (r, lines, .ok ()) ∧
      r.IsGraphOf [author, book] ∧
      (∃ r' lines', ({} : Registry).register [book, author] = (r', lines', .ok ()) ∧
        ∀ name, r'.relationsOf name = r.relationsOf name) ∧
      ∃ r' lines', ({} : Registry).register
          [{ author with relations := Entries.erase author.relations "shelf" }, book] =
            (r', lines', .ok ()) ∧
          (∀ name, name ≠ "author" → r'.relationsOf name = r.relationsOf name) ∧
          Entries.erase (r'.relationsOf "author") "shelf" =
            Entries.erase (r.relationsOf "author") "shelf" := by
  have hnames : ([author, book].map (·.name)).Nodup := by decide
  have hproper : ∀ m ∈ [author, book], m.IsProper := by unfold Model.IsProper; decide
  obtain ⟨r, lines, hr, hgraph, hshuffled, hchanged⟩ := relation_graph_is_exact hnames hproper
  exact ⟨hnames, hproper, r, lines, hr, hgraph, hshuffled _ (List.Perm.swap book author []),
    hchanged [] author [book] (Entries.erase author.relations "shelf") "shelf" rfl rfl⟩

end Registry

end TwinStore
