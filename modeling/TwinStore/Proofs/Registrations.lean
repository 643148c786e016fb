import TwinStore.Model.Registry
import TwinStore.Proofs.Entries
import TwinStore.Text.Identifier

/-!
# Registered models

Declarations name models and attributes by identifiers, and a registration refuses what is declared
twice.  So whatever batches were registered, the models of a registry stand under their names, their
attributes have different names, and the keys of their relations are attributes of both sides.

Main definitions:

- `Model.IsDeclared`: a model whose names are identifiers.
- `Model.IsProper`: a model whose attributes have different names.
- `Registry.Built`: the registries that registrations make.
- `Registry.IsSound`: what holds of all of them.

Main result:

- Theorem `Built.isSound`: registrations make sound registries.
-/

namespace TwinStore

/-! ## Models -/

namespace Model

/-- Whether the attributes have different names, so that a table can be made. -/
def IsProper (m : Model) : Prop := (m.attributes.map (·.name)).Nodup

/-- A model without a repeated attribute is proper. -/
theorem isProper_of_hasRepeatedAttribute {attributes : List Attribute}
    (h : hasRepeatedAttribute attributes = false) : (attributes.map (·.name)).Nodup := by
  induction attributes with
  | nil => exact List.nodup_nil
  | cons a rest ih =>
    rw [hasRepeatedAttribute, Bool.or_eq_false_iff, List.any_eq_false] at h
    rw [List.map_cons, List.nodup_cons]
    refine ⟨fun hmem => ?_, ih h.2⟩
    obtain ⟨b, hb, hname⟩ := List.mem_map.mp hmem
    exact h.1 b hb (by simp [hname])

variable {m : Model}

/-- The types of a proper model are listed under its names. -/
theorem IsProper.attributeTypes_eq (hm : m.IsProper) :
    m.attributeTypes = m.attributes.map fun a => (a.name, a.type) := by
  refine Entries.ofPairs_eq_self ?_
  rwa [Entries.keys, List.map_map]

/-- An attribute is known with its type. -/
theorem IsProper.get?_attributeTypes (hm : m.IsProper) {a : Attribute} (ha : a ∈ m.attributes) :
    Entries.get? m.attributeTypes a.name = some a.type := by
  rw [hm.attributeTypes_eq]
  exact Entries.get?_map_of_mem (·.type) hm ha

/-- What is known with a type is an attribute. -/
theorem IsProper.exists_attribute (hm : m.IsProper) {field : String} {type : AttributeType}
    (h : Entries.get? m.attributeTypes field = some type) :
    ∃ a ∈ m.attributes, a.name = field ∧ a.type = type := by
  rw [hm.attributeTypes_eq] at h
  obtain ⟨a, ha, heq⟩ := List.mem_map.mp (Entries.mem_of_get? h)
  cases heq
  exact ⟨a, ha, rfl, rfl⟩

end Model

namespace Model

/-- Whether a model is named by identifiers, as every declaration is that can be read. -/
structure IsDeclared (m : Model) : Prop where
  name : Text.isIdentifier m.name = true
  attributes : ∀ a ∈ m.attributes, Text.isIdentifier a.name = true

end Model

namespace Registry

/-! ## Models of a registry -/

variable {r r' : Registry} {name : String} {m : Model}

/-- A model with a table is registered. -/
theorem hasModel_of_table (h : r.table name = .ok m) : r.hasModel name = true := by
  unfold table at h
  split at h
  · next hmodel =>
    rw [hasModel, Entries.has]
    rw [model?] at hmodel
    rw [hmodel]
    rfl
  · cases h

/-- A model with a table is the model of its name. -/
theorem model?_of_table (h : r.table name = .ok m) : r.model? name = some m := by
  unfold table at h
  split at h
  · next hmodel =>
    rw [← Except.ok.inj h]
    exact hmodel
  · cases h

/-- The types of the fields are those of the table. -/
theorem attributeTypes_of_table (h : r.table name = .ok m) :
    r.attributeTypes name = m.attributeTypes := by
  rw [attributeTypes, model?_of_table h]
  rfl

/-- What holds of a registry: models are declared and stand under their names, each has a table, and
the keys of a relation are attributes of its two models. -/
structure IsSound (r : Registry) : Prop where
  isNamed : ∀ {name m}, (name, m) ∈ r.models → m.name = name
  isDeclared : ∀ {name m}, r.model? name = some m → m.IsDeclared
  isProper : ∀ {name m}, r.model? name = some m → m.IsProper
  hasTable : ∀ {name m}, r.model? name = some m → name ∈ r.tables
  isRelated : ∀ {name target relation}, (target, relation) ∈ r.relationsOf name →
    relation.name = target ∧ ∃ m other, r.model? name = some m ∧ r.model? target = some other ∧
      m.hasAttribute relation.thisKey = true ∧ other.hasAttribute relation.otherKey = true

/-- A model is found under its name. -/
theorem IsSound.name_eq (hr : r.IsSound) (hm : r.model? name = some m) : m.name = name :=
  hr.isNamed (Entries.mem_of_get? hm)

/-! ## Registration -/

/-- The empty registry is sound. -/
theorem isSound_empty : IsSound {} where
  isNamed := nofun
  isDeclared := nofun
  isProper := nofun
  hasTable := nofun
  isRelated := nofun

/-- A model that is added is new, and gets a table. -/
theorem addModel_eq_ok (h : r.addModel m = (r', .ok ())) :
    r.hasModel m.name = false ∧ Model.hasRepeatedAttribute m.attributes = false ∧
      r' = { r with models := r.models ++ [(m.name, m)], tables := r.tables ++ [m.name] } := by
  rw [Registry.addModel] at h
  cases hnew : r.hasModel m.name with
  | true =>
    rw [hnew] at h
    cases h
  | false =>
    cases hrepeated : Model.hasRepeatedAttribute m.attributes with
    | true =>
      rw [hnew, hrepeated] at h
      cases h
    | false =>
      rw [hnew, hrepeated] at h
      cases h
      exact ⟨rfl, rfl, rfl⟩

/-- Adding a model keeps a registry sound, and all models and relations of it. -/
theorem IsSound.addModel (hr : r.IsSound) (hm : m.IsDeclared) (h : r.addModel m = (r', .ok ())) :
    r'.IsSound ∧ r'.model? m.name = some m ∧
      ∀ name m', r.model? name = some m' → r'.model? name = some m' := by
  obtain ⟨hnew, hrepeated, hr'⟩ := addModel_eq_ok h
  have hlookup (name : String) :
      r'.model? name = (r.model? name).or (if m.name = name then some m else none) := by
    rw [hr', model?, Entries.get?_append, Entries.get?_cons]
    rfl
  have hfresh : r.model? m.name = none := by
    rw [model?, Entries.get?_eq_none_iff, ← Entries.has_iff, ← hasModel, hnew]
    exact Bool.false_ne_true
  have hkeep (name : String) (m' : Model) (hm' : r.model? name = some m') :
      r'.model? name = some m' := by
    rw [hlookup, hm', Option.some_or]
  have hcases {name : String} {m' : Model} (hm' : r'.model? name = some m') :
      r.model? name = some m' ∨ m.name = name ∧ m = m' := by
    rw [hlookup, Option.or_eq_some_iff] at hm'
    rcases hm' with hold | ⟨_, hnew⟩
    · exact Or.inl hold
    · split_ifs at hnew with hname
      exact Or.inr ⟨hname, Option.some.inj hnew⟩
  refine ⟨⟨fun hm' => ?_, fun hm' => ?_, fun hm' => ?_, fun hm' => ?_, fun hrelation => ?_⟩, ?_, hkeep⟩
  · rw [hr'] at hm'
    rcases List.mem_append.mp hm' with hold | hnew
    · exact hr.isNamed hold
    · cases List.mem_singleton.mp hnew
      rfl
  · rcases hcases hm' with hold | ⟨_, rfl⟩
    · exact hr.isDeclared hold
    · exact hm
  · rcases hcases hm' with hold | ⟨_, rfl⟩
    · exact hr.isProper hold
    · exact Model.isProper_of_hasRepeatedAttribute hrepeated
  · rw [hr']
    rcases hcases hm' with hold | ⟨rfl, rfl⟩
    · exact List.mem_append_left _ (hr.hasTable hold)
    · exact List.mem_append_right _ (List.mem_singleton_self _)
  · rw [hr'] at hrelation
    obtain ⟨hname, m', other, hm', hother, hkeys⟩ := hr.isRelated hrelation
    exact ⟨hname, m', other, hkeep _ _ hm', hkeep _ _ hother, hkeys⟩
  · rw [hlookup, hfresh, Option.none_or, if_pos rfl]

/-- Adding several models keeps a registry sound, and its models. -/
theorem IsSound.addModels {models : List Model} (hr : r.IsSound)
    (hmodels : ∀ m ∈ models, m.IsDeclared) (h : r.addModels models = (r', .ok ())) :
    r'.IsSound ∧ (∀ m ∈ models, r'.model? m.name = some m) ∧
      ∀ name m', r.model? name = some m' → r'.model? name = some m' := by
  induction models generalizing r with
  | nil =>
    cases h
    exact ⟨hr, by simp, fun _ _ => id⟩
  | cons m models ih =>
    rw [Registry.addModels] at h
    split at h
    · next r₁ hfirst =>
      obtain ⟨hr₁, hm₁, hkeep₁⟩ := hr.addModel (hmodels m List.mem_cons_self) hfirst
      obtain ⟨hr', hrest, hkeep⟩ := ih hr₁ (fun m' hm' => hmodels m' (List.mem_cons_of_mem m hm')) h
      refine ⟨hr', fun m' hm' => ?_, fun name m' hm' => hkeep name m' (hkeep₁ name m' hm')⟩
      rcases List.mem_cons.mp hm' with rfl | hm'
      · exact hkeep m'.name m' hm₁
      · exact hrest m' hm'
    · next hfailed => exact absurd h (hfailed r')

/-- A relation that is accepted joins attributes of two registered models. -/
theorem mem_acceptedRelations {target : String} {relation : Relation}
    (h : (target, relation) ∈ r.acceptedRelations m) :
    relation.name = target ∧ ∃ other, r.model? target = some other ∧
      m.hasAttribute relation.thisKey = true ∧ other.hasAttribute relation.otherKey = true := by
  obtain ⟨⟨target', spec⟩, _, haccepted⟩ := List.mem_filterMap.mp h
  simp only at haccepted
  split at haccepted
  · next relation' hrelation =>
    obtain ⟨rfl, rfl⟩ := Prod.mk.inj (Option.some.inj haccepted)
    simp only [relationOf?] at hrelation
    split at hrelation
    · cases hrelation
    · cases hrelation
    · next kind other _ hother =>
      split_ifs at hrelation with hthis hother'
      cases hrelation
      exact ⟨rfl, other, hother, by simpa using hthis, by simpa using hother'⟩
  · cases haccepted

/-- Giving a model its relations keeps a registry sound. -/
theorem IsSound.addRelations (hr : r.IsSound) (hm : r.model? m.name = some m) :
    (r.addRelations m).IsSound where
  isNamed := hr.isNamed
  isDeclared := hr.isDeclared
  isProper := hr.isProper
  hasTable := hr.hasTable
  isRelated := by
    intro name target relation hrelation
    by_cases hname : name = m.name
    · subst hname
      rw [relationsOf, Registry.addRelations, Entries.get?_set_self, Option.getD_some] at hrelation
      obtain ⟨htarget, other, hother, hkeys⟩ := mem_acceptedRelations hrelation
      exact ⟨htarget, m, other, hm, hother, hkeys⟩
    · rw [relationsOf, Registry.addRelations, Entries.get?_set_of_ne _ _ hname] at hrelation
      exact hr.isRelated hrelation

/-- Giving models their relations keeps a registry sound. -/
theorem IsSound.foldl_addRelations {models : List Model} (hr : r.IsSound)
    (hmodels : ∀ m ∈ models, r.model? m.name = some m) :
    (models.foldl Registry.addRelations r).IsSound := by
  induction models generalizing r with
  | nil => exact hr
  | cons m models ih =>
    exact ih (hr.addRelations (hmodels m List.mem_cons_self)) fun m' hm' =>
      hmodels m' (List.mem_cons_of_mem m hm')

/-- The registries that registrations make, batch by batch. -/
inductive Built : Registry → Prop
  | empty : Built {}
  | register {r r' : Registry} {models : List Model} {lines : List LogLine} (hr : Built r)
      (hmodels : ∀ m ∈ models, m.IsDeclared) (h : r.register models = (r', lines, .ok ())) :
      Built r'

/-- Registrations make sound registries. -/
theorem Built.isSound (h : Built r) : r.IsSound := by
  induction h with
  | empty => exact isSound_empty
  | @register r r' models lines _ hmodels h ih =>
    rw [Registry.register] at h
    split at h
    · cases h
    · next r₁ hadded =>
      obtain ⟨hr₁, hfound, _⟩ := ih.addModels hmodels hadded
      obtain ⟨rfl, _⟩ := Prod.mk.inj h
      exact hr₁.foldl_addRelations hfound

/-- A registered model of a sound registry has a table. -/
theorem IsSound.table_eq (hr : r.IsSound) (hm : r.model? name = some m) :
    r.table name = .ok m := by
  rw [table, List.contains_iff_mem.mpr (hr.hasTable hm), hm]

end Registry

end TwinStore
