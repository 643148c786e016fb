import TwinStore.Proofs.Registrations

/-!
# Batches of models

A batch is registered one model after another, and the first model that is refused ends it.  What
came before that model stays, what comes after it is never looked at, and no relation is made.  So a
batch that fails changes nothing but the names of the models in front of the refused one.

Main definitions:

- `Registry.CanTake`: a registry that refuses no model of a batch.
- `Registry.grown`: a registry with further models and their tables.
- `Registry.Refuses`: why a model is refused after others were registered.
- `Registry.Reached`: the registries that batches lead to, whether they fail or not.
- `Registry.IsTabled`: what holds of all of them.

Main results:

- Theorems `addModels_eq_ok`, `addModels_eq_error`: where the models of a batch lead to.
- Theorem `Reached.isTabled`: one batch after another keeps models and tables together.
- Theorem `failed_batch_keeps_prefix`: what a batch that fails leaves behind.
-/

namespace TwinStore.Registry

variable {r r' : Registry} {models : List Model} {m : Model} {name : String} {fault : Fault}
  {lines : List LogLine}

/-! ## Models one after another -/

/-- Whether every model of a batch is new and a table can be made for it. -/
structure CanTake (r : Registry) (models : List Model) : Prop where
  areDistinct : (models.map (·.name)).Nodup
  areNew : ∀ m ∈ models, r.hasModel m.name = false
  areUnrepeated : ∀ m ∈ models, Model.hasRepeatedAttribute m.attributes = false

/-- The registry with further models, each with a table. -/
def grown (r : Registry) (models : List Model) : Registry :=
  { r with
    models := r.models ++ models.map fun m => (m.name, m)
    tables := r.tables ++ models.map (·.name) }

/-- The registry with a further model for which no table could be made. -/
def untabled (r : Registry) (m : Model) : Registry :=
  { r with models := r.models ++ [(m.name, m)] }

@[simp]
theorem grown_nil (r : Registry) : r.grown [] = r := by
  simp [grown]

/-- Models may be added in several parts. -/
theorem grown_append (r : Registry) (before after : List Model) :
    (r.grown before).grown after = r.grown (before ++ after) := by
  simp [grown]

/-- The names of models are the keys that they stand under. -/
theorem keys_named (models : List Model) :
    Entries.keys (models.map fun m => (m.name, m)) = models.map (·.name) := by
  rw [Entries.keys, List.map_map]
  rfl

/-- The models of a registry are those that it has a name of. -/
theorem hasModel_iff : r.hasModel name = true ↔ name ∈ r.modelNames := Entries.has_iff

/-- A model that is not registered is not found. -/
theorem hasModel_eq_false : r.hasModel name = false ↔ r.model? name = none := by
  rw [hasModel, Entries.has, model?, Option.isSome_eq_false_iff, Option.isNone_iff_eq_none]

/-- The names after models were added. -/
@[simp]
theorem modelNames_grown (r : Registry) (models : List Model) :
    (r.grown models).modelNames = r.modelNames ++ models.map (·.name) := by
  rw [modelNames, grown, Entries.keys_append, keys_named]
  rfl

/-- A name is known after models were added if it was, or if it is one of theirs. -/
theorem hasModel_grown :
    (r.grown models).hasModel name = true ↔ r.hasModel name = true ∨ name ∈ models.map (·.name) := by
  rw [hasModel_iff, hasModel_iff, modelNames_grown, List.mem_append]

/-- Models are found where they are added. -/
theorem model?_grown (r : Registry) (models : List Model) (name : String) :
    (r.grown models).model? name =
      (r.model? name).or (Entries.get? (models.map fun m => (m.name, m)) name) :=
  Entries.get?_append _ _ _

/-- Under another name everything is found as before. -/
theorem model?_grown_of_notMem (h : name ∉ models.map (·.name)) :
    (r.grown models).model? name = r.model? name := by
  rw [model?_grown, Entries.get?_eq_none_iff.mpr (by rwa [keys_named]), Option.or_none]

/-- A model without a table is found under its name, if there was none. -/
theorem model?_untabled (r : Registry) (m : Model) (name : String) :
    (r.untabled m).model? name = (r.model? name).or (if m.name = name then some m else none) := by
  rw [model?, untabled, Entries.get?_append, Entries.get?_cons]
  rfl

/-- Under another name everything is found as before. -/
theorem model?_untabled_of_ne (h : name ≠ m.name) : (r.untabled m).model? name = r.model? name := by
  rw [model?_untabled, if_neg (Ne.symm h), Option.or_none]

/-- A new model is found under its name. -/
theorem CanTake.model?_grown (h : r.CanTake models) (hm : m ∈ models) :
    (r.grown models).model? m.name = some m := by
  rw [Registry.model?_grown, hasModel_eq_false.mp (h.areNew m hm), Option.none_or]
  exact Entries.get?_map_of_mem id h.areDistinct hm

/-- Nothing is refused in a batch without models. -/
theorem CanTake.nil (r : Registry) : r.CanTake [] :=
  ⟨List.nodup_nil, nofun, nofun⟩

/-- A batch is taken if its first model is, and the others after it. -/
theorem canTake_cons : r.CanTake (m :: models) ↔
    r.hasModel m.name = false ∧ Model.hasRepeatedAttribute m.attributes = false ∧
      (r.grown [m]).CanTake models := by
  have hother (n : Model) : (r.grown [m]).hasModel n.name = false ↔
      r.hasModel n.name = false ∧ n.name ≠ m.name := by
    rw [← Bool.not_eq_true, ← Bool.not_eq_true, hasModel_grown, not_or, List.map_singleton,
      List.mem_singleton]
  constructor
  · rintro ⟨hdistinct, hnew, hproper⟩
    rw [List.map_cons, List.nodup_cons] at hdistinct
    refine ⟨hnew m List.mem_cons_self, hproper m List.mem_cons_self, hdistinct.2, fun n hn => ?_,
      fun n hn => hproper n (List.mem_cons_of_mem m hn)⟩
    refine (hother n).mpr ⟨hnew n (List.mem_cons_of_mem m hn), fun hname => hdistinct.1 ?_⟩
    exact hname ▸ List.mem_map_of_mem hn
  · rintro ⟨hnew, hproper, hdistinct, hnews, hpropers⟩
    refine ⟨?_, fun n hn => ?_, fun n hn => ?_⟩
    · rw [List.map_cons, List.nodup_cons]
      refine ⟨fun hmem => ?_, hdistinct⟩
      obtain ⟨n, hn, hname⟩ := List.mem_map.mp hmem
      exact ((hother n).mp (hnews n hn)).2 hname
    · rcases List.mem_cons.mp hn with rfl | hn
      · exact hnew
      · exact ((hother n).mp (hnews n hn)).1
    · rcases List.mem_cons.mp hn with rfl | hn
      · exact hproper
      · exact hpropers n hn

/-- A model that is new is added with a table, unless an attribute name occurs twice. -/
theorem addModel_of_new (hnew : r.hasModel m.name = false)
    (hproper : Model.hasRepeatedAttribute m.attributes = false) :
    r.addModel m = (r.grown [m], .ok ()) := by
  rw [addModel, hnew, hproper]
  rfl

/-- A model that is refused is there already, or has no table. -/
theorem addModel_eq_error (h : r.addModel m = (r', .error fault)) :
    (r.hasModel m.name = true ∧ fault = .registry (.duplicateModel m.name) ∧ r' = r) ∨
    (r.hasModel m.name = false ∧ Model.hasRepeatedAttribute m.attributes = true ∧
      fault = .duplicateColumn ∧ r' = r.untabled m) := by
  rw [addModel] at h
  cases hknown : r.hasModel m.name with
  | true =>
    rw [hknown, if_pos rfl] at h
    cases h
    exact Or.inl ⟨rfl, rfl, rfl⟩
  | false =>
    rw [hknown, if_neg Bool.false_ne_true] at h
    cases hrepeated : Model.hasRepeatedAttribute m.attributes with
    | true =>
      rw [hrepeated] at h
      cases h
      exact Or.inr ⟨rfl, rfl, rfl, rfl⟩
    | false =>
      rw [hrepeated] at h
      cases h

/-- A batch that is taken is added as a whole. -/
theorem addModels_of_canTake (h : r.CanTake models) :
    r.addModels models = (r.grown models, .ok ()) := by
  induction models generalizing r with
  | nil => rw [grown_nil, addModels]
  | cons m models ih =>
    obtain ⟨hnew, hproper, hrest⟩ := canTake_cons.mp h
    rw [addModels, addModel_of_new hnew hproper]
    exact (ih hrest).trans (by rw [grown_append]; rfl)

/-- A batch that fails was taken up to the model that is refused. -/
theorem addModels_eq_error (h : r.addModels models = (r', .error fault)) :
    ∃ before refused after, models = before ++ refused :: after ∧ r.CanTake before ∧
      (r.grown before).addModel refused = (r', .error fault) := by
  induction models generalizing r with
  | nil => cases h
  | cons m models ih =>
    rw [addModels] at h
    split at h
    · next r₁ hfirst =>
      obtain ⟨hnew, hproper, -⟩ := addModel_eq_ok hfirst
      rw [addModel_of_new hnew hproper] at hfirst
      cases hfirst
      obtain ⟨before, refused, after, rfl, hbefore, hrefused⟩ := ih h
      refine ⟨m :: before, refused, after, rfl, canTake_cons.mpr ⟨hnew, hproper, hbefore⟩, ?_⟩
      rw [grown_append] at hrefused
      exact hrefused
    · exact ⟨[], m, models, rfl, CanTake.nil r, by rwa [grown_nil]⟩

/-- The models of a batch are added as a whole exactly if none is refused. -/
theorem addModels_eq_ok : r.addModels models = (r', .ok ()) ↔ r.CanTake models ∧ r' = r.grown models := by
  refine ⟨fun h => ?_, fun ⟨h, hr'⟩ => hr' ▸ addModels_of_canTake h⟩
  suffices htake : r.CanTake models by
    rw [addModels_of_canTake htake] at h
    exact ⟨htake, (Prod.mk.inj h).1.symm⟩
  induction models generalizing r with
  | nil => exact CanTake.nil r
  | cons m models ih =>
    rw [addModels] at h
    split at h
    · next r₁ hfirst =>
      obtain ⟨hnew, hproper, -⟩ := addModel_eq_ok hfirst
      rw [addModel_of_new hnew hproper] at hfirst
      cases hfirst
      exact canTake_cons.mpr ⟨hnew, hproper, ih h⟩
    · next hfailed => exact absurd h (hfailed r')

/-! ## Batches -/

/-- Giving models their relations changes neither models nor tables. -/
theorem foldl_addRelations_models (r : Registry) (models : List Model) :
    (models.foldl addRelations r).models = r.models ∧
      (models.foldl addRelations r).tables = r.tables := by
  induction models generalizing r with
  | nil => exact ⟨rfl, rfl⟩
  | cons m models ih => exact ih (r.addRelations m)

/-- Only the models of a batch are given relations. -/
theorem relationsOf_foldl_of_notMem (h : name ∉ models.map (·.name)) :
    (models.foldl addRelations r).relationsOf name = r.relationsOf name := by
  induction models generalizing r with
  | nil => rfl
  | cons m models ih =>
    rw [List.map_cons, List.mem_cons, not_or] at h
    refine (ih h.2).trans ?_
    rw [relationsOf, relationsOf, addRelations, Entries.get?_set_of_ne _ _ h.1]

/-- A batch that is taken is registered, with the relations that hold. -/
theorem register_of_canTake (h : r.CanTake models) : r.register models =
    (models.foldl addRelations (r.grown models), models.flatMap (relationReports (r.grown models)),
      .ok ()) := by
  rw [register, addModels_of_canTake h]

/-- A batch is registered only if it is taken. -/
theorem canTake_of_register (h : r.register models = (r', lines, .ok ())) :
    r.CanTake models ∧ r' = models.foldl addRelations (r.grown models) := by
  rw [register] at h
  split at h
  · cases h
  · next r₁ hadded =>
    obtain ⟨htake, rfl⟩ := addModels_eq_ok.mp hadded
    exact ⟨htake, (Prod.mk.inj h).1.symm⟩

/-- A batch that fails does so before any relation is made. -/
theorem addModels_of_register (h : r.register models = (r', lines, .error fault)) :
    r.addModels models = (r', .error fault) := by
  rw [register] at h
  split at h
  · next hfailed =>
    cases h
    exact hfailed
  · cases h

/-- Why a model is refused after others were registered: there is a model of its name, or it has two
attributes of one name. -/
inductive Refuses (r : Registry) (before : List Model) (refused : Model) : Fault → Prop
  | isKnown (h : r.hasModel refused.name = true ∨ refused.name ∈ before.map (·.name)) :
      Refuses r before refused (.registry (.duplicateModel refused.name))
  | isRepeated (hnew : r.hasModel refused.name = false) (hother : refused.name ∉ before.map (·.name))
      (h : Model.hasRepeatedAttribute refused.attributes = true) :
      Refuses r before refused .duplicateColumn

/-- The registries that batches lead to; a batch may fail, and later ones follow. -/
inductive Reached : Registry → Prop
  | empty : Reached {}
  | register {r : Registry} (hr : Reached r) (models : List Model) : Reached (r.register models).1

/-- How models, tables and relations belong together: a table and relations are there for models only,
and a model has a table if one can be made. -/
structure IsTabled (r : Registry) : Prop where
  exists_model : ∀ {name}, name ∈ r.tables → ∃ m, r.model? name = some m
  table_eq : ∀ {name m}, r.model? name = some m → Model.hasRepeatedAttribute m.attributes = false →
    r.table name = .ok m
  relationsOf_eq : ∀ {name}, r.hasModel name = false → r.relationsOf name = []

/-- A table that exists is found under the name of its model. -/
theorem table_eq_ok : r.table name = .ok m ↔ name ∈ r.tables ∧ r.model? name = some m := by
  rw [table, ← List.contains_iff_mem]
  cases r.tables.contains name with
  | false => simp
  | true => cases r.model? name <;> simp

/-- What is asked of a table is whether it is listed, and the model. -/
theorem table_congr (htables : name ∈ r'.tables ↔ name ∈ r.tables)
    (hmodel : r'.model? name = r.model? name) : r'.table name = r.table name := by
  have hlisted : r'.tables.contains name = r.tables.contains name := by
    rw [Bool.eq_iff_iff, List.contains_iff_mem, List.contains_iff_mem, htables]
  rw [table, table, hlisted, hmodel]

/-- Without a table there is nothing to be found. -/
theorem table_of_notMem (h : name ∉ r.tables) : r.table name = .error .missingKey := by
  rw [table, Bool.eq_false_iff.mpr (List.contains_iff_mem.not.mpr h)]

/-- A name without a model has no table. -/
theorem IsTabled.notMem_tables (hr : r.IsTabled) (h : r.hasModel name = false) : name ∉ r.tables := by
  intro hmem
  obtain ⟨m, hm⟩ := hr.exists_model hmem
  rw [hasModel_eq_false.mp h] at hm
  cases hm

/-- Only the names of further models get a table. -/
theorem mem_tables_grown (h : name ∉ models.map (·.name)) :
    name ∈ (r.grown models).tables ↔ name ∈ r.tables := by
  rw [grown, List.mem_append, or_iff_left h]

/-- The empty registry has neither models nor tables. -/
theorem isTabled_empty : IsTabled {} := ⟨nofun, nofun, fun _ => rfl⟩

/-- A model that is registered stays under its name. -/
theorem model?_grown_of_some (h : r.model? name = some m) :
    (r.grown models).model? name = some m := by
  rw [model?_grown, h, Option.some_or]

/-- Taking a batch keeps models and tables together. -/
theorem IsTabled.grown (hr : r.IsTabled) (h : r.CanTake models) : (r.grown models).IsTabled where
  exists_model := by
    intro name hname
    rcases List.mem_append.mp hname with hold | hnew
    · obtain ⟨m, hm⟩ := hr.exists_model hold
      exact ⟨m, model?_grown_of_some hm⟩
    · obtain ⟨m, hm, rfl⟩ := List.mem_map.mp hnew
      exact ⟨m, h.model?_grown hm⟩
  table_eq := by
    intro name m hm hproper
    refine table_eq_ok.mpr ⟨?_, hm⟩
    rw [Registry.model?_grown, Option.or_eq_some_iff] at hm
    rcases hm with hold | ⟨-, hnew⟩
    · exact List.mem_append_left _ (table_eq_ok.mp (hr.table_eq hold hproper)).1
    · refine List.mem_append_right _ ?_
      rw [← keys_named]
      exact Entries.mem_keys_of_mem (Entries.mem_of_get? hnew)
  relationsOf_eq := by
    intro name hname
    refine hr.relationsOf_eq (Bool.not_eq_true _ ▸ fun hknown => ?_)
    exact Bool.false_ne_true (hname.symm.trans (hasModel_grown.mpr (Or.inl hknown)))

/-- A model without a table keeps the other models and their tables together. -/
theorem IsTabled.untabled (hr : r.IsTabled)
    (hrepeated : Model.hasRepeatedAttribute m.attributes = true) : (r.untabled m).IsTabled where
  exists_model := by
    intro name hname
    obtain ⟨n, hn⟩ := hr.exists_model hname
    exact ⟨n, by rw [model?_untabled, hn, Option.some_or]⟩
  table_eq := by
    intro name n hn hproper
    refine table_eq_ok.mpr ⟨?_, hn⟩
    rw [model?_untabled, Option.or_eq_some_iff] at hn
    rcases hn with hold | ⟨-, hrefused⟩
    · exact (table_eq_ok.mp (hr.table_eq hold hproper)).1
    · split_ifs at hrefused
      rw [← Option.some.inj hrefused, hrepeated] at hproper
      cases hproper
  relationsOf_eq := by
    intro name hname
    have hnone := hasModel_eq_false.mp hname
    rw [model?_untabled, Option.or_eq_none_iff] at hnone
    exact hr.relationsOf_eq (hasModel_eq_false.mpr hnone.1)

/-- Giving registered models their relations keeps models and tables together. -/
theorem IsTabled.foldl_addRelations (hr : r.IsTabled)
    (hmodels : ∀ m ∈ models, r.hasModel m.name = true) :
    (models.foldl Registry.addRelations r).IsTabled := by
  obtain ⟨hsame, htables⟩ := foldl_addRelations_models r models
  have hmodel (name : String) : (models.foldl addRelations r).model? name = r.model? name := by
    rw [model?, model?, hsame]
  refine ⟨fun {name} hname => ?_, fun {name m} hm hproper => ?_, fun {name} hname => ?_⟩
  · rw [hmodel]
    exact hr.exists_model (htables ▸ hname)
  · rw [hmodel] at hm
    rw [table_congr (by rw [htables]) (hmodel name)]
    exact hr.table_eq hm hproper
  · rw [hasModel, hsame, ← hasModel] at hname
    rw [relationsOf_foldl_of_notMem, hr.relationsOf_eq hname]
    intro hmem
    obtain ⟨m, hm, rfl⟩ := List.mem_map.mp hmem
    exact Bool.false_ne_true (hname.symm.trans (hmodels m hm))

/-- Registering a batch keeps models and tables together, whether it fails or not. -/
theorem IsTabled.register (hr : r.IsTabled) (models : List Model) :
    (r.register models).1.IsTabled := by
  rcases hregister : r.register models with ⟨r', lines, outcome⟩
  cases outcome with
  | ok =>
    obtain ⟨htake, rfl⟩ := canTake_of_register hregister
    refine (hr.grown htake).foldl_addRelations fun m hm => ?_
    exact hasModel_grown.mpr (Or.inr (List.mem_map_of_mem hm))
  | error fault =>
    have hadded := addModels_of_register hregister
    obtain ⟨before, refused, after, rfl, hbefore, hrefused⟩ := addModels_eq_error hadded
    rcases addModel_eq_error hrefused with ⟨-, -, rfl⟩ | ⟨-, hrepeated, -, rfl⟩
    · exact hr.grown hbefore
    · exact (hr.grown hbefore).untabled hrepeated

/-- Whatever batches were registered, and failed, models and tables belong together. -/
theorem Reached.isTabled (hr : Reached r) : r.IsTabled := by
  induction hr with
  | empty => exact isTabled_empty
  | register _ models ih => exact ih.register models

/-! ## Batches that fail -/

/-- Whether two registries know the same of a name. -/
structure KnowsSame (r r' : Registry) (name : String) : Prop where
  hasModel : r'.hasModel name = r.hasModel name
  isListed : name ∈ r'.modelNames ↔ name ∈ r.modelNames
  attributes : r'.attributesOf name = r.attributesOf name
  attributeTypes : r'.attributeTypes name = r.attributeTypes name
  primaryKeys : r'.primaryKeys name = r.primaryKeys name

/-- What is known of a name is the model under it. -/
theorem KnowsSame.of_model? (h : r'.model? name = r.model? name) : KnowsSame r r' name := by
  have hmodel : r'.hasModel name = r.hasModel name := congrArg Option.isSome h
  refine ⟨hmodel, ?_, ?_, ?_, ?_⟩
  · rw [← hasModel_iff, ← hasModel_iff, hmodel]
  · rw [attributesOf, attributesOf, h]
  · rw [Registry.attributeTypes, Registry.attributeTypes, h]
  · rw [Registry.primaryKeys, Registry.primaryKeys, h]

/-- What a batch leaves behind that fails at a model: the models in front of it are registered, each
with its table, and nothing else has changed, not the relations, not the tables, and, apart from a
model refused for its attributes, not the models. -/
structure StopsAt (r : Registry) (before : List Model) (refused : Model) (fault : Fault)
    (r' : Registry) : Prop where
  refuses : Refuses r before refused fault
  keeps : ∀ m ∈ before, r.hasModel m.name = false ∧ r'.model? m.name = some m ∧
    r'.table m.name = .ok m
  relations : ∀ name, r'.relationsOf name = r.relationsOf name
  tables : ∀ name ∉ before.map (·.name), r'.table name = r.table name
  models : ∀ name ∉ before.map (·.name), (fault = .duplicateColumn → name ≠ refused.name) →
    KnowsSame r r' name

variable {before : List Model} {refused : Model}

/-- Models that are taken are new, and stay if nothing but a table fails after them. -/
theorem StopsAt.of_known (hr : r.IsTabled) (hbefore : r.CanTake before)
    (hknown : (r.grown before).hasModel refused.name = true) :
    StopsAt r before refused (.registry (.duplicateModel refused.name)) (r.grown before) where
  refuses := .isKnown (hasModel_grown.mp hknown)
  keeps := fun m hm =>
    have hmodel := hbefore.model?_grown hm
    ⟨hbefore.areNew m hm, hmodel,
      (hr.grown hbefore).table_eq hmodel (hbefore.areUnrepeated m hm)⟩
  relations := fun _ => rfl
  tables := fun _ hname => table_congr (mem_tables_grown hname) (model?_grown_of_notMem hname)
  models := fun _ hname _ => .of_model? (model?_grown_of_notMem hname)

/-- A model without a table stands apart from those in front of it. -/
theorem StopsAt.of_repeated (hr : r.IsTabled) (hbefore : r.CanTake before)
    (hnew : (r.grown before).hasModel refused.name = false)
    (hrepeated : Model.hasRepeatedAttribute refused.attributes = true) :
    StopsAt r before refused .duplicateColumn ((r.grown before).untabled refused) := by
  have hgrown := hr.grown hbefore
  have hboth : ¬(r.hasModel refused.name = true ∨ refused.name ∈ before.map (·.name)) := by
    rw [← hasModel_grown, hnew]
    exact Bool.false_ne_true
  rw [not_or, Bool.not_eq_true] at hboth
  have hmodel {name : String} (hname : name ∉ before.map (·.name)) (hne : name ≠ refused.name) :
      ((r.grown before).untabled refused).model? name = r.model? name := by
    rw [model?_untabled_of_ne hne, model?_grown_of_notMem hname]
  refine ⟨.isRepeated hboth.1 hboth.2 hrepeated, fun m hm => ?_, fun _ => rfl, fun name hname => ?_,
    fun _ hname hne => .of_model? (hmodel hname (hne rfl))⟩
  · have hne : m.name ≠ refused.name := fun hname => hboth.2 (hname ▸ List.mem_map_of_mem hm)
    have hfound : ((r.grown before).untabled refused).model? m.name = some m := by
      rw [model?_untabled_of_ne hne, hbefore.model?_grown hm]
    refine ⟨hbefore.areNew m hm, hfound, ?_⟩
    exact (hgrown.untabled hrepeated).table_eq hfound (hbefore.areUnrepeated m hm)
  · by_cases hne : name = refused.name
    · -- No table was made for the refused model, and there was none before.
      have hnone := hgrown.notMem_tables (hne ▸ hnew)
      rw [table_of_notMem (r := (r.grown before).untabled refused) hnone,
        table_of_notMem ((mem_tables_grown hname).not.mp hnone)]
    · exact table_congr (mem_tables_grown hname) (hmodel hname hne)

/-- In every state that batches lead to, models and tables belong together, and a batch that fails
there stops at the model that is refused. -/
theorem failed_batch_keeps_prefix (hr : Reached r) :
    r.IsTabled ∧ ∀ {models r' lines fault}, r.register models = (r', lines, .error fault) →
      ∃ before refused after, models = before ++ refused :: after ∧
        StopsAt r before refused fault r' := by
  refine ⟨hr.isTabled, fun {models r' lines fault} h => ?_⟩
  have hadded := addModels_of_register h
  obtain ⟨before, refused, after, rfl, hbefore, hrefused⟩ := addModels_eq_error hadded
  refine ⟨before, refused, after, rfl, ?_⟩
  rcases addModel_eq_error hrefused with ⟨hknown, rfl, rfl⟩ | ⟨hnew, hrepeated, rfl, rfl⟩
  · exact .of_known hr.isTabled hbefore hknown
  · exact .of_repeated hr.isTabled hbefore hnew hrepeated

/-- A model whose only attribute is its key. -/
def numbered (name : String) : Model :=
  { name, attributes := [{ name := "id", type := .int, primaryKey := true }] }

/-- The registry of a library, which knows its authors. -/
def library : Registry := (({} : Registry).register [numbered "author"]).1

/-- A second model of the authors is refused, after the books were registered. -/
theorem second_author_keeps_books :
    Reached library ∧
    library.register [numbered "book", numbered "author", numbered "shelf"] =
      (library.grown [numbered "book"], [], .error (.registry (.duplicateModel "author"))) ∧
    library.IsTabled ∧
    ∃ before refused after, [numbered "book", numbered "author", numbered "shelf"] =
        before ++ refused :: after ∧
      StopsAt library before refused (.registry (.duplicateModel "author"))
        (library.grown [numbered "book"]) := by
  have hreached : Reached library := Reached.empty.register [numbered "author"]
  have hfails : library.register [numbered "book", numbered "author", numbered "shelf"] =
      (library.grown [numbered "book"], [], .error (.registry (.duplicateModel "author"))) := rfl
  obtain ⟨htabled, hbatch⟩ := failed_batch_keeps_prefix hreached
  exact ⟨hreached, hfails, htabled, hbatch hfails⟩

/-- A batch that names a model twice fails, and the model is registered. -/
theorem failed_batch_is_not_undone :
    (({} : Registry).register [numbered "book", numbered "book"]).2.2 =
      .error (.registry (.duplicateModel "book")) ∧
    ({} : Registry).hasModel "book" = false ∧
    (({} : Registry).register [numbered "book", numbered "book"]).1.hasModel "book" = true ∧
    (({} : Registry).register [numbered "book", numbered "book"]).1.table "book" =
      .ok (numbered "book") :=
  ⟨rfl, rfl, rfl, rfl⟩

end TwinStore.Registry
