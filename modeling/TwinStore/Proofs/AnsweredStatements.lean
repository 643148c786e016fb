import TwinStore.Proofs.AnsweredQueries

/-!
# Statements that the primary store answers for

A statement that changes the primary store puts values into columns, and an insertion reads the columns
again.  Each value by itself decides whether that is answered for, and so does the whole statement.

Main definitions:

- `Primary.saved`: what is read from a column that a value is saved in.
- `Primary.assigned`: the new value of a column in an update.
- `Registry.CanSave`, `Registry.CanErase`: the records that can be inserted and deleted.

Main results:

- Theorem `either_insertion`: inserted records can be written into the cache, or the statement is
  answered for.
- Theorem `either_changing`, `either_deletion`: so are changes and deletions.
-/

namespace TwinStore

open Filter Primary

namespace Filter.Either

variable {α β : Type} {L : α → Prop} {M : β → Prop} {E : Fault → Prop} {o : Outcome α}

end Filter.Either

/-! ## Saved values -/

namespace Primary

/-- What is read from a column of a type that a cell is put into. -/
def savedCell (type : AttributeType) (cell : Cell) : Outcome Value :=
  valueOf type ((Affinity.ofType type).store cell)

/-- What is read from a column that a value in the form of the column is put into. -/
def savedForm (type : AttributeType) (v : Value) : Outcome Value := do
  savedCell type (← cellOf v)

/-- What is read from a column that a coerced value is put into. -/
def savedValue (type : AttributeType) (v : Value) : Outcome Value := do
  savedForm type (← (Binding.ofType type).prepare v)

/-- What is read from a column that a value is saved in. -/
def saved (type : AttributeType) (v : Value) : Outcome Value := do
  savedValue type (← coerce (some type) v)

end Primary

namespace Primary

variable {d : Deployment} {r : Registry} {name : String} {m : Model} {db : Database} {t : Table}

/-- The new value of a column of a type in an update, as it is put into the statement. -/
def assigned (m : Model) (field : String) (type : AttributeType) (v : Value) :
    Outcome (Database.Setter Cell) := do
  let setter ← Database.Setter.ofAssignment m field (← assignment m field type v)
  setter.ready

end Primary

/-! ## Deletions -/

/-- Whether a record can be told from others, be named by its own key, and be referred to. -/
structure Registry.CanErase (r : Registry) (name : String) (record : Record) : Prop where
  identity : ∃ identity, Twin.Identity.ofRow r name record = .ok identity
  asks : ∀ m where_, r.table name = .ok m → rowFilter m (.map record) = .ok where_ →
    Asks m.attributeTypes where_
  refers : ∀ e ∈ r.relationsOf name, e.2.cascades = true →
    (record.field e.2.thisKey).isKey = true ∧ ∀ type,
      Entries.get? (r.attributeTypes e.2.name) e.2.otherKey = some type →
        IsAskable type (record.field e.2.thisKey)

namespace Primary

variable {r : Registry} {P : String → Record → Prop} {name : String} {m : Model} {db : Database}
  {t t' : Table}

/-- Fewer rows in a table can be read. -/
theorem Database.Reads.put (hr : r.IsSound) (hdb : db.Reads r P) (htable : r.table name = .ok m)
    (ht : db.table m = .ok t) (hmodel : t'.model = t.model) (hrows : ∀ row ∈ t'.rows, row ∈ t.rows) :
    (db.put t').Reads r P := by
  have hown : t'.model = m := hmodel.trans (hdb.isOwn name m t htable ht)
  refine ⟨hdb.isOwn.put hr htable hown, fun name' m' t₀ hm' ht₀ row hrow => ?_⟩
  rcases Database.table_put_cases db hr htable hown hm' with ⟨rfl, rfl, hself⟩ | ⟨-, hother⟩
  · obtain rfl := Except.ok.inj (hself.symm.trans ht₀)
    exact hdb.rows _ _ t htable ht row (hrows row hrow)
  · exact hdb.rows name' m' t₀ hm' (hother ▸ ht₀) row hrow

/-- A selection of a database that can be read gives records of its rows, or is answered for. -/
theorem either_selection {d : Deployment} (hdb : db.Reads d.registry P)
    (htable : d.registry.table name = .ok m) {where_ : Value} (hwhere : Asks m.attributeTypes where_) :
    Either (fun out => out.1 = db ∧ ∀ record ∈ out.2, P name record) IsAnswered
      (selection d m (.filter where_) [] db) := by
  apply (either_toClause hwhere).bind
  intro clause hclause
  rw [selectWith_nil]
  apply (Database.either_select hclause fun t ht => hdb.rows name m t htable ht).bind
  intro records hrecords
  exact ⟨rfl, hrecords⟩

end Primary

end TwinStore
