import TwinStore.Calendar.StoredReader
import TwinStore.Fault
import TwinStore.Json.OfValue
import TwinStore.Json.Printer
import TwinStore.Model.Attribute
import TwinStore.Value.Sorted

/-!
# Members of a cache set

A record stands in its set as one line of JSON.  The fields are sorted at every level and nothing is
optional, so equal records have equal members.

Main definitions:

- `document`: the document of a value, if it has one.
- `encode`: the member of a record.
- `decode`: the record of a member, its fields in the form of their types.
-/

namespace TwinStore.Cache

open Number Calendar

/-! ## Writing -/

/-- A decimal number as a document: an integer if it is integral, else the nearest double. -/
def decimalDocument (d : Decimal) : Outcome Json :=
  match d with
  | .infinity _ => .error .outOfRange
  | .nan _ signaling _ => if signaling then .error .signaling else .ok (.float Binary64.nan)
  | .finite _ coefficient exponent =>
    if coefficient ≠ 0 ∧ exponent > Json.integerDigits then .error (.badValue "")
    else
      match d.toInt? Json.integerDigits with
      | some n => Json.ofInteger n
      | none => .ok (.float d.toFloat)

/-- The documents of values that documents lack: times and identifiers are texts, decimals are
numbers. -/
def specialDocument : Value → Outcome Json
  | .decimal d => decimalDocument d
  | .instant t => .ok (.text t.text)
  | .date d => .ok (.text d.text)
  | .uuid u => .ok (.text u.text)
  | v => Json.refused v

/-- The document of a value, the members of its objects in the order of their names. -/
def document (v : Value) : Outcome Json := Json.ofValue specialDocument v.sorted

/-- The member of a record. -/
def encode (record : Record) : Outcome String :=
  (document (.map record)).map Json.compact

/-! ## Reading -/

/-- A reading that may fail for a text without meaning. -/
def meaning {α : Type} (wrap : α → Value) : Option α → Outcome Value
  | some a => .ok (wrap a)
  | none => .error (.badValue "")

/-- A value from a document in the form of its type; null and untyped values stay as they are. -/
def restore (type : Option AttributeType) (v : Value) : Outcome Value :=
  match type, v with
  | _, .null => .ok .null
  | some .datetime, .text s => meaning .instant (StoredReader.dateTime? s)
  | some .datetime, _ => .error (.wrongKind "")
  | some .date, .text s => meaning .date (StoredReader.date? s)
  | some .date, _ => .error (.wrongKind "")
  | some .decimal, v =>
    match Decimal.parse? v.display with
    | some d => .ok (.decimal d)
    | none => .error .signaling
  | some .uuid, .text s => meaning .uuid (Uuid.parse? s)
  | some .uuid, _ => .error .missingMember
  | _, v => .ok v

/-- The record of a member. -/
def decode (raw : String) (types : Entries AttributeType) : Outcome Record := do
  match ← Json.read raw with
  | .object members =>
    members.mapM fun (k, v) => do return (k, ← restore (Entries.get? types k) v.toValue)
  | _ => throw (.badValue "")

end TwinStore.Cache
