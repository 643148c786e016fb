import TwinStore.Calendar.DateTime
import TwinStore.Number.Decimal
import TwinStore.Value.Uuid

/-!
# Values

Records, filter operands and diagnostic contexts hold values of these kinds.  Maps keep the order of
their entries, because it decides in which order conditions are read and messages are written.

Main definitions:

- `Value`: the values.
- `Entries`: the entries of a map, with `Entries.get?`, `Entries.set` and `Entries.keys`.
- `Record`: the fields of a model instance, with `Record.field` and `Record.project`.
- `Value.isTruthy`: which values count as true.
-/

namespace TwinStore

open Number Calendar

/-- A dynamic value.  A `foreign` value is one that can neither be written nor compared. -/
inductive Value where
  | null
  | bool (b : Bool)
  | int (n : Int)
  | float (x : Float)
  | decimal (d : Decimal)
  | text (s : String)
  | bytes (bs : List UInt8)
  | instant (t : DateTime)
  | date (d : Date)
  | uuid (u : Uuid)
  | list (items : List Value)
  | tuple (items : List Value)
  | map (entries : List (String × Value))
  | foreign

instance : Inhabited Value := ⟨.null⟩

/-- The entries of a map in order; no key occurs twice. -/
abbrev Entries (α : Type) := List (String × α)

namespace Entries

variable {α : Type}

/-- The value at a key. -/
def get? (entries : Entries α) (key : String) : Option α :=
  (entries.find? (·.1 == key)).map (·.2)

/-- Whether a key occurs. -/
def has (entries : Entries α) (key : String) : Bool := (get? entries key).isSome

/-- The keys in order. -/
def keys (entries : Entries α) : List String := entries.map (·.1)

/-- Changes the value at a key in its place, or adds it at the end. -/
def set : Entries α → String → α → Entries α
  | [], key, value => [(key, value)]
  | (k, v) :: rest, key, value =>
    if k = key then (k, value) :: rest else (k, v) :: set rest key value

/-- The entries of a list of pairs in which a later pair replaces an earlier one of the same key. -/
def ofPairs (pairs : List (String × α)) : Entries α :=
  pairs.foldl (fun entries (k, v) => set entries k v) []

/-- The first list with the entries of the second set in order. -/
def merge (entries new : Entries α) : Entries α :=
  new.foldl (fun entries (k, v) => set entries k v) entries

/-- Without a key. -/
def erase (entries : Entries α) (key : String) : Entries α := entries.filter (·.1 != key)

end Entries

/-- The fields of one instance of a model. -/
abbrev Record := Entries Value

namespace Value

/-- Whether the value is null. -/
def isNull : Value → Bool
  | null => true
  | _ => false

/-- Whether the value is a map. -/
def isMap : Value → Bool
  | map _ => true
  | _ => false

/-- The name of the kind of a value, as messages show it. -/
def kindName : Value → String
  | null => "NoneType"
  | bool _ => "bool"
  | int _ => "int"
  | float _ => "float"
  | decimal _ => "Decimal"
  | text _ => "str"
  | bytes _ => "bytes"
  | instant _ => "datetime"
  | date _ => "date"
  | uuid _ => "UUID"
  | list _ => "list"
  | tuple _ => "tuple"
  | map _ => "dict"
  | foreign => "object"

/-- Whether a value counts as true: null, false, zero and everything empty do not. -/
def isTruthy : Value → Bool
  | null => false
  | bool b => b
  | int n => n != 0
  | float x => x != 0.0
  | decimal d => !d.isZero
  | text s => !s.isEmpty
  | bytes bs => !bs.isEmpty
  | list items => !items.isEmpty
  | tuple items => !items.isEmpty
  | map entries => !entries.isEmpty
  | instant _ | date _ | uuid _ | foreign => true

end Value

namespace Record

/-- The value of a field; a missing field reads as null. -/
def field (record : Record) (name : String) : Value := (Entries.get? record name).getD .null

/-- The fields of a record that are wanted or kept anyway; all of them if nothing is said. -/
def project (record : Record) (wanted : Option (List String)) (kept : List String) : Record :=
  match wanted with
  | none => record
  | some names => record.filter fun (k, _) => names.contains k || kept.contains k

end Record

end TwinStore
