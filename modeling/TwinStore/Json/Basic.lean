import TwinStore.Value.Basic

/-!
# Documents

The values that have a form in JSON text.

Main definitions:

- `Json`: the documents.
- `Json.toValue`: a document read as a value.
-/

namespace TwinStore

/-- A document; the members of an object keep their order. -/
inductive Json where
  | null
  | bool (b : Bool)
  | int (n : Int)
  | float (x : Float)
  | text (s : String)
  | list (items : List Json)
  | object (members : List (String × Json))

instance : Inhabited Json := ⟨.null⟩

namespace Json

mutual

/-- A document as a value. -/
def toValue : Json → Value
  | null => .null
  | bool b => .bool b
  | int n => .int n
  | float x => .float x
  | text s => .text s
  | list items => .list (toValues items)
  | object members => .map (toEntries members)

/-- The values of the items of a list. -/
def toValues : List Json → List Value
  | [] => []
  | item :: rest => toValue item :: toValues rest

/-- The values of the members of an object. -/
def toEntries : List (String × Json) → List (String × Value)
  | [] => []
  | (k, v) :: rest => (k, toValue v) :: toEntries rest

end

end Json

end TwinStore
