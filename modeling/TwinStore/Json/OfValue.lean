import TwinStore.Fault
import TwinStore.Json.Reader

/-!
# Values as documents

Values that documents lack are left to the caller, who may write them in some other form or refuse
them.

Main definitions:

- `Json.ofValue`: the document of a value, given the documents of values that have none.
- `Json.plain`: the document of a value of which no part is missing in documents.
-/

namespace TwinStore.Json

open Number

/-- An integer as a document. -/
def ofInteger (n : Int) : Outcome Json :=
  if decimalLength n.natAbs > integerDigits then .error (.badValue "") else .ok (.int n)

mutual

/-- The document of a value; `other` gives those of values that documents lack. -/
def ofValue (other : Value → Outcome Json) : Value → Outcome Json
  | .null => .ok .null
  | .bool b => .ok (.bool b)
  | .int n => ofInteger n
  | .float x => .ok (.float x)
  | .text s => .ok (.text s)
  | .list items => (ofItems other items).map .list
  | .tuple items => (ofItems other items).map .list
  | .map entries => (ofEntries other entries).map .object
  | v => other v

/-- The documents of a list of values. -/
def ofItems (other : Value → Outcome Json) : List Value → Outcome (List Json)
  | [] => .ok []
  | item :: rest => do return (← ofValue other item) :: (← ofItems other rest)

/-- The members of an object. -/
def ofEntries (other : Value → Outcome Json) :
    List (String × Value) → Outcome (List (String × Json))
  | [] => .ok []
  | (k, v) :: rest => do return (k, ← ofValue other v) :: (← ofEntries other rest)

end

/-- A value that has no document. -/
def refused (v : Value) : Outcome Json :=
  .error (.wrongKind s!"Object of type {v.kindName} is not JSON serializable")

/-- The document of a value, if documents lack no part of it. -/
def plain (v : Value) : Outcome Json := ofValue refused v

/-- The document of a text. -/
def read (s : String) : Outcome Json :=
  match parse s with
  | .ok j => .ok j
  | .error .malformed => .error .malformedDocument
  | .error .longInteger => .error (.badValue "")

end TwinStore.Json
