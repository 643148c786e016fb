import TwinStore.Fault

/-!
# Values that hold or index others

Main definitions:

- `Value.entries`: the entries of a map.
- `Value.items`: the items of a value that holds several.
- `Value.isKey`: whether a value can be looked up.
- `Value.names`: the names that a value lists.
-/

namespace TwinStore.Value

/-- The entries of a map; no other value has any. -/
def entries : Value → Outcome (Entries Value)
  | map fields => .ok fields
  | _ => .error .missingMember

/-- The items of a value that holds several: a map holds its keys, a text its characters. -/
def items : Value → Outcome (List Value)
  | list vs | tuple vs => .ok vs
  | map entries => .ok (entries.map fun (k, _) => text k)
  | text s => .ok (s.toList.map fun c => text c.toString)
  | bytes bs => .ok (bs.map fun b => int b.toNat)
  | v => .error (.wrongKind s!"'{v.kindName}' object is not iterable")

mutual

/-- Whether a value can be looked up among others: lists, maps and signalling numbers cannot. -/
def isKey : Value → Bool
  | list _ | map _ => false
  | decimal d => !d.isSignaling
  | tuple vs => areKeys vs
  | _ => true

/-- Whether all values of a list can be looked up. -/
def areKeys : List Value → Bool
  | [] => true
  | v :: rest => isKey v && areKeys rest

end

/-- A value that can be looked up. -/
def asKey (v : Value) : Outcome Value :=
  if v.isKey then .ok v else .error (.wrongKind s!"unhashable type: '{v.kindName}'")

/-- The names that a value lists; an item that is no name is left out. -/
def names (v : Value) : Outcome (List String) := do
  let keys ← (← v.items).mapM asKey
  return keys.filterMap fun
    | text s => some s
    | _ => none

end TwinStore.Value
