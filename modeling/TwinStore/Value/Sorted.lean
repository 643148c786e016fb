import TwinStore.Value.Basic

/-!
# Values with sorted keys

Main definitions:

- `Value.sorted`: a value whose maps have their entries in the order of their keys, at every level.
-/

namespace TwinStore

/-- Inserts an entry before the first one with a greater key. -/
def Entries.insertSorted {α : Type} (key : String) (value : α) : Entries α → Entries α
  | [] => [(key, value)]
  | (k, v) :: rest =>
    if key < k then (key, value) :: (k, v) :: rest else (k, v) :: insertSorted key value rest

namespace Value

mutual

/-- The value with the entries of every map in the order of their keys. -/
def sorted : Value → Value
  | list items => list (sortedItems items)
  | tuple items => tuple (sortedItems items)
  | map entries => map (sortedEntries entries)
  | v => v

/-- The items of a list, each sorted. -/
def sortedItems : List Value → List Value
  | [] => []
  | item :: rest => sorted item :: sortedItems rest

/-- The entries of a map in the order of their keys, each sorted. -/
def sortedEntries : List (String × Value) → List (String × Value)
  | [] => []
  | (k, v) :: rest => Entries.insertSorted k (sorted v) (sortedEntries rest)

end

end Value

end TwinStore
