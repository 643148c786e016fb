/-!
# What an update did

Main definitions:

- `ChangeCounts`: how many records an update found and how many it changed.
-/

namespace TwinStore

/-- How many records matched and how many of them were changed.  With `staleCopies`, the new records
stand beside old ones that could not be removed. -/
structure ChangeCounts where
  found : Nat
  updated : Nat
  staleCopies : Bool := false
deriving DecidableEq, Repr

end TwinStore
