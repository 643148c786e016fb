/-!
# Character ranges

A property of characters is given as a sorted list of closed ranges of code points.

Main definitions:

- `CharRanges.contains`: membership of a code point in a sorted table.
-/

namespace TwinStore.Text

/-- A sorted list of closed ranges of code points. -/
abbrev CharRanges := List (Nat × Nat)

namespace CharRanges

/-- Whether a code point lies in one of the ranges; the search ends at the first range beyond it. -/
def contains : CharRanges → Nat → Bool
  | [], _ => false
  | (first, last) :: rest, n =>
    if n < first then false else if n ≤ last then true else contains rest n

end CharRanges

end TwinStore.Text
