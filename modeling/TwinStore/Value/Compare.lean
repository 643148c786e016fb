import TwinStore.Value.Basic

/-!
# Comparing values

Numbers of all kinds compare by exact value, true and false counting as one and zero.  Points of
time with and without an offset are never equal and have no order, nor have values of different
kinds.

Main definitions:

- `Value.equal?`: equality; it is refused where a signalling value that is not a number takes part.
- `Value.order?`: the order of two values, where they have one.
-/

namespace TwinStore

open Number Calendar

namespace Value

/-- The exact number of a numeric value. -/
def number? : Value → Option Decimal
  | bool b => some (.ofInt (if b then 1 else 0))
  | int n => some (.ofInt n)
  | float x => some (.ofFloat x)
  | decimal d => some d
  | _ => none

/-- Equality of two numbers; `none` if one of them is a signalling value. -/
def equalNumbers? (a b : Decimal) : Option Bool :=
  if a.isSignaling || b.isSignaling then none else some (a.compare? b == some .eq)

/-- Equality of two values that hold no others. -/
def equalAtoms? (a b : Value) : Option Bool :=
  match number? a, number? b with
  | some x, some y => equalNumbers? x y
  | _, _ =>
    some <| match a, b with
      | null, null => true
      | text s, text t => s == t
      | bytes s, bytes t => s == t
      | instant s, instant t => s.compare? t == some .eq
      | date s, date t => s == t
      | uuid s, uuid t => s == t
      | _, _ => false

mutual

/-- Equality of two values; `none` if a signalling value has to be compared. -/
def equal? : Value → Value → Option Bool
  | list xs, list ys => if xs.length ≠ ys.length then some false else equalItems? xs ys
  | tuple xs, tuple ys => equalItems? xs ys
  | map xs, map ys => if xs.length ≠ ys.length then some false else equalEntries? xs ys
  | a, b => equalAtoms? a b

/-- Equality item by item, up to the first difference. -/
def equalItems? : List Value → List Value → Option Bool
  | [], [] => some true
  | x :: xs, y :: ys =>
    match equal? x y with
    | some true => equalItems? xs ys
    | answer => answer
  | _, _ => some false

/-- Equality of the entries of two maps of the same size. -/
def equalEntries? : List (String × Value) → List (String × Value) → Option Bool
  | [], _ => some true
  | (k, v) :: rest, ys =>
    match Entries.get? ys k with
    | none => some false
    | some w =>
      match equal? v w with
      | some true => equalEntries? rest ys
      | answer => answer

end

/-- Lexicographic order of two lists of numbers. -/
def orderBytes : List UInt8 → List UInt8 → Ordering
  | [], [] => .eq
  | [], _ :: _ => .lt
  | _ :: _, [] => .gt
  | x :: xs, y :: ys => (compare x.toNat y.toNat).then (orderBytes xs ys)

/-- Order of two values that hold no others. -/
def orderAtoms? (a b : Value) : Option Ordering :=
  match number? a, number? b with
  | some x, some y => x.compare? y
  | _, _ =>
    match a, b with
    | text s, text t => some (compare s t)
    | bytes s, bytes t => some (orderBytes s t)
    | instant s, instant t => s.compare? t
    | date s, date t => some (compareDate s t)
    | uuid s, uuid t => some (compare s.value t.value)
    | _, _ => none

mutual

/-- Order of two values; `none` if they have none. -/
def order? : Value → Value → Option Ordering
  | list xs, list ys => orderItems? xs ys
  | tuple xs, tuple ys => orderItems? xs ys
  | a, b => orderAtoms? a b

/-- Order by the first items that differ, else by length. -/
def orderItems? : List Value → List Value → Option Ordering
  | [], [] => some .eq
  | [], _ :: _ => some .lt
  | _ :: _, [] => some .gt
  | x :: xs, y :: ys =>
    match equal? x y with
    | none => none
    | some true => orderItems? xs ys
    | some false => order? x y

end

/-- Whether a value equals one of a list; the search stops at the first that does. -/
def isMember? (v : Value) : List Value → Option Bool
  | [] => some false
  | x :: xs =>
    match equal? v x with
    | some false => isMember? v xs
    | answer => answer

end Value

end TwinStore
