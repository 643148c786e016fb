/-!
# Rounding of quotients

Main definitions:

- `roundDivEven`: a quotient of natural numbers rounded to the nearest one, a tie to the even
  neighbour.
- `roundShiftEven`: the same for a signed multiple of a power of two.
- `decimalLength`: the number of decimal digits of a natural number.
-/

namespace TwinStore.Number

/-- The quotient rounded to the nearest natural number; a tie goes to the even neighbour. -/
def roundDivEven (num den : Nat) : Nat :=
  let q := num / den
  let twice := 2 * (num % den)
  if twice < den then q
  else if den < twice then q + 1
  else if q % 2 = 0 then q else q + 1

/-- A signed quotient rounded to the nearest integer; a tie goes to the even neighbour. -/
def roundDivEvenInt (num : Int) (den : Nat) : Int :=
  if num < 0 then -(roundDivEven num.natAbs den : Int) else roundDivEven num.natAbs den

/-- The number of decimal digits of a natural number; zero has one. -/
def decimalLength (n : Nat) : Nat := (Nat.toDigits 10 n).length

/-- The decimal digits of a natural number as text. -/
def digits (n : Nat) : String := String.ofList (Nat.toDigits 10 n)

/-- The decimal digits of an integer as text, with a minus sign below zero. -/
def integerText (n : Int) : String := if n < 0 then "-" ++ digits n.natAbs else digits n.natAbs

/-- The digits of a natural number, padded on the left with zeros to a width. -/
def padded (width n : Nat) : String :=
  let ds := Nat.toDigits 10 n
  String.ofList (List.replicate (width - ds.length) '0' ++ ds)

end TwinStore.Number
