import TwinStore.Number.Rounding

/-!
# Binary floating point numbers, exactly

A finite double is a signed integer times a power of two.  Everything that must be exact is computed
on that pair; a result goes back to a double through one correctly rounded division.

Main definitions:

- `scaled?`: a finite double as mantissa and exponent.
- `ofRatio`: the double nearest to a quotient, a tie to the even mantissa.
- `shortestDigits`: the fewest decimal digits that read back as the same double, and of those the
  nearest.
- `Layout`: how chosen digits are written; `plainLayout` is the layout of this library.
-/

namespace TwinStore.Number.Binary64

-- Powers are those of the integers and natural numbers, whatever algebra is in scope.
attribute [local instance (1100)] instPowNat

/-! ## The exact value of a double -/

/-- A signed multiple of a power of two. -/
structure Scaled where
  mantissa : Int
  exponent : Int
deriving DecidableEq, Repr

/-- The sign bit of a double. -/
def isNegative (x : Float) : Bool := x.toBits.toNat ≥ 2 ^ (63 : Nat)

/-- The exact value of a finite double; `none` for infinities and for NaN. -/
def scaled? (x : Float) : Option Scaled :=
  let bits := x.toBits.toNat
  let biased : Nat := bits / 2 ^ (52 : Nat) % 2 ^ (11 : Nat)
  let fraction : Nat := bits % 2 ^ (52 : Nat)
  let sign : Int := if bits ≥ 2 ^ (63 : Nat) then -1 else 1
  if biased = 2047 then none
  else if biased = 0 then some ⟨sign * fraction, -1074⟩
  else some ⟨sign * (fraction + 2 ^ (52 : Nat)), biased - 1075⟩

namespace Scaled

/-- The value as a fraction with a positive denominator. -/
def toRatio (s : Scaled) : Int × Nat :=
  if s.exponent < 0 then (s.mantissa, 2 ^ s.exponent.natAbs)
  else (s.mantissa * 2 ^ s.exponent.natAbs, 1)

/-- The integral part, rounded toward zero. -/
def truncate (s : Scaled) : Int := let (n, d) := s.toRatio; Int.tdiv n d

/-- The greatest integer that is not above the value. -/
def floor (s : Scaled) : Int := let (n, d) := s.toRatio; Int.fdiv n d

/-- Whether the value is an integer. -/
def isIntegral (s : Scaled) : Bool := let (n, d) := s.toRatio; n % d = 0

/-- The nearest integer, a tie to the even one. -/
def roundEven (s : Scaled) : Int := let (n, d) := s.toRatio; roundDivEvenInt n d

/-- The nearest integer, a tie away from zero. -/
def roundAway (s : Scaled) : Int :=
  let (n, d) := s.toRatio
  if n < 0 then -((2 * n.natAbs + d) / (2 * d) : Nat) else ((2 * n.natAbs + d) / (2 * d) : Nat)

end Scaled

/-! ## From quotients to doubles -/

/-- Positive or negative infinity. -/
def infinity (negative : Bool) : Float :=
  Float.ofBits (if negative then 0xFFF0000000000000 else 0x7FF0000000000000)

/-- The value that is not a number. -/
def nan : Float := Float.ofBits 0x7FF8000000000000

/-- The double nearest to `num / den`, a tie to the even mantissa; beyond the range it is an
infinity. -/
def ofRatio (negative : Bool) (num den : Nat) : Float :=
  let signBit : Nat := if negative then 2 ^ (63 : Nat) else 0
  if num = 0 then Float.ofBits (UInt64.ofNat signBit)
  else
    let guess : Int := (num.log2 : Int) - den.log2 - 53
    let atLeast (e : Int) : Bool :=
      if e < 0 then num * 2 ^ e.natAbs ≥ den else num ≥ den * 2 ^ e.natAbs
    let fitted := if atLeast (guess + 53) then guess + 1 else guess
    let exponent := max fitted (-1074)
    let n :=
      if exponent < 0 then roundDivEven (num * 2 ^ exponent.natAbs) den
      else roundDivEven num (den * 2 ^ exponent.natAbs)
    let bits : Nat :=
      if n < 2 ^ (52 : Nat) then n else (exponent + 1075).toNat * 2 ^ (52 : Nat) + (n - 2 ^ (52 : Nat))
    if bits ≥ 2047 * 2 ^ (52 : Nat) then infinity negative
    else Float.ofBits (UInt64.ofNat (signBit + bits))

/-- The double nearest to a signed quotient. -/
def ofSignedRatio (num : Int) (den : Nat) : Float := ofRatio (num < 0) num.natAbs den

/-- The double nearest to an integer; `none` beyond the range of doubles. -/
def ofInt? (n : Int) : Option Float :=
  let x := ofSignedRatio n 1
  if (scaled? x).isSome then some x else none

/-- The double nearest to `coefficient · 10 ^ exponent`. -/
def ofDecimal (negative : Bool) (coefficient : Nat) (exponent : Int) : Float :=
  if coefficient = 0 then ofRatio negative 0 1
  else
    let magnitude := exponent + decimalLength coefficient
    if magnitude > 400 then infinity negative
    else if magnitude < -400 then ofRatio negative 0 1
    else if exponent < 0 then ofRatio negative coefficient (10 ^ exponent.natAbs)
    else ofRatio negative (coefficient * 10 ^ exponent.natAbs) 1

/-- The double with an exact scaled value. -/
def ofScaled (s : Scaled) : Float := let (n, d) := s.toRatio; ofSignedRatio n d

/-- The part of a finite double after the point, with the sign of the double. -/
def fractionalPart (s : Scaled) : Float :=
  let (n, d) := s.toRatio
  ofRatio (s.mantissa < 0) (n.natAbs % d) d

/-! ## The shortest decimal form -/

/-- The least `k` with `num / den < 10 ^ k`, sought near the estimate that the binary lengths
give. -/
def decimalPoint (num den : Nat) : Int :=
  let estimate := ((num.log2 : Int) - den.log2) * 1233 / 4096
  let below (k : Int) : Bool :=
    if k < 0 then num * 10 ^ k.natAbs < den else num < den * 10 ^ k.natAbs
  (([-1, 0, 1, 2].map (estimate + ·)).find? below).getD (estimate + 3)

/-- Of the decimal grid with `count` digits below `10 ^ point`, the point nearest to the value that
lies in the interval of numbers which round to it; the value and the ends of the interval are given
as numerators over one denominator. -/
def gridHit? (value low high den : Nat) (closed : Bool) (point : Int) (count : Nat) :
    Option (Nat × Int) :=
  let exponent := point - count
  let up := if exponent < 0 then 10 ^ exponent.natAbs else 1
  let down := if exponent < 0 then 1 else 10 ^ exponent.natAbs
  let unit := den * down
  let value := value * up
  let inside (n : Nat) : Bool :=
    let g := n * unit
    if closed then low * up ≤ g && g ≤ high * up else low * up < g && g < high * up
  let lower := value / unit
  let rest := value % unit
  let preferLower := 2 * rest < unit || (2 * rest == unit && lower % 2 == 0)
  let candidates := if preferLower then [lower, lower + 1] else [lower + 1, lower]
  (candidates.find? inside).map (·, exponent)

/-- A coefficient without trailing zeros, the exponent raised for each one dropped. -/
def dropZeros : Nat → Nat → Int → Nat × Int
  | 0, n, e => (n, e)
  | fuel + 1, n, e => if n ≠ 0 ∧ n % 10 = 0 then dropZeros fuel (n / 10) (e + 1) else (n, e)

/-- The fewest decimal digits, as coefficient and exponent, that read back as the double whose
absolute value is `mantissa · 2 ^ exponent`; among those the nearest. -/
def shortestDigits (mantissa : Nat) (exponent : Int) : Nat × Int :=
  if mantissa = 0 then (0, 0)
  else
    let quarter := exponent - 2
    let scale := if quarter < 0 then 1 else 2 ^ quarter.natAbs
    let den := if quarter < 0 then 2 ^ quarter.natAbs else 1
    let value := 4 * mantissa * scale
    let gapBelow := if mantissa = 2 ^ (52 : Nat) ∧ exponent > -1074 then 1 else 2
    let low := (4 * mantissa - gapBelow) * scale
    let high := (4 * mantissa + 2) * scale
    let point := decimalPoint value den
    let closed := mantissa % 2 = 0
    match (List.range 17).findSome? fun i => gridHit? value low high den closed point (i + 1) with
    | some (n, e) => dropZeros 20 n e
    | none => (mantissa, exponent)

/-! ## Layout -/

/-- How the digits of a number are laid out as text. -/
structure Layout where
  /-- Numbers whose first digit has a place below this one use an exponent. -/
  lowestPlace : Int
  /-- Numbers whose first digit has this place or a higher one use an exponent. -/
  highestPlace : Int
  infinityText : String
  nanText : String

/-- Positional from `0.0001` below `10 ^ 16`, with a point in any case; otherwise one digit before
the point and an exponent of two digits or more. -/
def plainLayout : Layout := ⟨-4, 16, "inf", "nan"⟩

/-- The layout of numbers in documents. -/
def documentLayout : Layout := { plainLayout with infinityText := "Infinity", nanText := "NaN" }

/-- Digits `coefficient · 10 ^ exponent` in a layout. -/
def Layout.write (layout : Layout) (coefficient : Nat) (exponent : Int) : String :=
  let ds := Nat.toDigits 10 coefficient
  let place : Int := if coefficient = 0 then 0 else exponent + ds.length - 1
  if place < layout.lowestPlace ∨ place ≥ layout.highestPlace then
    let fraction := ds.drop 1
    let mantissa := ds.take 1 ++ (if fraction.isEmpty then [] else '.' :: fraction)
    let sign := if place < 0 then "-" else "+"
    String.ofList mantissa ++ "e" ++ sign ++ padded 2 place.natAbs
  else if place < 0 then
    "0." ++ String.ofList (List.replicate (place.natAbs - 1) '0' ++ ds)
  else
    let whole := place.toNat + 1
    let filled := ds ++ List.replicate (whole - ds.length) '0'
    let fraction := filled.drop whole
    String.ofList (filled.take whole) ++ "." ++
      (if fraction.isEmpty then "0" else String.ofList fraction)

/-- The text of a double: its shortest digits in a layout. -/
def Layout.text (layout : Layout) (x : Float) : String :=
  match scaled? x with
  | some s =>
    let (n, e) := shortestDigits s.mantissa.natAbs s.exponent
    (if isNegative x then "-" else "") ++ layout.write n e
  | none =>
    if x.isNaN then layout.nanText
    else (if isNegative x then "-" else "") ++ layout.infinityText

/-- The plain text of a double. -/
def text (x : Float) : String := plainLayout.text x

end TwinStore.Number.Binary64
