import TwinStore.Number.Binary64
import TwinStore.Text.Blank
import TwinStore.Text.Digit

/-!
# Exact decimal numbers

A decimal number is a signed coefficient times a power of ten; it also has infinities and two kinds
of values that are not numbers, of which the signalling kind may not be compared.

Main definitions:

- `Decimal`: the numbers.
- `Decimal.parse?`: reading a literal; digits of any script, underscores and outer blanks are
  allowed.
- `Decimal.text`: the literal that keeps coefficient and exponent.
- `Decimal.compare?`: the order by value, whatever the exponents.
- `Decimal.ofFloat`: the exact value of a double.
-/

namespace TwinStore.Number

-- Powers are those of the integers and natural numbers, whatever algebra is in scope.
attribute [local instance (1100)] instPowNat

/-- A decimal number, an infinity, or a value that is not a number. -/
inductive Decimal where
  | finite (negative : Bool) (coefficient : Nat) (exponent : Int)
  | infinity (negative : Bool)
  | nan (negative signaling : Bool) (payload : Nat)
deriving DecidableEq, Repr

namespace Decimal

/-! ## Values from other numbers -/

/-- The integer as a decimal number. -/
def ofInt (n : Int) : Decimal := .finite (n < 0) n.natAbs 0

/-- A scaled binary value is a decimal number: below the point, a power of two divides a power of
ten. -/
def ofScaled (s : Binary64.Scaled) : Decimal :=
  if s.exponent < 0 then
    .finite (s.mantissa < 0) (s.mantissa.natAbs * 5 ^ s.exponent.natAbs) s.exponent
  else .finite (s.mantissa < 0) (s.mantissa.natAbs * 2 ^ s.exponent.natAbs) 0

/-- The exact value of a double. -/
def ofFloat (x : Float) : Decimal :=
  match Binary64.scaled? x with
  | some s => ofScaled s
  | none => if x.isNaN then .nan false false 0 else .infinity (Binary64.isNegative x)

/-- The double nearest to a decimal number. -/
def toFloat : Decimal → Float
  | finite negative coefficient exponent => Binary64.ofDecimal negative coefficient exponent
  | infinity negative => Binary64.infinity negative
  | nan _ _ _ => Binary64.nan

/-! ## Literals -/

/-- The largest power of ten that the first digit of a literal may stand for. -/
def greatestPlace : Int := 999999999999999999

/-- The smallest power of ten that the last digit of a literal may stand for. -/
def leastPlace : Int := -1999999999999999997

/-- Whether coefficient and exponent can be held without loss. -/
def isHeld (coefficient : Nat) (exponent : Int) : Bool :=
  leastPlace ≤ exponent &&
    (if coefficient = 0 then exponent else exponent + decimalLength coefficient - 1)
      ≤ greatestPlace

/-- The value of a run of ASCII digits; `none` if another character occurs. -/
def digitRun? (cs : List Char) : Option Nat :=
  cs.foldlM (fun n c => (Text.asciiDigit? c).map (10 * n + ·)) 0

/-- The characters of a literal in ASCII: outer blanks and underscores go, digits of other scripts
become `0` to `9`. -/
def asciiLiteral? (s : String) : Option (List Char) :=
  (((Text.trim s).toList.filter (· != '_')).mapM fun c =>
    if 0 < c.toNat ∧ c.toNat < 128 then some c
    else if Text.isBlank c then some ' '
    else (Text.digitValue? c).map fun d => Char.ofNat (48 + d))

/-- An optional sign in front of a literal. -/
def splitSign : List Char → Bool × List Char
  | '-' :: rest => (true, rest)
  | '+' :: rest => (false, rest)
  | cs => (false, cs)

/-- Digits with at most one point, as coefficient and number of digits after the point. -/
def significand? (cs : List Char) : Option (Nat × Nat) :=
  let whole := cs.takeWhile (· != '.')
  let fraction := (cs.dropWhile (· != '.')).drop 1
  if whole.isEmpty && fraction.isEmpty then none
  else (digitRun? (whole ++ fraction)).map (·, fraction.length)

/-- The exponent behind the mark of a literal. -/
def exponentPart? (cs : List Char) : Option Int :=
  let (negative, ds) := splitSign cs
  if ds.isEmpty then none
  else (digitRun? ds).map fun n => if negative then -(n : Int) else n

/-- A number without its sign. -/
def unsigned? (negative : Bool) (cs : List Char) : Option Decimal := do
  let isMark (c : Char) : Bool := c == 'e' || c == 'E'
  let mantissa := cs.takeWhile (!isMark ·)
  let (coefficient, places) ← significand? mantissa
  let exponent ← match cs.dropWhile (!isMark ·) with
    | [] => some 0
    | _ :: rest => exponentPart? rest
  let exponent := exponent - places
  if isHeld coefficient exponent then some (.finite negative coefficient exponent) else none

/-- Reads a decimal literal; `none` if the text is none or the number cannot be held exactly. -/
def parse? (s : String) : Option Decimal := do
  let (negative, cs) := splitSign (← asciiLiteral? s)
  let lowered := cs.map Char.toLower
  if lowered = "inf".toList ∨ lowered = "infinity".toList then
    return .infinity negative
  else if lowered.take 3 = "nan".toList then
    (digitRun? (cs.drop 3)).map (.nan negative false ·)
  else if lowered.take 4 = "snan".toList then
    (digitRun? (cs.drop 4)).map (.nan negative true ·)
  else unsigned? negative cs

/-- The literal of a decimal number; it keeps coefficient and exponent.  An exponent is written if
the number has digits missing before the point or more than five zeros behind it. -/
def text : Decimal → String
  | infinity negative => (if negative then "-" else "") ++ "Infinity"
  | nan negative signaling payload =>
    (if negative then "-" else "") ++ (if signaling then "sNaN" else "NaN") ++
      (if payload = 0 then "" else digits payload)
  | finite negative coefficient exponent =>
    let ds := Nat.toDigits 10 coefficient
    let place : Int := exponent + ds.length - 1
    let body :=
      if exponent ≤ 0 ∧ place ≥ -6 then
        let fractionLength := exponent.natAbs
        let filled := List.replicate (fractionLength + 1 - ds.length) '0' ++ ds
        let whole := filled.take (filled.length - fractionLength)
        let fraction := filled.drop (filled.length - fractionLength)
        String.ofList whole ++ (if fraction.isEmpty then "" else "." ++ String.ofList fraction)
      else
        let fraction := ds.drop 1
        String.ofList (ds.take 1) ++
          (if fraction.isEmpty then "" else "." ++ String.ofList fraction) ++
          "E" ++ (if place < 0 then "-" else "+") ++ digits place.natAbs
    (if negative then "-" else "") ++ body

/-! ## Value -/

/-- Whether the value may not take part in a comparison at all. -/
def isSignaling : Decimal → Bool
  | nan _ signaling _ => signaling
  | _ => false

/-- Whether the value is not a number. -/
def isNaN : Decimal → Bool
  | nan _ _ _ => true
  | _ => false

/-- Order of two positive numbers given as coefficient and exponent: first by the place of their
first digit, then digit by digit. -/
def compareMagnitude (c₁ : Nat) (e₁ : Int) (c₂ : Nat) (e₂ : Int) : Ordering :=
  let p₁ := e₁ + decimalLength c₁
  let p₂ := e₂ + decimalLength c₂
  if p₁ < p₂ then .lt
  else if p₂ < p₁ then .gt
  else if e₁ ≥ e₂ then compare (c₁ * 10 ^ (e₁ - e₂).toNat) c₂
  else compare c₁ (c₂ * 10 ^ (e₂ - e₁).toNat)

/-- Order by value; `none` if one of the two is not a number. -/
def compare? : Decimal → Decimal → Option Ordering
  | nan _ _ _, _ => none
  | _, nan _ _ _ => none
  | infinity n₁, infinity n₂ => some (if n₁ = n₂ then .eq else if n₁ then .lt else .gt)
  | infinity n, _ => some (if n then .lt else .gt)
  | _, infinity n => some (if n then .gt else .lt)
  | finite n₁ c₁ e₁, finite n₂ c₂ e₂ =>
    if c₁ = 0 ∧ c₂ = 0 then some .eq
    else if c₁ = 0 then some (if n₂ then .gt else .lt)
    else if c₂ = 0 then some (if n₁ then .lt else .gt)
    else if n₁ ≠ n₂ then some (if n₁ then .lt else .gt)
    else if n₁ then some (compareMagnitude c₂ e₂ c₁ e₁)
    else some (compareMagnitude c₁ e₁ c₂ e₂)

/-- The same number with no zero at the end of its coefficient; every zero is plain zero. -/
def normalize : Decimal → Decimal
  | finite negative coefficient exponent =>
    if coefficient = 0 then .finite false 0 0
    else
      let (n, e) := Binary64.dropZeros (decimalLength coefficient) coefficient exponent
      .finite negative n e
  | d => d

/-- Whether the number is zero. -/
def isZero : Decimal → Bool
  | finite _ coefficient _ => coefficient = 0
  | _ => false

/-- The integer of the same value, if there is one and its digits are at most `limit`. -/
def toInt? (limit : Nat) : Decimal → Option Int
  | finite negative coefficient exponent =>
    let signed (n : Nat) : Int := if negative then -(n : Int) else n
    if coefficient = 0 then some 0
    else if exponent ≥ 0 then
      if exponent > limit then none else some (signed (coefficient * 10 ^ exponent.toNat))
    else if exponent.natAbs > decimalLength coefficient then none
    else
      let unit := 10 ^ exponent.natAbs
      if coefficient % unit = 0 then some (signed (coefficient / unit)) else none
  | _ => none

end Decimal

end TwinStore.Number
