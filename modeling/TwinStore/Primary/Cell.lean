import TwinStore.Number.Decimal
import TwinStore.Model.Attribute

/-!
# Cells of tables

A column does not force a type on its cells.  It has an affinity, by which texts that look like
numbers become numbers, or numbers become texts, when they are stored and when they are compared.

Main definitions:

- `Cell`: the contents of one place in a table.
- `Affinity.store`: a cell as a column keeps it.
- `Cell.compare?`: the order of cells; null has none.
-/

namespace TwinStore.Primary

open Number

-- Powers are those of the integers and natural numbers, whatever algebra is in scope.
attribute [local instance (1100)] instPowNat

/-- The contents of one place in a table. -/
inductive Cell where
  | null
  | int (n : Int)
  | real (x : Float)
  | text (s : String)
  | blob (bytes : List UInt8)

instance : Inhabited Cell := ⟨.null⟩

/-- Whether a cell is null. -/
def Cell.isNull : Cell → Bool
  | .null => true
  | _ => false

/-- Whether an integer fits 64 bits. -/
def fitsWord (n : Int) : Bool := -(2 ^ (63 : Nat)) ≤ n && n < 2 ^ (63 : Nat)

/-! ## Numbers as texts -/

/-- The number of digits with which a real number is turned into a text. -/
def realDigits : Nat := 15

/-- The digits of a positive quotient, rounded to so many places, and the power of ten that the
first of them stands for. -/
def roundedDigits (num den : Nat) : Nat × Int :=
  let point := Binary64.decimalPoint num den
  let shift : Int := (realDigits : Int) - point
  let n :=
    if shift < 0 then roundDivEven num (den * 10 ^ shift.natAbs)
    else roundDivEven (num * 10 ^ shift.natAbs) den
  if n ≥ 10 ^ realDigits then (n / 10, point) else (n, point - 1)

/-- Drops the zeros at the end of digits, but for the first digit. -/
def dropTrailingZeros (ds : List Char) : List Char :=
  ds.take 1 ++ ((ds.drop 1).reverse.dropWhile (· == '0')).reverse

/-- Digits behind a point, of which there is at least one. -/
def pointed (whole fraction : List Char) : String :=
  String.ofList whole ++ "." ++ (if fraction.isEmpty then "0" else String.ofList fraction)

/-- A real number as a text. -/
def realText (x : Float) : String :=
  match Binary64.scaled? x with
  | none => if x.isNaN then "" else if Binary64.isNegative x then "-Inf" else "Inf"
  | some s =>
    let (n, d) := s.toRatio
    let sign := if n < 0 then "-" else ""
    if n = 0 then "0.0"
    else
      let (coefficient, exponent) := roundedDigits n.natAbs d
      let ds := dropTrailingZeros (Nat.toDigits 10 coefficient)
      if exponent < -4 ∨ exponent ≥ realDigits then
        sign ++ pointed (ds.take 1) (ds.drop 1) ++ "e" ++ (if exponent < 0 then "-" else "+") ++
          padded 2 exponent.natAbs
      else if exponent < 0 then
        sign ++ pointed ['0'] (List.replicate (exponent.natAbs - 1) '0' ++ ds)
      else
        let count := exponent.toNat + 1
        let filled := ds ++ List.replicate (count - ds.length) '0'
        sign ++ pointed (filled.take count) (filled.drop count)

/-! ## Texts as numbers -/

/-- Whether a character is a blank around a number. -/
def isNumberBlank (c : Char) : Bool := c == ' ' || ('\t' ≤ c && c ≤ '\r')

/-- A real number as an integer, if it is one of 64 bits; the least of those stays real. -/
def wholeReal (x : Float) : Cell :=
  match Binary64.scaled? x with
  | some s =>
    if s.isIntegral && fitsWord s.truncate && s.truncate ≠ -(2 ^ (63 : Nat)) then .int s.truncate
    else .real x
  | none => .real x

/-- A real number in a column of real numbers, in which zero has no sign. -/
def unsignedZero (x : Float) : Cell := .real (if x == 0.0 then 0.0 else x)

/-- The number that a text looks like as a whole. -/
def numberOfText? (s : String) : Option Cell := do
  let inner := (s.toList.dropWhile isNumberBlank).reverse.dropWhile isNumberBlank |>.reverse
  let (negative, cs) := Decimal.splitSign inner
  let isMark (c : Char) : Bool := c == 'e' || c == 'E'
  let mantissa := cs.takeWhile (!isMark ·)
  let (coefficient, places) ← Decimal.significand? mantissa
  match cs.dropWhile (!isMark ·) with
  | [] =>
    let signed : Int := if negative then -(coefficient : Int) else coefficient
    if places = 0 ∧ !mantissa.contains '.' ∧ fitsWord signed then return .int signed
    else return .real (Binary64.ofDecimal negative coefficient (-places))
  | _ :: rest =>
    let exponent ← Decimal.exponentPart? rest
    return .real (Binary64.ofDecimal negative coefficient (exponent - places))

/-! ## Affinities -/

/-- How a column treats what is stored in it. -/
inductive Affinity where
  | text
  | numeric
  | integer
  | real
deriving DecidableEq, Repr

/-- The affinity of the column of an attribute. -/
def Affinity.ofType : AttributeType → Affinity
  | .str | .text | .uuid => text
  | .int => integer
  | .float => real
  | _ => numeric

/-- A cell as a column with the affinity keeps it. -/
def Affinity.store (affinity : Affinity) (cell : Cell) : Cell :=
  match affinity, cell with
  | .text, .int n => .text (integerText n)
  | .text, .real x => .text (realText x)
  | .text, cell => cell
  | .real, .int n => .real (Binary64.ofSignedRatio n 1)
  | .real, .text s =>
    match numberOfText? s with
    | some (.int n) => .real (Binary64.ofSignedRatio n 1)
    | some (.real x) => unsignedZero x
    | _ => .text s
  | .real, .real x => unsignedZero x
  | .real, cell => cell
  | _, .real x => wholeReal x
  | _, .text s =>
    match numberOfText? s with
    | some (.real x) => wholeReal x
    | some cell => cell
    | none => .text s
  | _, cell => cell

/-! ## Order -/

namespace Cell

/-- The exact number of a cell, if it is one. -/
def number? : Cell → Option Decimal
  | int n => some (.ofInt n)
  | real x => some (.ofFloat x)
  | _ => none

/-- The rank of the kind of a cell: null, numbers, texts, byte strings. -/
def rank : Cell → Nat
  | null => 0
  | int _ | real _ => 1
  | text _ => 2
  | blob _ => 3

/-- The order of two cells that are not null: numbers by value before texts by code points. -/
def order (a b : Cell) : Ordering :=
  match a.number?, b.number? with
  | some x, some y => (x.compare? y).getD .eq
  | _, _ =>
    match a, b with
    | text s, text t => compare s t
    | blob s, blob t => compareOfLessAndEq (s.map UInt8.toNat) (t.map UInt8.toNat)
    | a, b => compare a.rank b.rank

/-- The order of two cells in a condition; with null there is none. -/
def compare? (a b : Cell) : Option Ordering :=
  if a.isNull || b.isNull then none else some (a.order b)

/-- Whether two cells of a key are the same; null is like no other. -/
def sameKey (a b : Cell) : Bool := a.compare? b == some .eq

end Cell

end TwinStore.Primary
