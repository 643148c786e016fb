import TwinStore.Text.Blank
import TwinStore.Text.Digit
import TwinStore.Text.Quoted

/-!
# Universally unique identifiers

Main definitions:

- `Uuid`: a number below `2 ^ 128`.
- `Uuid.text`: the five groups of hexadecimal digits.
- `Uuid.parse?`: reading; a scheme, braces and dashes anywhere are ignored.
-/

namespace TwinStore

/-- An identifier of 128 bits. -/
structure Uuid where
  value : Nat
deriving DecidableEq, Repr

namespace Uuid

/-- The 32 hexadecimal digits. -/
def hex (u : Uuid) : String := Text.hexPadded 32 u.value

/-- The digits in groups of 8, 4, 4, 4 and 12, parted by dashes. -/
def text (u : Uuid) : String :=
  let ds := u.hex.toList
  let group (start length : Nat) : String := String.ofList ((ds.drop start).take length)
  "-".intercalate [group 0 8, group 8 4, group 12 4, group 16 4, group 20 12]

/-- The value of a hexadecimal digit; decimal digits of any script count. -/
def hexDigit? (c : Char) : Option Nat :=
  if 'a' ≤ c ∧ c ≤ 'f' then some (c.toNat - 87)
  else if 'A' ≤ c ∧ c ≤ 'F' then some (c.toNat - 55)
  else Text.digitValue? c

/-- Hexadecimal digits with single underscores between them; the flag says that a digit came just
before. -/
def digitsFrom? : Bool → Nat → List Char → Option Nat
  | afterDigit, n, [] => if afterDigit then some n else none
  | afterDigit, n, c :: rest =>
    match hexDigit? c with
    | some d => digitsFrom? true (16 * n + d) rest
    | none => if c = '_' ∧ afterDigit then digitsFrom? false n rest else none

/-- A text without a plus sign in front. -/
def withoutPlus : List Char → List Char
  | '+' :: rest => rest
  | cs => cs

/-- A hexadecimal number with blanks around it, a plus sign and a `0x` in front if they occur. -/
def number? (s : String) : Option Nat :=
  let cs := withoutPlus (Text.trim s).toList
  let isZero (c : Char) : Bool := Text.digitValue? c == some 0
  match cs with
  | z :: x :: rest =>
    if isZero z ∧ (x = 'x' ∨ x = 'X') then
      digitsFrom? false 0 (if rest.head? = some '_' then rest.drop 1 else rest)
    else digitsFrom? false 0 cs
  | _ => digitsFrom? false 0 cs

/-- A text without the occurrences of a word, sought from the left; the number says how many
characters of an occurrence are still to be skipped. -/
def without (word : List Char) : Nat → List Char → List Char
  | _, [] => []
  | skipped + 1, _ :: rest => without word skipped rest
  | 0, c :: rest =>
    if word.isPrefixOf (c :: rest) then without word (word.length - 1) rest
    else c :: without word 0 rest

/-- Reads an identifier: what is left without `urn:`, `uuid:`, outer braces and dashes must be a
hexadecimal number of 32 characters. -/
def parse? (s : String) : Option Uuid :=
  let bare := without "uuid:".toList 0 (without "urn:".toList 0 s.toList)
  let isBrace (c : Char) : Bool := c == '{' || c == '}'
  let inner := ((bare.dropWhile isBrace).reverse.dropWhile isBrace).reverse
  let cs := inner.filter (· != '-')
  if cs.length = 32 then (number? (String.ofList cs)).map Uuid.mk else none

end Uuid

end TwinStore
