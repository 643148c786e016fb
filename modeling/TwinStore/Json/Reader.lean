import TwinStore.Json.Basic
import TwinStore.Text.Digit

/-!
# Reading documents

The reader follows the grammar of JSON and adds three names for floating point values: `NaN`,
`Infinity` and `-Infinity`.  A name that occurs twice in an object keeps its first place and its
last value.

Main definitions:

- `Unreadable`: why a text cannot be read.
- `Json.parse`: the document of a text.
-/

namespace TwinStore.Json

open Number

/-- Why a text cannot be read as a document. -/
inductive Unreadable where
  /-- The text is no document. -/
  | malformed
  /-- The text has an integer of too many digits. -/
  | longInteger
deriving DecidableEq, Repr

/-- The number of digits up to which integers are read and written. -/
def integerDigits : Nat := 4300

/-- The blanks between tokens. -/
def isSpace (c : Char) : Bool := c == ' ' || c == '\t' || c == '\n' || c == '\r'

/-- The text after leading blanks. -/
def skipSpace (cs : List Char) : List Char := cs.dropWhile isSpace

/-- The text after an expected beginning. -/
def expect? : List Char → List Char → Option (List Char)
  | [], cs => some cs
  | _ :: _, [] => none
  | e :: es, c :: cs => if e = c then expect? es cs else none

/-! ## Numbers -/

/-- Leading digits and what follows them. -/
def digitSpan (cs : List Char) : List Char × List Char :=
  cs.span fun c => (Text.asciiDigit? c).isSome

/-- An exponent, if a complete one follows. -/
def exponent? : List Char → Option (Int × List Char)
  | mark :: cs =>
    if mark = 'e' ∨ mark = 'E' then
      let (negative, cs) := Decimal.splitSign cs
      match digitSpan cs with
      | ([], _) => none
      | (ds, rest) =>
        (Decimal.digitRun? ds).map fun n => (if negative then -(n : Int) else n, rest)
    else none
  | [] => none

/-- A fraction, if a complete one follows: its digits and what follows them. -/
def fraction? : List Char → Option (List Char × List Char)
  | '.' :: cs =>
    match digitSpan cs with
    | ([], _) => none
    | found => some found
  | _ => none

/-- A number without its sign: a zero, or digits that begin with no zero, then fraction and
exponent; with neither it is an integer. -/
def number? (negative : Bool) (cs : List Char) : Option (Json × List Char) := do
  let (whole, rest) ← match digitSpan cs with
    | ([], _) => none
    | ('0' :: more, rest) => some (['0'], more ++ rest)
    | found => some found
  let (places, rest) := (fraction? rest).getD ([], rest)
  let scale := exponent? rest
  let rest := match scale with
    | some (_, after) => after
    | none => rest
  let coefficient ← Decimal.digitRun? (whole ++ places)
  if places.isEmpty && scale.isNone then
    some (.int (if negative then -(coefficient : Int) else coefficient), rest)
  else
    let raised : Int := match scale with
      | some (e, _) => e
      | none => 0
    let exponent := raised - places.length
    some (.float (Binary64.ofDecimal negative coefficient exponent), rest)

/-! ## Texts -/

/-- The value of a hexadecimal digit. -/
def hexDigit? (c : Char) : Option Nat :=
  if '0' ≤ c ∧ c ≤ '9' then some (c.toNat - 48)
  else if 'a' ≤ c ∧ c ≤ 'f' then some (c.toNat - 87)
  else if 'A' ≤ c ∧ c ≤ 'F' then some (c.toNat - 55)
  else none

/-- Four hexadecimal digits. -/
def unit? : List Char → Option (Nat × List Char)
  | a :: b :: c :: d :: rest => do
    let high := (← hexDigit? a) * 16 + (← hexDigit? b)
    let low := (← hexDigit? c) * 16 + (← hexDigit? d)
    some (high * 256 + low, rest)
  | _ => none

/-- The character of a simple escape. -/
def simpleEscape? : Char → Option Char
  | '"' => some '"'
  | '\\' => some '\\'
  | '/' => some '/'
  | 'b' => some '\x08'
  | 'f' => some '\x0c'
  | 'n' => some '\n'
  | 'r' => some '\r'
  | 't' => some '\t'
  | _ => none

/-- The character of a unit escape: two surrogates that follow each other make one character, and
one that stands alone is shown as the replacement character. -/
def unitChar (n : Nat) (rest : List Char) : Char × List Char :=
  if 0xD800 ≤ n ∧ n < 0xDC00 then
    match (expect? ['\\', 'u'] rest).bind unit? with
    | some (low, after) =>
      if 0xDC00 ≤ low ∧ low < 0xE000 then
        (Char.ofNat (0x10000 + (n - 0xD800) * 0x400 + (low - 0xDC00)), after)
      else ('\ufffd', rest)
    | none => ('\ufffd', rest)
  else if 0xDC00 ≤ n ∧ n < 0xE000 then ('\ufffd', rest)
  else (Char.ofNat n, rest)

/-- The characters up to the closing quote, and the text behind it.  The number of steps is bounded
by the length of the text. -/
def textBody? : Nat → List Char → Option (List Char × List Char)
  | 0, _ => none
  | _ + 1, [] => none
  | steps + 1, c :: cs =>
    if c = '"' then some ([], cs)
    else if c.toNat < 0x20 then none
    else if c = '\\' then
      match cs with
      | 'u' :: more => do
        let (n, rest) ← unit? more
        let (c, rest) := unitChar n rest
        let (tail, rest) ← textBody? steps rest
        some (c :: tail, rest)
      | e :: more => do
        let c ← simpleEscape? e
        let (tail, rest) ← textBody? steps more
        some (c :: tail, rest)
      | [] => none
    else do
      let (tail, rest) ← textBody? steps cs
      some (c :: tail, rest)

/-- The text behind an opening quote. -/
def text? (cs : List Char) : Option (String × List Char) :=
  (textBody? (cs.length + 1) cs).map fun (s, rest) => (String.ofList s, rest)

/-! ## Documents -/

/-- What a part of the reader found, or a malformed text. -/
def found {α : Type} : Option α → Except Unreadable α
  | some a => .ok a
  | none => .error .malformed

/-- The document for an expected word, and the text behind it. -/
def word (expected : String) (j : Json) (cs : List Char) : Except Unreadable (Json × List Char) :=
  (found (expect? expected.toList cs)).map (j, ·)

/-- A number without its sign; its integral part must not be too long. -/
def number (negative : Bool) (cs : List Char) : Except Unreadable (Json × List Char) := do
  let (j, rest) ← found (number? negative cs)
  match j with
  | .int n =>
    if decimalLength n.natAbs > integerDigits then throw .longInteger else return (j, rest)
  | _ => return (j, rest)

mutual

/-- A document at the beginning of a text, within a number of nested steps. -/
def value : Nat → List Char → Except Unreadable (Json × List Char)
  | 0, _ => .error .malformed
  | steps + 1, cs =>
    match cs with
    | '"' :: rest => (found (text? rest)).map fun (s, rest) => (.text s, rest)
    | '\x7b' :: rest =>
      match skipSpace rest with
      | '\x7d' :: rest => .ok (.object [], rest)
      | rest => (members steps rest).map fun (ms, rest) => (.object (Entries.ofPairs ms), rest)
    | '[' :: rest =>
      match skipSpace rest with
      | ']' :: rest => .ok (.list [], rest)
      | rest => (items steps rest).map fun (xs, rest) => (.list xs, rest)
    | 'n' :: rest => word "ull" .null rest
    | 't' :: rest => word "rue" (.bool true) rest
    | 'f' :: rest => word "alse" (.bool false) rest
    | 'N' :: rest => word "aN" (.float Binary64.nan) rest
    | 'I' :: rest => word "nfinity" (.float (Binary64.infinity false)) rest
    | '-' :: 'I' :: rest => word "nfinity" (.float (Binary64.infinity true)) rest
    | '-' :: rest => number true rest
    | cs => number false cs

/-- The items of a list up to its closing bracket. -/
def items : Nat → List Char → Except Unreadable (List Json × List Char)
  | 0, _ => .error .malformed
  | steps + 1, cs => do
    let (item, rest) ← value steps cs
    match skipSpace rest with
    | ']' :: rest => return ([item], rest)
    | ',' :: rest =>
      let (more, rest) ← items steps (skipSpace rest)
      return (item :: more, rest)
    | _ => throw .malformed

/-- The members of an object up to its closing bracket. -/
def members : Nat → List Char → Except Unreadable (List (String × Json) × List Char)
  | 0, _ => .error .malformed
  | steps + 1, cs =>
    match cs with
    | '"' :: rest => do
      let (name, rest) ← found (text? rest)
      match skipSpace rest with
      | ':' :: rest =>
        let (member, rest) ← value steps (skipSpace rest)
        match skipSpace rest with
        | '\x7d' :: rest => return ([(name, member)], rest)
        | ',' :: rest =>
          let (more, rest) ← members steps (skipSpace rest)
          return ((name, member) :: more, rest)
        | _ => throw .malformed
      | _ => throw .malformed
    | _ => .error .malformed

end

/-- The document of a text, with blanks around it.  Every step of the reader consumes a character,
so the length of the text bounds their number. -/
def parse (s : String) : Except Unreadable Json := do
  let cs := s.toList
  let (j, rest) ← value (cs.length + 1) (skipSpace cs)
  if (skipSpace rest).isEmpty then return j else throw .malformed

end TwinStore.Json
