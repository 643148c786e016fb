import TwinStore.Text.Printable

/-!
# Quoted texts

Messages show a text between quotes, so that its ends and its unusual characters can be seen.

Main definitions:

- `Text.quoted`: the quoted form; single quotes unless the text holds one and no double quote.
- `Text.quotedBytes`: the quoted form of a byte string.
- `Text.hexPadded`: hexadecimal digits of a fixed width.
-/

namespace TwinStore.Text

/-- Lower-case hexadecimal digits, padded on the left with zeros to a width. -/
def hexPadded (width n : Nat) : String :=
  let ds := Nat.toDigits 16 n
  String.ofList (List.replicate (width - ds.length) '0' ++ ds)

/-- The escape of a character by its code point, in the shortest of the three forms that holds
it. -/
def escapeCode (n : Nat) : String :=
  if n < 0x100 then "\\x" ++ hexPadded 2 n
  else if n < 0x10000 then "\\u" ++ hexPadded 4 n
  else "\\U" ++ hexPadded 8 n

/-- The quote that encloses a text. -/
def quoteFor (cs : List Char) : Char :=
  if cs.contains '\'' && !cs.contains '"' then '"' else '\''

/-- One character inside the given quotes. -/
def quotedChar (quote c : Char) : String :=
  if c = quote ∨ c = '\\' then String.ofList ['\\', c]
  else if c = '\n' then "\\n"
  else if c = '\r' then "\\r"
  else if c = '\t' then "\\t"
  else if isPrintable c then c.toString
  else escapeCode c.toNat

/-- A text between quotes, with escapes for the quote, the backslash and unprintable characters. -/
def quoted (s : String) : String :=
  let cs := s.toList
  let quote := quoteFor cs
  quote.toString ++ String.join (cs.map (quotedChar quote)) ++ quote.toString

/-- One byte inside the given quotes; only printable ASCII stands for itself. -/
def quotedByte (quote : Char) (b : UInt8) : String :=
  let c := Char.ofNat b.toNat
  if b.toNat < 128 then quotedChar quote c else escapeCode b.toNat

/-- A byte string between quotes, marked by the letter `b`. -/
def quotedBytes (bs : List UInt8) : String :=
  let quote := quoteFor (bs.map fun b => Char.ofNat b.toNat)
  "b" ++ quote.toString ++ String.join (bs.map (quotedByte quote)) ++ quote.toString

end TwinStore.Text
