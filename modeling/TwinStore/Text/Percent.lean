import TwinStore.Text.Quoted

/-!
# Percent encoding

A text inside an address may not hold the characters that structure the address.  The bytes of its
UTF-8 form are written as they are if they are letters, digits or one of four marks, and in
hexadecimal behind a percent sign otherwise.

Main definitions:

- `Text.percentEncode`: the encoded form of a text.
-/

namespace TwinStore.Text

/-- Whether a byte stands for itself in an address. -/
def isUnreserved (b : UInt8) : Bool :=
  let c := Char.ofNat b.toNat
  b.toNat < 128 && (c.isAlphanum || c = '_' || c = '.' || c = '-' || c = '~')

/-- The encoded form of a byte. -/
def percentByte (b : UInt8) : String :=
  if isUnreserved b then (Char.ofNat b.toNat).toString
  else "%" ++ (hexPadded 2 b.toNat).map Char.toUpper

/-- The encoded form of a text. -/
def percentEncode (s : String) : String := String.join (s.toUTF8.toList.map percentByte)

end TwinStore.Text
