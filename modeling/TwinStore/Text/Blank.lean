import TwinStore.Text.Ranges

/-!
# Blank characters

The characters that count as white space: the separators and the controls that move the cursor.
-/

namespace TwinStore.Text

/-- Code points of the blank characters. -/
def blankRanges : CharRanges := [
  (0x9, 0xd), (0x1c, 0x20), (0x85, 0x85), (0xa0, 0xa0), (0x1680, 0x1680), (0x2000, 0x200a),
  (0x2028, 0x2029), (0x202f, 0x202f), (0x205f, 0x205f), (0x3000, 0x3000)]

/-- Whether a character is white space. -/
def isBlank (c : Char) : Bool := blankRanges.contains c.toNat

/-- A text without the white space at its two ends. -/
def trim (s : String) : String :=
  let inner := s.toList.dropWhile isBlank
  String.ofList (inner.reverse.dropWhile isBlank).reverse

end TwinStore.Text
