import TwinStore.Json.Basic
import TwinStore.Text.Quoted

/-!
# Writing documents

Documents are written in ASCII: every other character is escaped, beyond the first plane as a pair
of surrogates.

Main definitions:

- `Json.quoteText`: a text as a string literal.
- `Json.compact`: a document with no blanks.
- `Json.spaced`: a document on one line, with a blank after each mark.
- `Json.indented`: a document over several lines, each level two columns further in.
-/

namespace TwinStore.Json

/-- The escape of one unit of sixteen bits. -/
def escapeUnit (n : Nat) : String := "\\u" ++ Text.hexPadded 4 n

/-- One character inside a string literal. -/
def quoteChar (c : Char) : String :=
  if c = '"' then "\\\""
  else if c = '\\' then "\\\\"
  else if c = '\n' then "\\n"
  else if c = '\r' then "\\r"
  else if c = '\t' then "\\t"
  else if c = '\x0c' then "\\f"
  else if c = '\x08' then "\\b"
  else
    let n := c.toNat
    if 0x20 ≤ n ∧ n ≤ 0x7e then c.toString
    else if n < 0x10000 then escapeUnit n
    else
      let rest := n - 0x10000
      escapeUnit (0xD800 + rest / 0x400) ++ escapeUnit (0xDC00 + rest % 0x400)

/-- A text as a string literal. -/
def quoteText (s : String) : String := "\"" ++ String.join (s.toList.map quoteChar) ++ "\""

/-- The form of a document that is neither a list nor an object. -/
def atomText : Json → String
  | null => "null"
  | bool b => if b then "true" else "false"
  | int n => Number.integerText n
  | float x => Number.Binary64.documentLayout.text x
  | text s => quoteText s
  | list _ | object _ => ""

mutual

/-- A document on one line, with the given marks between items and after names. -/
def line (comma colon : String) : Json → String
  | list items => "[" ++ comma.intercalate (lineItems comma colon items) ++ "]"
  | object members => "\x7b" ++ comma.intercalate (lineMembers comma colon members) ++ "\x7d"
  | atom => atomText atom

/-- The items of a list on one line. -/
def lineItems (comma colon : String) : List Json → List String
  | [] => []
  | item :: rest => line comma colon item :: lineItems comma colon rest

/-- The members of an object on one line. -/
def lineMembers (comma colon : String) : List (String × Json) → List String
  | [] => []
  | (k, v) :: rest =>
    (quoteText k ++ colon ++ line comma colon v) :: lineMembers comma colon rest

end

/-- A document with no blanks. -/
def compact (j : Json) : String := line "," ":" j

/-- A document on one line with blanks after the marks. -/
def spaced (j : Json) : String := line ", " ": " j

/-- A line break and the indentation of a level. -/
def newline (level : Nat) : String := "\n" ++ String.ofList (List.replicate (2 * level) ' ')

/-- Lines of a list or object inside its brackets. -/
def enclosed (level : Nat) (opening closing : String) : List String → String
  | [] => opening ++ closing
  | parts =>
    opening ++ newline (level + 1) ++ ("," ++ newline (level + 1)).intercalate parts ++
      newline level ++ closing

mutual

/-- A document over several lines, from a level of indentation on. -/
def indentedAt (level : Nat) : Json → String
  | list items => enclosed level "[" "]" (indentedItems level items)
  | object members => enclosed level "\x7b" "\x7d" (indentedMembers level members)
  | atom => atomText atom

/-- The items of a list, each as a block. -/
def indentedItems (level : Nat) : List Json → List String
  | [] => []
  | item :: rest => indentedAt (level + 1) item :: indentedItems level rest

/-- The members of an object, each as a block. -/
def indentedMembers (level : Nat) : List (String × Json) → List String
  | [] => []
  | (k, v) :: rest =>
    (quoteText k ++ ": " ++ indentedAt (level + 1) v) :: indentedMembers level rest

end

/-- A document over several lines. -/
def indented (j : Json) : String := indentedAt 0 j

end TwinStore.Json
