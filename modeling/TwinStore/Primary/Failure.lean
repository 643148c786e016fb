import TwinStore.Text.Blank
import TwinStore.Text.Word

/-!
# Failures of the database in messages

A database describes a failure in several places; a message about it puts them together in one line.

Main definitions:

- `Failure`: what a database tells about a failure.
- `Failure.describe`: the line about it.
-/

namespace TwinStore.Primary

/-- What a database tells about a failure: its kind, its text, the text of the server and a detail,
each empty if there is none. -/
structure Failure where
  kind : String
  text : String
  serverText : String := ""
  detail : String := ""
deriving DecidableEq, Repr

namespace Failure

/-- What stands before the name of a key in a detail. -/
def keyMark : List Char := "Key (".toList

/-- The word in front of a closing bracket. -/
def bracketedWord? (cs : List Char) : Option String :=
  let word := cs.takeWhile Text.isWord
  match word, cs.drop word.length with
  | _ :: _, ')' :: _ => some (String.ofList word)
  | _, _ => none

/-- The first key of one word that a detail names. -/
def keyIn? : List Char → Option String
  | [] => none
  | c :: rest =>
    let here :=
      if keyMark.isPrefixOf (c :: rest) then bracketedWord? ((c :: rest).drop keyMark.length)
      else none
    here.or (keyIn? rest)

/-- The line about a failure: the text of the server counts before the text of the failure, and a
detail and the key that it names follow. -/
def describe (f : Failure) : String :=
  let text := Text.trim (if f.serverText.isEmpty then f.text else f.serverText)
  let detail := if f.detail.isEmpty then "" else " (" ++ Text.trim f.detail ++ ")"
  let key := match keyIn? f.detail.toList with
    | some name => " [field=" ++ name ++ "]"
    | none => ""
  f.kind ++ ": " ++ text ++ detail ++ key

end Failure

end TwinStore.Primary
