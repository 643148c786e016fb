import TwinStore.Text.Quoted
import TwinStore.Value.Basic

/-!
# Values in messages

Main definitions:

- `Value.literal`: a value as it would be written in a program, texts in quotes.
- `Value.display`: a value as it is shown by itself, texts without quotes.
-/

namespace TwinStore

open Number Calendar

/-- An offset from universal time as a literal. -/
def offsetLiteral (offset : Int) : String :=
  if offset = 0 then "datetime.timezone.utc"
  else
    let days := Int.fdiv offset microsPerDay
    let rest := Int.fmod offset microsPerDay
    let seconds := rest / microsPerSecond
    let micros := rest % microsPerSecond
    let part (name : String) (n : Int) : List String :=
      if n = 0 then [] else [name ++ "=" ++ integerText n]
    "datetime.timezone(datetime.timedelta(" ++
      ", ".intercalate (part "days" days ++ part "seconds" seconds ++ part "microseconds" micros) ++
      "))"

/-- A point of time as a literal; seconds and microseconds are left out if they are zero. -/
def instantLiteral (t : DateTime) : String :=
  let always := [t.date.year, t.date.month, t.date.day, t.hour, t.minute]
  let rest := if t.micro ≠ 0 then [t.second, t.micro] else if t.second ≠ 0 then [t.second] else []
  let zone := match t.offset with
    | some o => ["tzinfo=" ++ offsetLiteral o]
    | none => []
  "datetime.datetime(" ++ ", ".intercalate ((always ++ rest).map digits ++ zone) ++ ")"

namespace Value

mutual

/-- A value as a literal. -/
def literal : Value → String
  | null => "None"
  | bool b => if b then "True" else "False"
  | int n => integerText n
  | float x => Binary64.text x
  | decimal d => "Decimal('" ++ d.text ++ "')"
  | text s => Text.quoted s
  | bytes bs => Text.quotedBytes bs
  | instant t => instantLiteral t
  | date d =>
    "datetime.date(" ++ ", ".intercalate ([d.year, d.month, d.day].map digits) ++ ")"
  | uuid u => "UUID('" ++ u.text ++ "')"
  | list items => "[" ++ ", ".intercalate (literals items) ++ "]"
  | tuple items =>
    match items with
    | [item] => "(" ++ literal item ++ ",)"
    | items => "(" ++ ", ".intercalate (literals items) ++ ")"
  | map entries => "\x7b" ++ ", ".intercalate (entryLiterals entries) ++ "\x7d"
  | foreign => "<object>"

/-- The literals of the items of a list. -/
def literals : List Value → List String
  | [] => []
  | item :: rest => literal item :: literals rest

/-- The literals of the entries of a map. -/
def entryLiterals : List (String × Value) → List String
  | [] => []
  | (k, v) :: rest => (Text.quoted k ++ ": " ++ literal v) :: entryLiterals rest

end

/-- A value shown by itself: texts, dates, decimals and identifiers without quotes or names. -/
def display : Value → String
  | text s => s
  | decimal d => d.text
  | instant t => t.textWith " "
  | date d => d.text
  | uuid u => u.text
  | v => v.literal

end Value

end TwinStore
