import TwinStore.Calendar.StoredReader
import TwinStore.Json.OfValue
import TwinStore.Json.Printer
import TwinStore.Primary.Cell

/-!
# Values in tables

A value takes the form of its column before it goes into a statement, and a cell takes the form of
its column when it comes out.

Main definitions:

- `Binding`: the forms in which values go into statements.
- `Binding.prepare`: a value in its form, or the failure of the statement.
- `cellOf`: a prepared value as a cell.
- `valueOf`: the value of a cell of a column.
-/

namespace TwinStore.Primary

open Number Calendar

-- Powers are those of the integers and natural numbers, whatever algebra is in scope.
attribute [local instance (1100)] instPowNat

/-! ## The way in -/

/-- The form in which a value goes into a statement. -/
inductive Binding where
  | plain
  | number
  | flag
  | date
  | instant
  | uuid
  | document
deriving DecidableEq, Repr

/-- The form of the values of a column. -/
def Binding.ofType : AttributeType → Binding
  | .str | .text | .int => plain
  | .decimal | .float => number
  | .bool => flag
  | .date => date
  | .datetime => instant
  | .uuid => uuid
  | .json => document

/-- The form of an operand: its own kind decides, and the column only for values of no kind of their
own. -/
def Binding.ofOperand (fallback : Binding) : Value → Binding
  | .bool _ => flag
  | .int _ | .text _ | .bytes _ => plain
  | .float _ | .decimal _ => number
  | .instant _ => instant
  | .date _ => date
  | .uuid _ => uuid
  | _ => fallback

/-- The form of all operands of a list, which the first decides. -/
def Binding.ofOperands (fallback : Binding) (operands : List Value) : Binding :=
  (operands.head?.map fallback.ofOperand).getD fallback

/-- The double that a text names: a decimal literal with underscores between digits only. -/
def floatOfText? (s : String) : Option Float :=
  let isDigit (c : Char) : Bool := (Text.digitValue? c).isSome
  let rec underscoresFit : Bool → List Char → Bool
    | _, [] => true
    | afterDigit, '_' :: rest => afterDigit && (rest.head?.any isDigit) && underscoresFit false rest
    | _, c :: rest => underscoresFit (isDigit c) rest
  if underscoresFit false s.toList then
    match Decimal.parse? s with
    | some (.nan _ true _) => none
    | some (.nan _ _ payload) => if payload = 0 then some Binary64.nan else none
    | some d => some d.toFloat
    | none => none
  else none

/-- A value as a double. -/
def floatOf? : Value → Option Float
  | .bool b => some (if b then 1.0 else 0.0)
  | .int n => Binary64.ofInt? n
  | .float x => some x
  | .decimal d => if d.isSignaling then none else some d.toFloat
  | .text s => floatOfText? s
  | _ => none

/-- A value as a flag: a truth value, or the number one or zero. -/
def flagOf? : Value → Option Bool
  | .bool b => some b
  | .int n => if n = 0 then some false else if n = 1 then some true else none
  | .float x => if x == 0.0 then some false else if x == 1.0 then some true else none
  | .decimal d =>
    if d.compare? (.ofInt 0) == some .eq then some false
    else if d.compare? (.ofInt 1) == some .eq then some true
    else none
  | _ => none

/-- A date as it is stored. -/
def dateText (d : Date) : String := d.text

/-- A point of time as it is stored: to the microsecond, without an offset. -/
def instantText (t : DateTime) : String :=
  t.date.text ++ " " ++ t.clockText ++ DateTime.microText t.micro

/-- A document as it is stored. -/
def documentText (v : Value) : Option String :=
  match Json.plain v with
  | .ok j => some j.spaced
  | .error _ => none

/-- A value in the form in which it goes into a statement; `none` if it has none.  Null stays null
but in documents, which have a null of their own. -/
def Binding.form? (binding : Binding) (v : Value) : Option Value :=
  match binding, v with
  | .document, v => (documentText v).map .text
  | _, .null => some .null
  | .plain, v => some v
  | .number, v => (floatOf? v).map .float
  | .flag, v => (flagOf? v).map fun b => .int (if b then 1 else 0)
  | .date, .date d => some (.text (dateText d))
  | .date, .instant t => some (.text (dateText t.date))
  | .instant, .instant t => some (.text (instantText t))
  | .instant, .date d => some (.text (instantText (DateTime.ofDate d)))
  | .uuid, .uuid u => some (.text u.hex)
  | .uuid, .float _ => some .foreign
  | .uuid, .bytes _ => some .foreign
  | _, _ => none

/-- A value in its form, or the failure of the statement. -/
def Binding.prepare (binding : Binding) (v : Value) : Outcome Value :=
  match binding.form? v with
  | some prepared => .ok prepared
  | none => .error (.statement .unbindable)

/-- A prepared value as a cell. -/
def cellOf : Value → Outcome Cell
  | .null => .ok .null
  | .bool b => .ok (.int (if b then 1 else 0))
  | .int n => if fitsWord n then .ok (.int n) else .error .outOfRange
  | .float x => .ok (if x.isNaN then .null else .real x)
  | .text s => .ok (.text s)
  | .bytes bs => .ok (.blob bs)
  | .instant t => .ok (.text (t.textWith " "))
  | .date d => .ok (.text d.text)
  | _ => .error (.statement .unsupported)

/-! ## The way out -/

/-- The value of a cell as it is. -/
def rawValue : Cell → Value
  | .null => .null
  | .int n => .int n
  | .real x => .float x
  | .text s => .text s
  | .blob bs => .bytes bs

/-- The number of places with which decimal numbers come out of a table. -/
def decimalPlaces : Nat := 10

/-- A double as a decimal number with the places of a table. -/
def decimalOfReal (x : Float) : Decimal :=
  match Binary64.scaled? x with
  | some s =>
    let (n, d) := s.toRatio
    .finite (Binary64.isNegative x) (roundDivEven (n.natAbs * 10 ^ decimalPlaces) d)
      (-decimalPlaces)
  | none => .ofFloat x

/-- A cell read as a text with a meaning. -/
def readText {α : Type} (read : String → Option α) (wrap : α → Value) : Cell → Outcome Value
  | .text s =>
    match read s with
    | some a => .ok (wrap a)
    | none => .error (.badValue "")
  | _ => .error (.wrongKind "")

/-- The value of a cell in a column of a type. -/
def valueOf (type : AttributeType) (cell : Cell) : Outcome Value :=
  match cell with
  | .null => .ok .null
  | cell =>
    match type with
    | .str | .text | .int | .float => .ok (rawValue cell)
    | .decimal =>
      match cell with
      | .int n => .ok (.decimal (decimalOfReal (Binary64.ofSignedRatio n 1)))
      | .real x => .ok (.decimal (decimalOfReal x))
      | _ => .error (.wrongKind "")
    | .bool => .ok (.bool (rawValue cell).isTruthy)
    | .date => readText StoredReader.date? .date cell
    | .datetime => readText StoredReader.dateTime? .instant cell
    | .uuid => readText Uuid.parse? .uuid cell
    | .json =>
      match cell with
      | .text s => (Json.read s).map Json.toValue
      | cell => .ok (rawValue cell)

end TwinStore.Primary
