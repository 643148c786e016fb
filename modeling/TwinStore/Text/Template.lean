import TwinStore.Fault
import TwinStore.Number.Binary64

/-!
# Message templates

A message may hold places for arguments: a percent sign, flags, a width, a precision and a letter
that names the form.  Arguments are taken in order, or by name from a map.

Main definitions:

- `Template.Place`: what stands between the percent sign and the letter.
- `Template.fill`: a template with its arguments put in.
-/

namespace TwinStore.Template

open Number

-- Powers are those of the integers and natural numbers, whatever algebra is in scope.
attribute [local instance (1100)] instPowNat

/-! ## Places -/

/-- The layout of a place: its flags, its least width and its precision. -/
structure Place where
  left : Bool := false
  plus : Bool := false
  blank : Bool := false
  marked : Bool := false
  zeros : Bool := false
  width : Nat := 0
  precision : Option Nat := none

/-- Reads the flags of a place. -/
def readFlags (p : Place) : List Char → Place × List Char
  | '-' :: rest => readFlags { p with left := true } rest
  | '+' :: rest => readFlags { p with plus := true } rest
  | ' ' :: rest => readFlags { p with blank := true } rest
  | '#' :: rest => readFlags { p with marked := true } rest
  | '0' :: rest => readFlags { p with zeros := true } rest
  | rest => (p, rest)

/-- Reads a number; nothing stands for zero. -/
def readNumber (cs : List Char) : Nat × List Char :=
  let ds := cs.takeWhile Char.isDigit
  (ds.foldl (fun n c => 10 * n + (c.toNat - 48)) 0, cs.drop ds.length)

/-! ## Arguments -/

/-- The arguments: a list of which some are used, or a map with the value that stands for it
next. -/
inductive Arguments where
  | several (rest : List Value)
  | named (entries : Entries Value) (current : Option Value)

/-- Takes the next argument. -/
def Arguments.next : Arguments → Outcome (Value × Arguments)
  | several (v :: rest) => .ok (v, several rest)
  | named entries (some v) => .ok (v, named entries none)
  | _ => .error (.wrongKind "not enough arguments for format string")

/-- Makes the value of a name the next argument, and the only one until another name is given. -/
def Arguments.pick (name : String) : Arguments → Outcome Arguments
  | named entries _ =>
    match Entries.get? entries name with
    | some v => .ok (named entries (some v))
    | none => .error .missingKey
  | several _ => .error (.wrongKind "format requires a mapping")

/-- Whether all arguments are used; a map need not be. -/
def Arguments.isDone : Arguments → Bool
  | several rest => rest.isEmpty
  | named _ _ => true

/-- The number that a width stays below. -/
def widthLimit : Nat := 2 ^ (63 : Nat)

/-- The number that a precision stays below. -/
def precisionLimit : Nat := 2 ^ (31 : Nat)

/-- A width or precision below a limit: a number, or an argument for a star. -/
def readSize (limit : Nat) (cs : List Char) (arguments : Arguments) :
    Outcome (Int × List Char × Arguments) :=
  let given (n : Int) (rest : List Char) (arguments : Arguments) :=
    if n < limit ∧ -limit ≤ n then .ok (n, rest, arguments) else .error .outOfRange
  match cs with
  | '*' :: rest => do
    match ← arguments.next with
    | (.int n, arguments) => given n rest arguments
    | (.bool b, arguments) => given (if b then 1 else 0) rest arguments
    | _ => throw (.wrongKind "* wants int")
  | cs =>
    let (n, rest) := readNumber cs
    if n < limit then .ok (n, rest, arguments) else .error (.badValue "width or precision too big")

/-! ## Forms -/

/-- A text in its place, filled up with blanks. -/
def Place.pad (p : Place) (s : String) : String :=
  let fill := String.ofList (List.replicate (p.width - s.length) ' ')
  if p.left then s ++ fill else fill ++ s

/-- A text cut to the precision, in its place. -/
def Place.text (p : Place) (s : String) : String :=
  p.pad (match p.precision with
    | some n => String.ofList (s.toList.take n)
    | none => s)

/-- The sign of a number in its place. -/
def Place.sign (p : Place) (negative : Bool) : String :=
  if negative then "-" else if p.plus then "+" else if p.blank then " " else ""

/-- A number in its place: its head stays before the zeros that fill up. -/
def Place.number (p : Place) (head digits : String) : String :=
  if p.zeros && !p.left then
    head ++ String.ofList (List.replicate (p.width - head.length - digits.length) '0') ++ digits
  else p.pad (head ++ digits)

/-- A whole number in its place. -/
def Place.integer (p : Place) (base : Nat) (mark : String) (capital : Bool) (n : Int) : String :=
  let ds := String.ofList (Nat.toDigits base n.natAbs)
  let ds := String.ofList (List.replicate (p.precision.getD 0 - ds.length) '0') ++ ds
  let shown := if capital then ds.map Char.toUpper else ds
  p.number (p.sign (n < 0) ++ if p.marked then mark else "") shown

/-- The exponent of a positive fraction's first decimal digit, and its first `count` digits as one
number, rounded to the nearest and a tie to the even one. -/
def leadingDigits (count num den : Nat) : Int × Nat :=
  let first := Binary64.decimalPoint num den - 1
  let shift := (count : Int) - 1 - first
  let rounded := roundDivEven (num * 10 ^ shift.toNat) (den * 10 ^ (-shift).toNat)
  if rounded = 10 ^ count then (first + 1, 10 ^ (count - 1)) else (first, rounded)

/-- An exponent with its sign and at least two digits. -/
def exponentText (e : Int) : String :=
  (if e < 0 then "-" else "+") ++ padded 2 e.natAbs

/-- Digits with a point behind the first `whole`; without digits behind it the point stands only if
it is asked for. -/
def pointed (marked : Bool) (whole : Nat) (ds : List Char) : String :=
  let behind := ds.drop whole
  String.ofList (ds.take whole) ++
    (if behind.isEmpty then if marked then "." else "" else "." ++ String.ofList behind)

/-- A number with a count of places behind the point. -/
def fixed (marked : Bool) (places num den : Nat) : String :=
  let ds := (padded (places + 1) (roundDivEven (num * 10 ^ places) den)).toList
  pointed marked (ds.length - places) ds

/-- A number in a form with an exponent. -/
def scientific (marked : Bool) (places num den : Nat) : String :=
  let (e, ds) := if num = 0 then (0, 0) else leadingDigits (places + 1) num den
  pointed marked 1 (padded (places + 1) ds).toList ++ "e" ++ exponentText e

/-- Digits without zeros at the end. -/
def withoutEndZeros (ds : List Char) : List Char := (ds.reverse.dropWhile (· = '0')).reverse

/-- A number with a count of digits, positional if its exponent is from -4 and below that count;
zeros behind the point go unless marked. -/
def general (marked : Bool) (places num den : Nat) : String :=
  let count := max places 1
  let (e, n) := if num = 0 then (0, 0) else leadingDigits count num den
  let ds := (padded count n).toList
  let kept (whole : Nat) (ds : List Char) :=
    if marked then ds else ds.take whole ++ withoutEndZeros (ds.drop whole)
  if e < -4 ∨ (count : Int) ≤ e then
    pointed marked 1 (kept 1 ds) ++ "e" ++ exponentText e
  else if e < 0 then
    pointed marked 1 (kept 1 (List.replicate e.natAbs '0' ++ ds))
  else pointed marked (e.toNat + 1) (kept (e.toNat + 1) ds)

/-- A double in a form that writes its size; a value that has none is written as a word. -/
def Place.sized (p : Place) (capital : Bool) (write : Nat → Nat → String) (x : Float) : String :=
  let shown (s : String) := if capital then s.map Char.toUpper else s
  match Binary64.scaled? x with
  | none =>
    p.number (p.sign (!x.isNaN && Binary64.isNegative x)) (shown (if x.isNaN then "nan" else "inf"))
  | some s =>
    let (num, den) := s.toRatio
    p.number (p.sign (Binary64.isNegative x)) (shown (write num.natAbs den))

/-- A number as a whole number, cut towards zero. -/
def wholeNumber : Value → Outcome Int
  | .bool b => .ok (if b then 1 else 0)
  | .int n => .ok n
  | .float x =>
    match Binary64.scaled? x with
    | some s => .ok s.truncate
    | none => if x.isNaN then .error (.badValue "") else .error .outOfRange
  | .decimal (.finite negative coefficient exponent) =>
    let size := if exponent < 0 then coefficient / 10 ^ exponent.natAbs
      else coefficient * 10 ^ exponent.natAbs
    .ok (if negative then -size else size)
  | .decimal (.infinity _) => .error .outOfRange
  | .decimal (.nan _ _ _) => .error (.badValue "")
  | _ => .error (.wrongKind "a real number is required")

/-- A value that is a whole number already. -/
def exactNumber : Value → Outcome Int
  | .bool b => .ok (if b then 1 else 0)
  | .int n => .ok n
  | _ => .error (.wrongKind "an integer is required")

/-- A number as a double. -/
def double : Value → Outcome Float
  | .float x => .ok x
  | .decimal d => if d.isSignaling then .error (.badValue "") else .ok d.toFloat
  | v => do
    match Binary64.ofInt? (← exactNumber v) with
    | some x => return x
    | none => throw .outOfRange

/-- A character, given by itself or by its code point. -/
def character : Value → Outcome String
  | .text s => if s.length = 1 then .ok s else .error (.wrongKind "%c requires int or char")
  | .int n => if 0 ≤ n ∧ n < 0x110000 then .ok (Char.ofNat n.toNat).toString else .error .outOfRange
  | .bool b => .ok (Char.ofNat (if b then 1 else 0)).toString
  | _ => .error (.wrongKind "%c requires int or char")

/-- A text in which characters outside ASCII are escaped. -/
def asciiOnly (s : String) : String :=
  String.join (s.toList.map fun c => if c.toNat < 128 then c.toString else Text.escapeCode c.toNat)

/-- A value in the form that a letter names. -/
def Place.form (p : Place) (letter : Char) (v : Value) : Outcome String :=
  let places := p.precision.getD 6
  match letter with
  | 's' => .ok (p.text v.display)
  | 'r' => .ok (p.text v.literal)
  | 'a' => .ok (p.text (asciiOnly v.literal))
  | 'd' | 'i' | 'u' => do return p.integer 10 "" false (← wholeNumber v)
  | 'o' => do return p.integer 8 "0o" false (← exactNumber v)
  | 'x' => do return p.integer 16 "0x" false (← exactNumber v)
  | 'X' => do return p.integer 16 "0X" true (← exactNumber v)
  | 'f' => do return p.sized false (fixed p.marked places) (← double v)
  | 'F' => do return p.sized true (fixed p.marked places) (← double v)
  | 'e' => do return p.sized false (scientific p.marked places) (← double v)
  | 'E' => do return p.sized true (scientific p.marked places) (← double v)
  | 'g' => do return p.sized false (general p.marked places) (← double v)
  | 'G' => do return p.sized true (general p.marked places) (← double v)
  | 'c' => do return p.pad (← character v)
  | _ => .error (.badValue "unsupported format character")

/-! ## Filling -/

/-- The name in brackets before a place, and what follows; brackets inside are kept in pairs. -/
def readName (depth : Nat) : List Char → Outcome (List Char × List Char)
  | [] => .error (.badValue "incomplete format key")
  | ')' :: rest =>
    match depth with
    | 0 => .ok ([], rest)
    | depth + 1 => do
      let (name, rest) ← readName depth rest
      return (')' :: name, rest)
  | '(' :: rest => do
    let (name, rest) ← readName (depth + 1) rest
    return ('(' :: name, rest)
  | c :: rest => do
    let (name, rest) ← readName depth rest
    return (c :: name, rest)

/-- Drops a letter for the length of a number, which changes nothing. -/
def withoutLength : List Char → List Char
  | 'h' :: rest => rest
  | 'l' :: rest => rest
  | 'L' :: rest => rest
  | rest => rest

/-- A place after its percent sign: its text, what follows it, and the arguments left.  A second
percent sign right behind the first stands for itself. -/
def readPlace (cs : List Char) (arguments : Arguments) :
    Outcome (String × List Char × Arguments) := do
  if let '%' :: rest := cs then return ("%", rest, arguments)
  let (arguments, cs) ← match cs with
    | '(' :: rest => do
      let (name, rest) ← readName 0 rest
      pure (← arguments.pick (String.ofList name), rest)
    | cs => pure (arguments, cs)
  let (p, cs) := readFlags {} cs
  let (width, cs, arguments) ← readSize widthLimit cs arguments
  let p := { p with left := p.left || width < 0, width := width.natAbs }
  let (p, cs, arguments) ← match cs with
    | '.' :: rest => do
      let (precision, rest, arguments) ← readSize precisionLimit rest arguments
      pure ({ p with precision := some precision.toNat }, rest, arguments)
    | cs => pure (p, cs, arguments)
  match withoutLength cs with
  | [] => throw (.badValue "incomplete format")
  | letter :: rest =>
    let (v, arguments) ← arguments.next
    return (← p.form letter v, rest, arguments)

/-- The text of a template from some point on; every step uses a character. -/
def fillFrom : Nat → List Char → Arguments → Outcome String
  | 0, _, _ => .ok ""
  | _ + 1, [], arguments =>
    if arguments.isDone then .ok ""
    else .error (.wrongKind "not all arguments converted during string formatting")
  | fuel + 1, '%' :: cs, arguments => do
    let (here, rest, arguments) ← readPlace cs arguments
    return here ++ (← fillFrom fuel rest arguments)
  | fuel + 1, c :: cs, arguments => do
    return c.toString ++ (← fillFrom fuel cs arguments)

/-- A template with its arguments put in; without arguments it stands for itself, and a single map
gives its arguments by name. -/
def fill (template : String) (arguments : List Value) : Outcome String :=
  let cs := template.toList
  match arguments with
  | [] => .ok template
  | [.map (first :: rest)] =>
    let entries := first :: rest
    fillFrom (cs.length + 1) cs (.named entries (some (.map entries)))
  | several => fillFrom (cs.length + 1) cs (.several several)

end TwinStore.Template
