import TwinStore.Calendar.DateTime
import TwinStore.Text.Digit

/-!
# Reading dates of stored records

Stored records hold dates and points of time as written by `Date.text` and `DateTime.text`; the
reader also takes the basic forms, week dates, any separator character and longer fractions.  It
works on the bytes of the text, because the forms are told apart by their length in bytes.

Main definitions:

- `StoredReader.date?`: the date of a text.
- `StoredReader.dateTime?`: the point of time of a text.
-/

namespace TwinStore.Calendar.StoredReader

-- Powers are those of the integers and natural numbers, whatever algebra is in scope.
attribute [local instance (1100)] instPowNat

/-- The bytes of a text, each as the character of that code. -/
def bytesOf (s : String) : List Char := s.toUTF8.data.toList.map fun b => Char.ofNat b.toNat

/-- Reads exactly `count` digits. -/
def digits? : (count : Nat) → (value : Nat) → List Char → Option (Nat × List Char)
  | 0, value, cs => some (value, cs)
  | _ + 1, _, [] => none
  | count + 1, value, c :: rest =>
    match Text.asciiDigit? c with
    | some d => digits? count (10 * value + d) rest
    | none => none

/-- Whether a character is one of the digits `0` to `9`. -/
def isDigit (c : Char) : Bool := (Text.asciiDigit? c).isSome

/-- The week of a year with 53 of them, or one of the first 52. -/
def weekDate? (year week day : Nat) : Option Date :=
  if week = 53 && !Date.hasLongWeekYear year then none
  else Date.ofWeek? year week day

/-- The date in the first bytes of a text; characters behind a complete date are ignored. -/
def datePrefix? (cs : List Char) : Option (Int × Int × Int) := do
  let (year, rest) ← digits? 4 0 cs
  let dashed := rest.head? == some '-'
  let rest := if dashed then rest.drop 1 else rest
  match rest with
  | 'W' :: rest =>
    let (week, rest) ← digits? 2 0 rest
    let day ← match rest with
      | [] => some 1
      | c :: tail =>
        if dashed && c != '-' then none
        else (digits? 1 0 (if dashed then tail else rest)).map Prod.fst
    (weekDate? year week day).map fun d => ((d.year : Int), (d.month : Int), (d.day : Int))
  | rest =>
    let (month, rest) ← digits? 2 0 rest
    if dashed && rest.head? != some '-' then none
    else
      let (day, _) ← digits? 2 0 (if dashed then rest.drop 1 else rest)
      some ((year : Int), (month : Int), (day : Int))

/-- The date of a text of seven, eight or ten bytes. -/
def date? (s : String) : Option Date :=
  let cs := bytesOf s
  if cs.length = 7 ∨ cs.length = 8 ∨ cs.length = 10 then do
    let (year, month, day) ← datePrefix? cs
    Date.ofParts? year month day
  else none

/-- Where the date of a point of time ends; a week date with dashes may end after the week or after
the weekday, and a digit at the eleventh byte decides. -/
def dateLength? (cs : List Char) : Option Nat :=
  let at_ (i : Nat) : Char := (cs[i]?).getD '\x00'
  if cs.length = 7 then some 7
  else if at_ 4 = '-' then
    if at_ 5 = 'W' then
      if cs.length > 8 ∧ at_ 8 = '-' then
        if cs.length = 9 then none
        else if cs.length > 10 && isDigit (at_ 10) then some 8
        else some 10
      else some 8
    else some 10
  else if at_ 4 = 'W' then
    let stop := 7 + ((cs.drop 7).takeWhile isDigit).length
    if stop < 9 then some stop else if stop % 2 = 0 then some 7 else some 8
  else some 8

/-- A clock reading: hour, minute, second and microsecond. -/
structure Clock where
  hour : Nat := 0
  minute : Nat := 0
  second : Nat := 0
  micro : Nat := 0

/-- A fraction of one to six digits, more digits being dropped, and whether text is left. -/
def fraction? (clock : Clock) (cs : List Char) : Option (Clock × Bool) := do
  let count := min 6 cs.length
  let (value, rest) ← digits? count 0 cs
  some ({ clock with micro := value * 10 ^ (6 - count) }, !(rest.dropWhile isDigit).isEmpty)

/-- The parts of a clock reading from hour, minute or second on, and whether text is left. -/
def clockFrom? (clock : Clock) (colons : Bool) : Nat → List Char → Option (Clock × Bool)
  | part, cs =>
    match digits? 2 0 cs with
    | none => none
    | some (value, rest) =>
      let clock := match part with
        | 0 => { clock with second := value }
        | 1 => { clock with minute := value }
        | _ => { clock with hour := value }
      match rest with
      | [] => some (clock, false)
      | [c] => some (clock, c != '\x00')
      | c :: tail =>
        let colons := if part ≥ 2 then c == ':' else colons
        if colons && c == ':' then
          match part with
          | 0 => fraction? clock tail
          | part + 1 => clockFrom? clock colons part tail
        else if c == '.' || c == ',' then fraction? clock tail
        else if !colons then
          match part with
          | 0 => fraction? clock rest
          | part + 1 => clockFrom? clock colons part rest
        else none

/-- A clock reading `hh[[:]mm[[:]ss[.ffffff]]]`, and whether text is left behind it. -/
def clock? (cs : List Char) : Option (Clock × Bool) := clockFrom? {} false 2 cs

/-- A time and an optional offset in microseconds; an offset below a second counts as none at
all. -/
def time? (cs : List Char) : Option (Clock × Option Int) := do
  let opensZone (c : Char) : Bool := c == '+' || c == '-' || c == 'Z'
  let (clock, left) ← clock? (cs.takeWhile (!opensZone ·))
  match cs.dropWhile (!opensZone ·) with
  | [] => if left then none else some (clock, none)
  | 'Z' :: rest => if (rest.head?.getD '\x00') = '\x00' then some (clock, some 0) else none
  | sign :: rest =>
    let (zone, left) ← clock? rest
    if left then none
    else
      let seconds := (zone.hour * 60 + zone.minute) * 60 + zone.second
      let size : Int := if seconds = 0 then 0 else seconds * microsPerSecond + zone.micro
      if size ≥ microsPerDay then none
      else some (clock, some (if sign = '-' then -size else size))

/-- The point of time of a text. -/
def dateTime? (s : String) : Option DateTime :=
  let cs := bytesOf s
  if cs.length < 7 then none
  else do
    let split ← dateLength? cs
    let (year, month, day) ← datePrefix? (cs.take split)
    let rest := cs.drop split
    let (clock, offset) ←
      if rest.isEmpty then some ({}, none)
      else
        let lead := (rest.headD '\x00').toNat
        let width := if lead < 128 then 1
          else if lead / 16 = 14 then 3 else if lead / 16 = 15 then 4 else 2
        time? (rest.drop width)
    DateTime.ofParts? year month day clock.hour clock.minute clock.second clock.micro offset

end TwinStore.Calendar.StoredReader
