import TwinStore.Calendar.DateTime
import TwinStore.Text.Digit

/-!
# Reading dates of operands

Filter operands and update values may write a point of time in any of the common ISO 8601 forms: a
calendar date (also without day or month), a week date or a day of the year, each with or without
dashes, then a time after one separator character, then an offset.

Main definition:

- `IsoReader.parse?`: the point of time of a text.
-/

namespace TwinStore.Calendar.IsoReader

/-! ## Numbers -/

/-- The blanks that may surround a number. -/
def isPadding (c : Char) : Bool :=
  c == ' ' || c == '\t' || c == '\n' || c == '\r' || c == '\x0b' || c == '\x0c'

/-- Digits with single underscores between them; the flag says that a digit came just before. -/
def groupedDigits? : Bool → Nat → List Char → Option Nat
  | afterDigit, n, [] => if afterDigit then some n else none
  | afterDigit, n, c :: rest =>
    match Text.asciiDigit? c with
    | some d => groupedDigits? true (10 * n + d) rest
    | none => if c = '_' ∧ afterDigit then groupedDigits? false n rest else none

/-- The integer that fills a field of the text: blanks around it and a sign are accepted. -/
def field? (cs : List Char) : Option Int :=
  let inner := ((cs.dropWhile isPadding).reverse.dropWhile isPadding).reverse
  match inner with
  | '-' :: rest => (groupedDigits? false 0 rest).map fun n => -(n : Int)
  | '+' :: rest => (groupedDigits? false 0 rest).map fun n => (n : Int)
  | rest => (groupedDigits? false 0 rest).map fun n => (n : Int)

/-! ## Dates -/

/-- Year, month and day as written, not yet checked, and the rest of the text. -/
abbrev RawDate := (Int × Int × Int) × List Char

/-- `YYYY`, `YYYY-MM`, `YYYY-MM-DD` or `YYYYMMDD`. -/
def calendarDate? (cs : List Char) : Option RawDate :=
  if cs.length < 4 then none
  else do
    let year ← field? (cs.take 4)
    match cs.drop 4 with
    | [] => some ((year, 1, 1), [])
    | rest =>
      let dashed := rest.head? == some '-'
      let rest := if dashed then rest.drop 1 else rest
      if rest.length < 2 then none
      else
        let month ← field? (rest.take 2)
        match rest.drop 2 with
        | [] => if dashed then some ((year, month, 1), []) else none
        | rest =>
          if dashed && rest.head? != some '-' then none
          else
            let rest := if dashed then rest.drop 1 else rest
            if rest.length < 2 then none
            else
              let day ← field? (rest.take 2)
              some ((year, month, day), rest.drop 2)

/-- A date as the three numbers of its day. -/
def rawDate (d : Date) (rest : List Char) : RawDate := ((d.year, d.month, d.day), rest)

/-- `YYYY-Www[-D]`, `YYYYWww[D]`, `YYYY-DDD` or `YYYYDDD`. -/
def weekOrOrdinalDate? (cs : List Char) : Option RawDate :=
  if cs.length < 4 then none
  else do
    let year ← field? (cs.take 4)
    let rest := cs.drop 4
    let dashed := rest.head? == some '-'
    let rest := if dashed then rest.drop 1 else rest
    match rest with
    | 'W' :: rest =>
      let week ← field? (rest.take 2)
      match rest.drop 2 with
      | [] => (Date.ofWeek? year week 1).map (rawDate · [])
      | rest =>
        if (rest.head? == some '-') != dashed then none
        else
          let rest := if dashed then rest.drop 1 else rest
          let day ← field? (rest.take 1)
          (Date.ofWeek? year week day).map (rawDate · (rest.drop 1))
    | rest =>
      if rest.length < 3 then none
      else
        let day ← field? (rest.take 3)
        (Date.ofDayOfYear? year day).map (rawDate · (rest.drop 3))

/-! ## Times -/

/-- `Z`, `z`, `±hh`, `±hhmm` or `±hh:mm`, as an offset in microseconds. -/
def zone? (cs : List Char) : Option Int :=
  if cs = ['Z'] ∨ cs = ['z'] then some 0
  else if cs.length ≠ 3 ∧ cs.length ≠ 5 ∧ cs.length ≠ 6 then none
  else do
    let sign ← match cs.head? with
      | some '-' => some (-1 : Int)
      | some '+' => some 1
      | _ => none
    let hours ← field? ((cs.drop 1).take 2)
    let minutes ←
      if cs.length = 3 then some 0
      else field? (if (cs.drop 3).head? = some ':' then cs.drop 4 else cs.drop 3)
    if hours = 0 ∧ minutes = 0 then some 0
    else if minutes > 59 ∨ hours > 23 then none
    else some (sign * (hours * 60 + minutes) * 60 * microsPerSecond)

/-- Hour, minute, second, microsecond and offset as written. -/
structure RawTime where
  hour : Int := 0
  minute : Int := 0
  second : Int := 0
  micro : Int := 0
  offset : Option Int := none

/-- Whether a character opens an offset. -/
def opensZone (c : Char) : Bool := c == '-' || c == '+' || c == 'Z' || c == 'z'

/-- The fraction of a second at the beginning of a text: its first six digits, and the rest of the
text behind all of them. -/
def fraction? : List Char → Option (Nat × List Char)
  | mark :: rest =>
    if mark = '.' ∨ mark = ',' then
      let ds := rest.takeWhile fun c => (Text.asciiDigit? c).isSome
      if ds.isEmpty then none
      else
        let kept := ds.take 6 ++ List.replicate (6 - ds.length) '0'
        (groupedDigits? false 0 kept).map (·, rest.drop ds.length)
    else none
  | [] => none

/-- Reads from one part of the time on; part 0 is the hour, 1 the minute, 2 the second, 3 the
fraction and 4 the place of the offset.  Either all parts or none are parted by colons. -/
def timeFrom? (colons : Bool) (time : RawTime) : (steps part : Nat) → List Char → Option RawTime
  | _, _, [] => some time
  | 0, _, _ :: _ => none
  | steps + 1, part, c :: rest =>
    let cs := c :: rest
    if opensZone c then (zone? cs).map fun o => { time with offset := some o }
    else
      match part with
      | 0 => do
        let hour ← field? (cs.take 2)
        timeFrom? colons { time with hour } steps 1 (cs.drop 2)
      | 1 => do
        let colons := c == ':'
        let cs := if colons then rest else cs
        let minute ← field? (cs.take 2)
        timeFrom? colons { time with minute } steps 2 (cs.drop 2)
      | 2 =>
        if colons && c != ':' then none
        else do
          let cs := if colons then rest else cs
          let second ← field? (cs.take 2)
          timeFrom? colons { time with second } steps 3 (cs.drop 2)
      | 3 =>
        match fraction? cs with
        | some (micro, cs) => timeFrom? colons { time with micro } steps 4 cs
        | none => timeFrom? colons time steps 4 cs
      | part + 1 => timeFrom? colons time steps (part + 1) cs

/-- A time of at least two characters; the hour 24 stands for midnight only. -/
def time? (cs : List Char) : Option RawTime :=
  if cs.length < 2 then none
  else
    match timeFrom? false {} 5 0 cs with
    | some t =>
      if t.hour = 24 ∧ ¬ (t.minute = 0 ∧ t.second = 0 ∧ t.micro = 0) then none else some t
    | none => none

/-! ## The whole text -/

/-- The date at the beginning of a text, in the common forms first. -/
def date? (cs : List Char) : Option RawDate :=
  match calendarDate? cs with
  | some d => some d
  | none => weekOrOrdinalDate? cs

/-- The point of time of a text; `none` if the text is none or names no instant of the calendar. -/
def parse? (s : String) : Option DateTime :=
  let cs := s.toList
  if cs.any (·.toNat ≥ 128) then none
  else do
    let ((year, month, day), rest) ← date? cs
    let time ← match rest with
      | [] => some {}
      | _ :: rest => time? rest
    let midnight := time.hour = 24
    let t ← DateTime.ofParts? year month day (if midnight then 0 else time.hour) time.minute
      time.second time.micro time.offset
    if midnight then t.addMicros? microsPerDay else some t

end TwinStore.Calendar.IsoReader
