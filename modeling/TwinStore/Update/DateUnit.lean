import TwinStore.Fault
import TwinStore.Text.LowerCase

/-!
# Units of date arithmetic

Main definitions:

- `DateUnit`: the seven units, with their names.
- `DateUnit.parse`: a unit from its name in any case, singular or plural.
-/

namespace TwinStore

/-- A unit in which dates are moved. -/
inductive DateUnit where
  | second
  | minute
  | hour
  | day
  | week
  | month
  | year
deriving DecidableEq, Repr

namespace DateUnit

/-- Every unit, the smallest first. -/
def all : List DateUnit := [second, minute, hour, day, week, month, year]

/-- The name of a unit. -/
def name : DateUnit → String
  | second => "second"
  | minute => "minute"
  | hour => "hour"
  | day => "day"
  | week => "week"
  | month => "month"
  | year => "year"

/-- The unit with a name. -/
def ofName? (s : String) : Option DateUnit := all.find? (·.name == s)

/-- A name without the letter that marks its plural. -/
def singular (s : String) : String := if s.endsWith "s" then (s.dropEnd 1).toString else s

/-- The unit that a value names; blanks around the name, capitals and the plural are accepted. -/
def parse : Value → Except UpdateError DateUnit
  | .text s =>
    match ofName? (singular (Text.lowerCase (Text.trim s))) with
    | some unit => .ok unit
    | none => .error ⟨.unknownUnit s (all.map name), none⟩
  | v => .error ⟨.unitNotText v, none⟩

end DateUnit

end TwinStore
