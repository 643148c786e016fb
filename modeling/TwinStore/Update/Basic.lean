import TwinStore.Coercion
import TwinStore.Model.Basic
import TwinStore.Update.Shift

/-!
# Updates

An update maps fields to new values, or to `$sumDate` directives, which add a number of units to a
date.  A text in a directive refers to a field of the record that is updated.

Main definitions:

- `Directive`: the parts of a `$sumDate` directive.
- `revise`: the update of a record in memory.
- `Assignment`, `assignments`: the update as new column values of a table.
-/

namespace TwinStore

/-- The parts of a directive that adds to a date. -/
structure Directive where
  date : Value
  number : Value
  unit : DateUnit

/-- What stands under a field of an update: a directive, or a plain value. -/
def directive? : Value → Option Value
  | .map entries => Entries.get? entries sumDateKey
  | _ => none

/-- Reads the directive of a field. -/
def Directive.read (field : String) (v : Value) : Except UpdateError Directive :=
  match v with
  | .map entries =>
    match ["date", "number", "unit"].filter (!Entries.has entries ·) with
    | [] => do
      let part (name : String) : Value := (Entries.get? entries name).getD .null
      return ⟨part "date", part "number", ← DateUnit.parse (part "unit")⟩
    | missing => .error ⟨.missingParts field missing, some field⟩
  | _ => .error ⟨.notAnObject field, some field⟩

/-- A failure of an update. -/
def updateFailure {α : Type} (cause : UpdateCause) (field : String) : Outcome α :=
  .error (.update ⟨cause, some field⟩)

/-- A reading of part of an update. -/
def ofUpdate {α : Type} : Except UpdateError α → Outcome α
  | .ok a => .ok a
  | .error e => .error (.update e)

/-- A coercion in an update: a mistake in an operand concerns the updated field. -/
def coerceFor (field : String) (type : Option AttributeType) (v : Value) : Outcome Value :=
  match coerce type v with
  | .error (.filter e) => updateFailure (.operand e) field
  | outcome => outcome

/-! ## Records -/

/-- A part of a directive: a text reads a field of the record, which must be there. -/
def resolveReference (record : Record) (field : String) (v : Value) : Outcome Value :=
  match v with
  | .text name =>
    match Entries.get? record name with
    | some value => .ok value
    | none => updateFailure (.missingReference field name) field
  | v => .ok v

/-- The sum that a directive asks for; a null part makes it null. -/
def sumDate (field : String) (date number : Value) (unit : DateUnit) : Outcome Value :=
  if date.isNull || number.isNull then .ok .null
  else do
    let start ← coerceFor field (some .datetime) date
    match addUnits start unit number with
    | .ok v => return v
    | .error .impossible => updateFailure (.impossibleSum field unit.name number) field
    | .error (.fault f) => throw f

/-- The new value of a field; directives read the record before the update. -/
def newValue (record : Record) (field : String) (v : Value) : Outcome Value :=
  match directive? v with
  | none => .ok v
  | some body => do
    let d ← ofUpdate (Directive.read field body)
    let date ← resolveReference record field d.date
    let number ← resolveReference record field d.number
    sumDate field date number d.unit

/-- A record with an update applied; with known types, new values take the form of their fields. -/
def revise (spec : Entries Value) (record : Record) (types : Entries AttributeType) :
    Outcome Record :=
  spec.foldlM (fun updated (field, v) => do
    let value ← newValue record field v
    return Entries.set updated field (← coerceFor field (Entries.get? types field) value)) record

/-! ## Tables -/

/-- A part of a directive over a table: a column, or a value. -/
inductive Term where
  | column (name : String)
  | value (v : Value)

/-- The new value of a column. -/
inductive Assignment where
  | literal (v : Value)
  | sum (date number : Term) (unit : DateUnit) (asDate : Bool)

/-- A part of a directive over the table of a model; a text must name a column. -/
def termOf (model : Model) (field : String) (v : Value) : Outcome Term :=
  match v with
  | .text name =>
    if model.hasAttribute name then .ok (.column name)
    else updateFailure (.unknownReference field name) field
  | v => .ok (.value v)

/-- The new value of a column of a given type. -/
def assignment (model : Model) (field : String) (type : AttributeType) (v : Value) :
    Outcome Assignment :=
  match directive? v with
  | none => do return .literal (← coerceFor field type v)
  | some body => do
    let d ← ofUpdate (Directive.read field body)
    let date ← match d.date with
      | .text name => pure (.text name)
      | other => coerceFor field (some .datetime) other
    let date ← termOf model field date
    let number ← termOf model field d.number
    return .sum date number d.unit (type = .date)

/-- An update as new column values of the table of a model, in the order of the update. -/
def assignments (spec : Entries Value) (model : Model) : Outcome (Entries Assignment) :=
  spec.mapM fun (field, v) =>
    match Entries.get? model.attributeTypes field with
    | some type => do return (field, ← assignment model field type v)
    | none => updateFailure (.unknownField field model.name) field

end TwinStore
