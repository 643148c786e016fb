/-!
# Attributes

An attribute of a model is a column of its table and a field of its records.

Main definitions:

- `AttributeType`: the ten types, with their names.
- `Attribute`: name, type and constraints of an attribute.
-/

namespace TwinStore

/-- The type of an attribute. -/
inductive AttributeType where
  | str
  | text
  | int
  | decimal
  | float
  | bool
  | date
  | datetime
  | uuid
  | json
deriving DecidableEq, Repr

namespace AttributeType

/-- Every attribute type. -/
def all : List AttributeType :=
  [str, text, int, decimal, float, bool, date, datetime, uuid, json]

/-- The name by which a model declares the type. -/
def name : AttributeType → String
  | str => "str"
  | text => "text"
  | int => "int"
  | decimal => "decimal"
  | float => "float"
  | bool => "bool"
  | date => "date"
  | datetime => "datetime"
  | uuid => "uuid"
  | json => "json"

/-- The type with a name. -/
def ofName? (s : String) : Option AttributeType := all.find? (·.name == s)

/-- Whether values of the type are points of time. -/
def isTemporal : AttributeType → Bool
  | date | datetime => true
  | _ => false

/-- The name of the column class of the type. -/
def columnClass : AttributeType → String
  | str => "String"
  | text => "Text"
  | int => "Integer"
  | decimal => "Numeric"
  | float => "Float"
  | bool => "Boolean"
  | date => "Date"
  | datetime => "DateTime"
  | uuid => "Uuid"
  | json => "JSON"

end AttributeType

/-- An attribute: a column of the table and a field of every record. -/
structure Attribute where
  name : String
  type : AttributeType := .str
  primaryKey : Bool := false
  autoincrement : Bool := false
  required : Bool := false
deriving DecidableEq, Repr

/-- Whether the column takes null. -/
def Attribute.isNullable (a : Attribute) : Bool := !a.primaryKey && !a.required

/-- How the store generates values of the column: as declared for a key, by default otherwise. -/
inductive Generation where
  | auto
  | declared (on : Bool)
deriving DecidableEq, Repr

/-- How the store generates values of an attribute. -/
def Attribute.generation (a : Attribute) : Generation :=
  if a.primaryKey then .declared a.autoincrement else .auto

end TwinStore
