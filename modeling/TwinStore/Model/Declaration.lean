import TwinStore.Fault
import TwinStore.Model.Basic
import TwinStore.Text.Identifier

/-!
# Declarations of models

A model may be declared as a map.  All problems of a declaration are collected, in the order of the
fields; fields that nobody knows are ignored.

Main definitions:

- `Reader`: a value, or the problems found on the way to it.
- `readFlag`, `readName`: readings of single fields.
- `Model.read`: the model of a declaration.
-/

namespace TwinStore

open Number

-- Powers are those of the integers and natural numbers, whatever algebra is in scope.
attribute [local instance (1100)] instPowNat

/-- The problems of a part of a declaration, with the places where they are. -/
abbrev Problems := List (List PathStep × ModelProblem)

/-- A value and the problems found on the way to it; with a problem the value means nothing. -/
abbrev Reader (α : Type) := Problems × α

namespace Reader

/-- A value without a problem. -/
def value {α : Type} (a : α) : Reader α := ([], a)

/-- A problem at the place itself, with a value to go on with. -/
def problem {α : Type} (p : ModelProblem) (a : α) : Reader α := ([([], p)], a)

/-- A part one step further on the way. -/
def under {α : Type} (step : PathStep) (r : Reader α) : Reader α :=
  (r.1.map fun (path, p) => (step :: path, p), r.2)

/-- A field that may be absent. -/
def optional {α : Type} (fields : Entries Value) (name : String) (fallback : α)
    (read : Value → Reader α) : Reader α :=
  match Entries.get? fields name with
  | some v => under (.key name) (read v)
  | none => value fallback

/-- A field that must be there. -/
def required {α : Type} (fields : Entries Value) (name : String) (fallback : α)
    (read : Value → Reader α) : Reader α :=
  match Entries.get? fields name with
  | some v => under (.key name) (read v)
  | none => under (.key name) (problem .missing fallback)

end Reader

open Reader

/-! ## Single fields -/

/-- A text. -/
def readText : Value → Reader String
  | .text s => value s
  | _ => problem .notText ""

/-- A text that is an identifier. -/
def readName : Value → Reader String
  | .text s => if Text.isIdentifier s then value s else problem .notAnIdentifier s
  | _ => problem .notText ""

/-- The name of an attribute type. -/
def readType : Value → Reader AttributeType
  | .text s =>
    match AttributeType.ofName? s with
    | some type => value type
    | none => problem .unknownType .str
  | _ => problem .unknownType .str

/-- The words for true. -/
def trueWords : List String := ["1", "t", "true", "y", "yes", "on"]

/-- The words for false. -/
def falseWords : List String := ["0", "f", "false", "n", "no", "off"]

/-- A flag from a word in any case. -/
def flagOfWord (s : String) : Reader Bool :=
  let lowered := s.map Char.toLower
  if trueWords.contains lowered then value true
  else if falseWords.contains lowered then value false
  else problem .unreadableFlag false

/-- A flag from a whole number; numbers of more than 64 bits are no candidates. -/
def flagOfInt (n : Int) : Reader Bool :=
  if n = 0 then value false
  else if n = 1 then value true
  else if -(2 ^ (63 : Nat)) ≤ n ∧ n < 2 ^ (63 : Nat) then problem .unreadableFlag false
  else problem .notAFlag false

/-- A flag from a double, which must be whole. -/
def flagOfFloat (x : Float) : Reader Bool :=
  match Binary64.scaled? x with
  | some s => if s.isIntegral then flagOfInt s.truncate else problem .notAFlag false
  | none => problem .notAFlag false

/-- A flag: a truth value, a number or a word for one. -/
def readFlag : Value → Reader Bool
  | .bool b => value b
  | .int n => flagOfInt n
  | .float x => flagOfFloat x
  | .decimal d => if d.isSignaling then problem .notAFlag false else flagOfFloat d.toFloat
  | .text s => flagOfWord s
  | _ => problem .notAFlag false

/-! ## Parts -/

/-- An attribute. -/
def readAttribute : Value → Reader Attribute
  | .map fields =>
    let name := required fields "name" "" readName
    let type := optional fields "type" AttributeType.str readType
    let primaryKey := optional fields "primary_key" false readFlag
    let autoincrement := optional fields "autoincrement" false readFlag
    let mandatory := optional fields "required" false readFlag
    (name.1 ++ type.1 ++ primaryKey.1 ++ autoincrement.1 ++ mandatory.1,
      ⟨name.2, type.2, primaryKey.2, autoincrement.2, mandatory.2⟩)
  | _ => problem .notAModel ⟨"", .str, false, false, false⟩

/-- The attributes of a list, counted from a position. -/
def readAttributesFrom : Nat → List Value → Reader (List Attribute)
  | _, [] => value []
  | position, item :: rest =>
    let first := under (.item position) (readAttribute item)
    let others := readAttributesFrom (position + 1) rest
    (first.1 ++ others.1, first.2 :: others.2)

/-- A list of attributes. -/
def readAttributes : Value → Reader (List Attribute)
  | .list items => readAttributesFrom 0 items
  | .tuple items => readAttributesFrom 0 items
  | _ => problem .notAList []

/-- A relation. -/
def readRelation : Value → Reader RelationDeclaration
  | .map fields =>
    let kind := required fields "kind" "" readText
    let thisKey := required fields "this_key" "" readText
    let otherKey := required fields "other_key" "" readText
    let innerJoin := optional fields "inner_join" true readFlag
    (kind.1 ++ thisKey.1 ++ otherKey.1 ++ innerJoin.1,
      ⟨kind.2, thisKey.2, otherKey.2, innerJoin.2⟩)
  | _ => problem .notAModel ⟨"", "", "", true⟩

/-- The relations under their target names. -/
def readRelations : Value → Reader (Entries RelationDeclaration)
  | .map fields =>
    let parts := fields.map fun (target, v) => (target, under (.key target) (readRelation v))
    (parts.flatMap fun (_, r) => r.1, parts.map fun (target, r) => (target, r.2))
  | _ => problem .notAnObject []

/-! ## Models -/

/-- The model of a declaration. -/
def Model.read (v : Value) : Outcome Model :=
  match v with
  | .map fields =>
    let name := required fields "name" "" readName
    let attributes := optional fields "attributes" [] readAttributes
    let relations := optional fields "relations" [] readRelations
    match name.1 ++ attributes.1 ++ relations.1 with
    | [] => .ok ⟨name.2, attributes.2, relations.2⟩
    | problems => .error (.declaration problems)
  | _ => .error (.declaration [([], .notAModel)])

end TwinStore
