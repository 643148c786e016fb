import TwinStore.Model.Attribute
import TwinStore.Value.Basic

/-!
# Models

A model is one table of the primary store and one set of the cache, together with its relations to
other models.

Main definitions:

- `RelationKind`: the four kinds of relation, with their names.
- `RelationDeclaration`: a relation as declared, its kind still unchecked.
- `Relation`: a relation that the registry accepted.
- `Model`: a model as declared.
-/

namespace TwinStore

/-- The kind of a relation. -/
inductive RelationKind where
  | hasOne
  | hasMany
  | belongsTo
  | belongsToMany
deriving DecidableEq, Repr

namespace RelationKind

/-- Every kind of relation. -/
def all : List RelationKind := [hasOne, hasMany, belongsTo, belongsToMany]

/-- The name by which a model declares the kind. -/
def name : RelationKind → String
  | hasOne => "hasOne"
  | hasMany => "hasMany"
  | belongsTo => "belongsTo"
  | belongsToMany => "belongsToMany"

/-- The kind with a name. -/
def ofName? (s : String) : Option RelationKind := all.find? (·.name == s)

/-- Whether the related records belong to this one and are deleted with it. -/
def isOwning : RelationKind → Bool
  | hasOne | hasMany => true
  | _ => false

end RelationKind

/-- A relation as a model declares it: the name of its kind and the two key attributes. -/
structure RelationDeclaration where
  kind : String
  thisKey : String
  otherKey : String
  innerJoin : Bool := true
deriving DecidableEq, Repr

/-- A checked relation from one model to the model it is named after. -/
structure Relation where
  name : String
  fromModel : String
  kind : RelationKind
  thisKey : String
  otherKey : String
  innerJoin : Bool
deriving DecidableEq, Repr

namespace Relation

/-- Whether records without a match are dropped when the relation is included. -/
def isRequired (r : Relation) : Bool := r.innerJoin

/-- Whether deleting a record deletes its related records. -/
def cascades (r : Relation) : Bool := r.kind.isOwning

end Relation

/-- A model as declared. -/
structure Model where
  name : String
  attributes : List Attribute := []
  relations : Entries RelationDeclaration := []
deriving DecidableEq, Repr

namespace Model

/-- Whether an attribute is declared. -/
def hasAttribute (m : Model) (name : String) : Bool := m.attributes.any (·.name == name)

/-- The names of the key attributes. -/
def primaryKeys (m : Model) : List String := (m.attributes.filter (·.primaryKey)).map (·.name)

/-- The type of every field. -/
def attributeTypes (m : Model) : Entries AttributeType :=
  Entries.ofPairs (m.attributes.map fun a => (a.name, a.type))

/-- Whether an attribute name occurs twice. -/
def hasRepeatedAttribute : List Attribute → Bool
  | [] => false
  | a :: rest => rest.any (·.name == a.name) || hasRepeatedAttribute rest

end Model

end TwinStore
