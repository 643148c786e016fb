import TwinStore.Model.Basic

/-!
# Include plans

A query may ask for related records along with its own.  What it asks for is a forest of plans; it
can be built node by node or written as a sequence of tokens.

Main definitions:

- `Plan`: a node of an include request, with the nodes below it.
- `Builder`: a plan as a caller builds it, its filter still a map.
- `Token`: one part of a written request.
-/

namespace TwinStore.Include

/-- A node of an include request.  The related model also names the field under which its records
are attached; `required` is open until the node is bound to a relation, unless the caller sets
it. -/
inductive Plan (φ : Type) where
  | node (model : String) (required : Option Bool) (attributes : Option (List String))
      (where_ : Option φ) (relation : Option Relation) (children : List (Plan φ))

namespace Plan

variable {φ : Type}

/-- The related model. -/
def model : Plan φ → String
  | node m _ _ _ _ _ => m

/-- Whether parents without a match are dropped, where this is settled. -/
def required : Plan φ → Option Bool
  | node _ r _ _ _ _ => r

/-- The fields to return; all if nothing is said. -/
def attributes : Plan φ → Option (List String)
  | node _ _ a _ _ _ => a

/-- The filter on the related records. -/
def where_ : Plan φ → Option φ
  | node _ _ _ w _ _ => w

/-- The relation that the node is bound to. -/
def relation : Plan φ → Option Relation
  | node _ _ _ _ r _ => r

/-- The nodes below. -/
def children : Plan φ → List (Plan φ)
  | node _ _ _ _ _ c => c

/-- Whether parents without a match are dropped. -/
def isRequired (p : Plan φ) : Bool := p.required.getD false

/-- With other fields to return. -/
def withAttributes (names : List String) : Plan φ → Plan φ
  | node m r _ w l c => node m r (some names) w l c

/-- With another filter. -/
def withWhere (w : φ) : Plan φ → Plan φ
  | node m r a _ l c => node m r a (some w) l c

/-- With further nodes below. -/
def addChildren (more : List (Plan φ)) : Plan φ → Plan φ
  | node m r a w l c => node m r a w l (c ++ more)

/-- The plan of a relation, with nothing else said. -/
def ofRelation (relation : Relation) : Plan φ :=
  node relation.name (some relation.isRequired) none none (some relation) []

end Plan

/-- A plan whose filter is a map, as a caller builds it and as the cache reads it. -/
abbrev Builder := Plan (Entries Value)

/-- The name that opens a list of fields to return. -/
def projectionMark : String := "*"

/-- One part of a written include request. -/
inductive Token where
  /-- Starts a node for a relation of the current parent. -/
  | name (target : String)
  /-- A node that the caller built. -/
  | plan (builder : Builder)
  /-- After the projection mark, the fields of the node; else tokens for the nodes below it. -/
  | items (tokens : List Token)
  /-- The filter of the node. -/
  | filter (where_ : Entries Value)
  /-- A value that means nothing here. -/
  | other (kind : String)

/-- The texts among tokens. -/
def Token.names (tokens : List Token) : List String :=
  tokens.filterMap fun
    | .name s => some s
    | _ => none

/-- What stands behind the projection mark, if the tokens open with it. -/
def Token.projection? : List Token → Option (List Token)
  | .name mark :: fields => if mark = projectionMark then some fields else none
  | _ => none

end TwinStore.Include
