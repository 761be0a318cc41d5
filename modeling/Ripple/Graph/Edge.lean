import Ripple.Json.Basic

/-!
# Edges

An edge has a direction and a relationship, a label that is kept as it is. The walk of
an impact analysis goes along it either way. A `NewEdge` becomes an `Edge` when a store
gives it an identifier.
-/

namespace Ripple

/-- A stored relationship between two nodes. -/
structure Edge where
  /-- The identifier that the store gave. -/
  id : Int
  /-- The identifier of the node from which the edge leads. -/
  source : String
  /-- The identifier of the node to which it leads. -/
  target : String
  /-- What relates the two. -/
  relationship : String
  /-- Whatever the author attaches. -/
  metadata : Option Json
deriving BEq, Inhabited

/-- The endpoint that is not the given node; of a loop, the node itself. -/
def Edge.neighborOf (edge : Edge) (node : String) : String :=
  if edge.source = node then edge.target else edge.source

/-- A relationship that is to be stored. Its endpoints need not be stored nodes. -/
structure NewEdge where
  /-- The identifier of the node from which the edge leads. -/
  source : String
  /-- The identifier of the node to which it leads. -/
  target : String
  /-- What relates the two. -/
  relationship : String
  /-- Whatever the author attaches. -/
  metadata : Option Json
deriving BEq, Inhabited

/-- The edge as it is stored under an identifier. -/
def NewEdge.toEdge (edge : NewEdge) (id : Int) : Edge where
  id := id
  source := edge.source
  target := edge.target
  relationship := edge.relationship
  metadata := edge.metadata

end Ripple
