import Ripple.Graph.Node
import Ripple.Graph.Edge
import Ripple.Json.Reader
import Ripple.Json.Printer
import Ripple.Store.Error

/-!
# Rows

A row holds what a table keeps of a node or an edge. Metadata and timestamps are kept as
text, so a row can hold a text that is no metadata or no timestamp. `NodeRow.decode` and
`EdgeRow.decode` read the texts; metadata is read before the timestamp.
-/

namespace Ripple

/-- What a table keeps of a node. -/
structure NodeRow where
  /-- The identifier. -/
  id : String
  /-- The kind. -/
  kind : String
  /-- The name. -/
  name : String
  /-- The file. -/
  filePath : Option String
  /-- The content. -/
  content : Option String
  /-- The metadata as text. -/
  metadata : Option String
  /-- The timestamp as text. -/
  updatedAt : String
deriving DecidableEq, Repr

/-- What a table keeps of an edge. -/
structure EdgeRow where
  /-- The identifier. -/
  id : Int
  /-- The identifier of the node from which the edge leads. -/
  source : String
  /-- The identifier of the node to which it leads. -/
  target : String
  /-- What relates the two. -/
  relationship : String
  /-- The metadata as text. -/
  metadata : Option String
deriving DecidableEq, Repr

/-- What the text index keeps of a node. -/
structure IndexRow where
  /-- The number of the row. -/
  number : Nat
  /-- The identifier of the node. -/
  nodeId : String
  /-- The name of the node. -/
  name : String
  /-- The content of the node, empty if there is none. -/
  content : String
deriving DecidableEq, Repr

/-- Reads metadata. -/
def decodeMetadata : Option String → Except GraphError (Option Json)
  | none => .ok none
  | some text => ((Json.parse text).map some).mapError .metadata

namespace NodeRow

/-- The row of a node that is stored at an instant. The node's own timestamp does not
    count. -/
def ofNode (node : Node) (now : Instant) : NodeRow where
  id := node.id
  kind := node.kind
  name := node.name
  filePath := node.filePath
  content := node.content
  metadata := node.metadata.map Json.text
  updatedAt := now.columnText

/-- The node of a row. -/
def decode (row : NodeRow) : Except GraphError Node := do
  let metadata ← decodeMetadata row.metadata
  let updatedAt ← (Instant.readStrict row.updatedAt).mapError (.storage ∘ .timestamp)
  return { row with metadata, updatedAt }

end NodeRow

namespace EdgeRow

/-- The row of an edge that is stored under an identifier. -/
def ofEdge (edge : NewEdge) (id : Int) : EdgeRow where
  id := id
  source := edge.source
  target := edge.target
  relationship := edge.relationship
  metadata := edge.metadata.map Json.text

/-- The edge of a row. -/
def decode (row : EdgeRow) : Except GraphError Edge := do
  return { row with metadata := ← decodeMetadata row.metadata }

/-- Whether a node is an endpoint. -/
def touches (row : EdgeRow) (node : String) : Bool := row.source == node || row.target == node

end EdgeRow

end Ripple
