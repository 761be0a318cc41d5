import Ripple.Json.Basic
import Ripple.Time.Instant

/-!
# Nodes

A node is a tracked unit of a project: a file, a function, a class, a concept. Its
kind is a label that its author chooses. `Node.file` is the node of a whole file.
-/

namespace Ripple

/-- A tracked unit of a project. -/
structure Node where
  /-- The identifier, chosen by the author and kept over updates. -/
  id : String
  /-- The kind, a label that is kept as it is. -/
  kind : String
  /-- A short label. -/
  name : String
  /-- The file in which the unit lies. -/
  filePath : Option String
  /-- The full text. -/
  content : Option String
  /-- Whatever the author attaches. -/
  metadata : Option Json
  /-- When the unit was stored last. -/
  updatedAt : Instant
deriving BEq, Inhabited

namespace Node

/-- The kind of the node of a file. -/
def fileKind : String := "file"

/-- The identifier of the node of a file. -/
def fileId (path : String) : String := fileKind ++ ":" ++ path

/-- The last segment of a path that is not empty, or the path itself if it has none. -/
def fileName (path : String) : String :=
  match path.toList.reverse.dropWhile (· = '/') with
  | [] => path
  | back => String.ofList (back.takeWhile (· ≠ '/')).reverse

/-- The node of a file. -/
def file (path content : String) (at_ : Instant) : Node where
  id := fileId path
  kind := fileKind
  name := fileName path
  filePath := some path
  content := some content
  metadata := none
  updatedAt := at_

/-- The text of a node that is searched beside its name. -/
def indexedContent (node : Node) : String := node.content.getD ""

end Node

end Ripple
