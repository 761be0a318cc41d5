/-!
# Reports

A `Report` says which files a change of a file can affect within a number of hops.
`Stats` are the sizes of a graph.
-/

namespace Ripple

/-- The files within a number of hops of a file. -/
structure Report where
  /-- The file that changes. -/
  filePath : String
  /-- The greatest number of hops. -/
  depth : UInt32
  /-- The files within reach, in the order in which they were found. -/
  files : List String
deriving DecidableEq, Repr

namespace Report

/-- Whether a file is within reach. -/
def contains (report : Report) (path : String) : Bool := report.files.contains path

/-- Whether nothing is within reach, as for a file that is not tracked. -/
def isEmpty (report : Report) : Bool := report.files.isEmpty

end Report

/-- The sizes of a graph. -/
structure Stats where
  /-- The number of nodes. -/
  totalNodes : Nat
  /-- The number of edges. -/
  totalEdges : Nat
  /-- The number of nodes of each kind, the largest first. -/
  nodesByKind : List (String × Nat)
  /-- The number of edges of each relationship, the largest first. -/
  edgesByRelationship : List (String × Nat)
deriving DecidableEq, Repr

/-- The sizes of the empty graph. -/
def Stats.empty : Stats := ⟨0, 0, [], []⟩

end Ripple
