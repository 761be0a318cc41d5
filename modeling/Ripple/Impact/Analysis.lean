import Ripple.Graph.Node
import Ripple.Graph.Edge
import Ripple.Graph.Report

/-!
# Impact analysis

Which tracked files can a change of a file affect? `Impact.analyze` walks the graph from
the nodes of the file, breadth first and along edges in either direction, for a number
of hops, and lists the files of the nodes that it meets.

The walk reads the graph through a `Source`, any of whose answers can fail; then the
walk fails. An endpoint of an edge that is no stored node ends the walk there. A node
without a file does not, but adds nothing to the list.
-/

namespace Ripple.Impact

/-- What a walk asks of a graph. -/
structure Source (m : Type → Type) where
  /-- The nodes of a file. -/
  nodesAt : String → m (List Node)
  /-- The node of an identifier. -/
  node? : String → m (Option Node)
  /-- The edges of a node. -/
  edgesOf : String → m (List Edge)

/-- How far a walk has come. -/
structure Walk where
  /-- The identifiers to be visited, each with its number of hops. -/
  queue : List (String × UInt32)
  /-- The identifiers that have been visited. -/
  visited : List String
  /-- The files that have been met, in order. -/
  files : List String
deriving DecidableEq, Repr

namespace Walk

/-- The beginning of a walk from some nodes. -/
def start (seeds : List Node) : Walk := ⟨seeds.map fun node => (node.id, 0), [], []⟩

/-- A walk that has met a file, or a node without one. -/
def meet (file : Option String) (w : Walk) : Walk :=
  match file with
  | none => w
  | some path => if path ∈ w.files then w else { w with files := w.files ++ [path] }

/-- A walk that has found the edges of a node, of which the neighbours that have not been
    visited are queued. -/
def follow (id : String) (level : UInt32) (edges : List Edge) (w : Walk) : Walk :=
  let neighbors := (edges.map (·.neighborOf id)).filter (· ∉ w.visited)
  { w with queue := w.queue ++ neighbors.map fun neighbor => (neighbor, level) }

variable {m : Type → Type} [Monad m]

/-- Visits an identifier that has been taken from the queue, unless it has been visited
    or lies too far. A node at the greatest number of hops is met but not left. -/
def visit (source : Source m) (depth : UInt32) (id : String) (level : UInt32) (w : Walk) :
    m Walk := do
  if level > depth ∨ id ∈ w.visited then return w
  let w := { w with visited := id :: w.visited }
  match ← source.node? id with
  | none => return w
  | some node =>
    let w := w.meet node.filePath
    if level = depth then return w
    return w.follow id (level + 1) (← source.edgesOf id)

/-- Visits what is queued, up to a number of times. -/
def run (source : Source m) (depth : UInt32) : (fuel : Nat) → Walk → m Walk
  | 0, w => return w
  | fuel + 1, w =>
    match w.queue with
    | [] => return w
    | (id, level) :: queue => do
      run source depth fuel (← visit source depth id level { w with queue })

end Walk

/-- The files that a change of a file can affect within a number of hops, in a graph of
    so many edges. Each edge queues its endpoints once at most, so the walk takes no more
    steps than there are seeds and endpoints. -/
def analyze {m : Type → Type} [Monad m] (source : Source m) (edgeCount : Nat) (path : String)
    (depth : UInt32) : m Report := do
  let seeds ← source.nodesAt path
  let w ← Walk.run source depth (seeds.length + 2 * edgeCount) (.start seeds)
  return ⟨path, depth, w.files⟩

end Ripple.Impact
