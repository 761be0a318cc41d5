import Ripple.Session.Gate
import Ripple.Store.Database
import Ripple.Graph.Event

/-!
# Sessions

A `Session` is a database behind a gate, the depth and the limit that hold if nobody asks
for others, the engine that reads search texts, and the audit trail. Its operations are
actions: they can change the session and can fail. This module holds those that make a single
request to the store.
-/

namespace Ripple

/-- A database in use. -/
structure Session where
  /-- The disk and the database. -/
  workspace : Workspace
  /-- The gate to the store. -/
  gate : Gate
  /-- The number of hops of an analysis by default. -/
  defaultDepth : UInt32
  /-- The number of results of a search by default. -/
  defaultLimit : UInt64
  /-- What reads search texts. -/
  engine : FullText.Engine
  /-- The audit trail. -/
  events : List Event

/-- Something that a session does. -/
abbrev Action := ExceptT GraphError (StateM Session)

namespace Session

/-- The session of a database that has just been opened. -/
def start (config : Config) (workspace : Workspace) : Session where
  workspace := workspace
  gate := .fresh
  defaultDepth := config.impact.maxDepth
  defaultLimit := config.search.defaultLimit
  engine := .standard
  events := []

/-- A request to the store, unless the gate refuses it. -/
def request {α : Type} (method : Method)
    (f : Workspace → Workspace × Except GraphError α) : Action α := fun s =>
  let (gate, passes) := s.gate.pass method
  if passes then
    let (workspace, result) := f s.workspace
    (result, { s with gate, workspace })
  else (.error (.storage .closed), { s with gate })

/-- A request that changes nothing. -/
def query {α : Type} (method : Method) (f : Tables → Except GraphError α) : Action α :=
  request method fun w => (w, w.read f)

/-- Stores a node. `disturbed` says which steps fail for a reason that lies outside the
    tables. -/
def upsertNodeUnless (disturbed : Tables.UpsertStep → Option StorageFault) (node : Node)
    (now : Instant) : Action Unit :=
  request .upsertNode fun w =>
    let (w, result) := w.write (Tables.upsertUnless disturbed node now)
    (w, Tables.fault result)

/-- Stores a node. -/
def upsertNode (node : Node) (now : Instant) : Action Unit :=
  upsertNodeUnless (fun _ => none) node now

/-- The node of an identifier. -/
def getNode (id : String) : Action (Option Node) := query .getNode (·.node? id)

/-- The nodes of a file. -/
def nodesAt (path : String) : Action (List Node) := query .findNodes (·.nodesAt path)

/-- Stores an edge and returns its identifier. -/
def addEdge (edge : NewEdge) : Action Int :=
  request .addEdge fun w =>
    let (w, result) := w.change (Tables.addEdge edge)
    (w, Tables.fault result)

/-- The edges of a node. -/
def edgesOf (id : String) : Action (List Edge) := query .getEdges (·.edgesOf id)

/-- The nodes that a search finds in the store. -/
def find (text : String) (limit : UInt64) : Action (List Node) := do
  let engine := (← get).engine
  query .search fun t => (t.search engine text limit).map Prod.fst

/-- The sizes of the graph. -/
def stats : Action Stats := query .getStats Tables.stats

/-- A search that passes by the gate, and how it was answered. -/
def searchDirectly (text : String) (limit : UInt64) : Action (List Node × SearchRoute) :=
  fun s => (s.workspace.read (·.search s.engine text limit), s)

end Session

end Ripple
