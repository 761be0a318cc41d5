import Ripple.Session.Basic
import Ripple.Impact.Analysis

/-!
# What a session offers

The operations that callers use. Recording a file stores its node and analyzes its
impact. An analysis or a search without a depth or a limit has the session's own. Each
of the three leaves an entry in the audit trail when it succeeds; a recorded file leaves
one as soon as it is stored, whatever becomes of the analysis.
-/

namespace Ripple.Session

/-- Adds an entry to the audit trail. -/
def note (event : Event) : Action Unit :=
  modify fun s => { s with events := s.events ++ [event] }

/-- Empties the audit trail. -/
def clearEvents (s : Session) : Session := { s with events := [] }

/-- The store as an analysis asks it. -/
def source : Impact.Source Action := ⟨nodesAt, getNode, edgesOf⟩

/-- The number of edges in the store, as far as it can be known. -/
def edgeCount (s : Session) : Nat :=
  match s.workspace.tables? with
  | some tables => tables.edgeCount
  | none => 0

/-- Analyzes the impact of a file, without an entry in the audit trail. -/
def analyze (path : String) (depth : UInt32) : Action Report := do
  Impact.analyze source (← get).edgeCount path depth

/-- Analyzes the impact of a file. -/
def analyzeImpact (path : String) (depth : Option UInt32) (now : Instant) : Action Report := do
  let depth := depth.getD (← get).defaultDepth
  let report ← analyze path depth
  note (.impactAnalyzed path depth report.files.length now)
  return report

/-- Stores the current content of a file, which may be disturbed, and analyzes its impact. -/
def recordFileUnless (disturbed : Tables.UpsertStep → Option StorageFault) (path content : String)
    (now : Instant) : Action Report := do
  let node := Node.file path content now
  upsertNodeUnless disturbed node now
  note (.fileRecorded node.id path now)
  analyzeImpact path none now

/-- Stores the current content of a file and analyzes its impact. -/
def recordFile (path content : String) (now : Instant) : Action Report :=
  recordFileUnless (fun _ => none) path content now

/-- Searches nodes. An empty text or a limit of zero finds nothing, without a request to
    the store. -/
def searchAtMost (text : String) (limit : UInt64) : Action (List Node) :=
  if text = "" ∨ limit = 0 then return [] else find text limit

/-- Searches nodes. -/
def search (text : String) (limit : Option UInt64) (now : Instant) : Action (List Node) := do
  let limit := limit.getD (← get).defaultLimit
  let nodes ← searchAtMost text limit
  note (.searchPerformed text limit nodes.length now)
  return nodes

/-- Closes the database. -/
def close (s : Session) : Session := { s with workspace := s.workspace.close }

/-- Closes the database and opens it again, with a new gate and a new audit trail. -/
def reopen (s : Session) : Session × Except SetupError Unit :=
  match s.workspace.reopen with
  | (workspace, .error e) => ({ s with workspace }, .error e)
  | (workspace, .ok ()) => ({ s with workspace, gate := .fresh, events := [] }, .ok ())

end Ripple.Session
