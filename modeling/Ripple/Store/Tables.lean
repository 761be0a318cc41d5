import Ripple.Store.Row
import Ripple.Graph.Report

/-!
# Tables

`Tables` are what a database holds: the nodes in the order in which they were stored
first, the edges by their identifiers, the text index and the schema versions. Any of
them can be missing, and whoever needs a missing table fails. No two nodes share an
identifier.

Storing a node takes several writes, to the node's row and to the text index.
`Tables.transact` keeps all of them or none.
-/

namespace Ripple

/-- The table of nodes. -/
structure NodeTable where
  /-- The rows, in the order in which they were stored first. -/
  rows : List NodeRow
  /-- Whether there is an index by file. -/
  byFile : Bool
  /-- Whether there is an index by kind. -/
  byKind : Bool
  /-- The identifiers are distinct. -/
  distinct : (rows.map NodeRow.id).Nodup
deriving DecidableEq, Repr

namespace NodeTable

/-- A table without rows. -/
def empty : NodeTable := ⟨[], false, false, .nil⟩

/-- Puts a row into the place of the one with the same identifier, or at the end. -/
def putRow (row : NodeRow) : List NodeRow → List NodeRow
  | [] => [row]
  | other :: rest => if other.id = row.id then row :: rest else other :: putRow row rest

theorem mem_ids_putRow (row : NodeRow) (rows : List NodeRow) (id : String) :
    id ∈ (putRow row rows).map NodeRow.id ↔ id = row.id ∨ id ∈ rows.map NodeRow.id := by
  induction rows with
  | nil => simp [putRow]
  | cons other rest ih =>
    by_cases h : other.id = row.id
    · simp [putRow, h]
    · simp only [putRow, h, if_false, List.map_cons, List.mem_cons, ih]
      exact or_left_comm

theorem nodup_putRow (row : NodeRow) {rows : List NodeRow} (h : (rows.map NodeRow.id).Nodup) :
    ((putRow row rows).map NodeRow.id).Nodup := by
  induction rows with
  | nil => simp [putRow]
  | cons other rest ih =>
    rw [List.map_cons, List.nodup_cons] at h
    by_cases he : other.id = row.id
    · rw [putRow, if_pos he, List.map_cons, List.nodup_cons]
      exact ⟨he ▸ h.1, h.2⟩
    · rw [putRow, if_neg he, List.map_cons, List.nodup_cons, mem_ids_putRow]
      exact ⟨fun hm => hm.elim he h.1, ih h.2⟩

/-- Stores a row. -/
def put (row : NodeRow) (table : NodeTable) : NodeTable :=
  { table with rows := putRow row table.rows, distinct := nodup_putRow row table.distinct }

/-- The row of an identifier. -/
def find? (id : String) (table : NodeTable) : Option NodeRow := table.rows.find? (·.id = id)

/-- Changes all rows but not their identifiers. -/
def mapRows (edit : NodeRow → NodeRow) (keeps : ∀ row, (edit row).id = row.id) (table : NodeTable) :
    NodeTable :=
  { table with
    rows := table.rows.map edit
    distinct := by
      have h : NodeRow.id ∘ edit = NodeRow.id := funext keeps
      simpa [h] using table.distinct }

end NodeTable

/-- The table of edges. -/
structure EdgeTable where
  /-- The rows, by their identifiers. -/
  rows : List EdgeRow
  /-- The greatest identifier that was ever given. -/
  lastId : Nat
  /-- Whether there is an index by source. -/
  bySource : Bool
  /-- Whether there is an index by target. -/
  byTarget : Bool
deriving DecidableEq, Repr

/-- A row with another text in place of its timestamp, if it is the one of an identifier. -/
def NodeRow.withTime (id text : String) (row : NodeRow) : NodeRow :=
  if row.id = id then { row with updatedAt := text } else row

/-- A row with another text in place of its metadata, if it is the one of an identifier. -/
def NodeRow.withMetadata (id text : String) (row : NodeRow) : NodeRow :=
  if row.id = id then { row with metadata := some text } else row

/-- What a database holds. -/
structure Tables where
  /-- The nodes. -/
  nodes : Option NodeTable
  /-- The edges. -/
  edges : Option EdgeTable
  /-- The text index. -/
  index : Option (List IndexRow)
  /-- The schema versions that have been applied. -/
  versions : Option (List Int)
deriving DecidableEq, Repr

namespace Tables

/-- A database without tables. -/
def empty : Tables := ⟨none, none, none, none⟩

/-- The failure of someone who needs a table that is missing. -/
def missing {α : Type} (name : String) : Except StorageFault α := .error (.engine (.noTable name))

/-- The table of nodes, if it is there. -/
def needNodes (t : Tables) : Except StorageFault NodeTable :=
  match t.nodes with
  | some table => .ok table
  | none => missing "nodes"

/-- The table of edges, if it is there. -/
def needEdges (t : Tables) : Except StorageFault EdgeTable :=
  match t.edges with
  | some table => .ok table
  | none => missing "edges"

/-- The text index, if it is there. -/
def needIndex (t : Tables) : Except StorageFault (List IndexRow) :=
  match t.index with
  | some rows => .ok rows
  | none => missing "text_index"

/-! ## Writes -/

/-- Stores the row of a node. -/
def putNode (row : NodeRow) (t : Tables) : Except StorageFault Tables := do
  let table ← t.needNodes
  return { t with nodes := some (table.put row) }

/-- Removes a node from the text index. -/
def removeIndexed (id : String) (t : Tables) : Except StorageFault Tables := do
  let rows ← t.needIndex
  return { t with index := some (rows.filter (·.nodeId != id)) }

/-- The number of the next row of the text index: one more than the greatest. -/
def nextNumber (rows : List IndexRow) : Nat := rows.foldl (fun n row => max n row.number) 0 + 1

/-- Adds a node to the text index. -/
def addIndexed (id name content : String) (t : Tables) : Except StorageFault Tables := do
  let rows ← t.needIndex
  return { t with index := some (rows ++ [⟨nextNumber rows, id, name, content⟩]) }

/-- Writes that are made together: if one fails, the tables are as they were before. -/
def transact (writes : List (Tables → Except StorageFault Tables)) (t : Tables) :
    Tables × Except StorageFault Unit :=
  match writes.foldlM (fun t write => write t) t with
  | .ok after => (after, .ok ())
  | .error fault => (t, .error fault)

/-- The steps of storing a node. -/
inductive UpsertStep where
  /-- Its row is written. -/
  | node
  /-- What the text index holds of it is removed. -/
  | removeIndexed
  /-- It is added to the text index. -/
  | addIndexed
  /-- The writes are made final. -/
  | commit
deriving DecidableEq, Repr

/-- A write that can fail for a reason that lies outside the tables. -/
def attempt (fault : Option StorageFault) (write : Tables → Except StorageFault Tables)
    (t : Tables) : Except StorageFault Tables :=
  match fault with
  | some fault => .error fault
  | none => write t

/-- Stores a node at an instant. `disturbed` says which steps fail for a reason that lies
    outside the tables. -/
def upsertUnless (disturbed : UpsertStep → Option StorageFault) (node : Node) (now : Instant)
    (t : Tables) : Tables × Except StorageFault Unit :=
  t.transact [
    attempt (disturbed .node) (putNode (.ofNode node now)),
    attempt (disturbed .removeIndexed) (removeIndexed node.id),
    attempt (disturbed .addIndexed) (addIndexed node.id node.name node.indexedContent),
    attempt (disturbed .commit) .ok]

/-- Stores a node at an instant. -/
def upsert (node : Node) (now : Instant) (t : Tables) : Tables × Except StorageFault Unit :=
  t.upsertUnless (fun _ => none) node now

/-- Stores an edge and gives it the next identifier. -/
def addEdge (edge : NewEdge) (t : Tables) : Except StorageFault (Int × Tables) := do
  let table ← t.needEdges
  let id := table.lastId + 1
  let rows := table.rows ++ [.ofEdge edge id]
  return (id, { t with edges := some { table with rows, lastId := id } })

/-! ## Reads -/

/-- A result whose failure is one of the graph. -/
def fault {α : Type} (result : Except StorageFault α) : Except GraphError α :=
  result.mapError .storage

/-- The node of an identifier. -/
def node? (t : Tables) (id : String) : Except GraphError (Option Node) := do
  let table ← fault t.needNodes
  match table.find? id with
  | none => return none
  | some row => return some (← row.decode)

/-- The nodes of a file, in the order in which they were stored first. -/
def nodesAt (t : Tables) (path : String) : Except GraphError (List Node) := do
  let table ← fault t.needNodes
  (table.rows.filter (·.filePath = some path)).mapM NodeRow.decode

/-- The edges of which a node is an endpoint, by their identifiers. -/
def edgesOf (t : Tables) (id : String) : Except GraphError (List Edge) := do
  let table ← fault t.needEdges
  (table.rows.filter (·.touches id)).mapM EdgeRow.decode

/-- The number of stored edges. -/
def edgeCount (t : Tables) : Nat :=
  match t.edges with
  | some table => table.rows.length
  | none => 0

/-- Counts one more of a label. -/
def countLabel (label : String) : List (String × Nat) → List (String × Nat)
  | [] => [(label, 1)]
  | (other, n) :: rest =>
    if other = label then (other, n + 1) :: rest else (other, n) :: countLabel label rest

/-- Whether one count comes before another: larger ones first, equal ones by label. -/
def countsBefore (a b : String × Nat) : Bool := a.2 > b.2 || (a.2 == b.2 && !(b.1 < a.1))

/-- How often each label occurs, the most frequent first. -/
def tally (labels : List String) : List (String × Nat) :=
  (labels.foldl (fun counts label => countLabel label counts) []).mergeSort countsBefore

/-- The sizes of the graph. -/
def stats (t : Tables) : Except GraphError Stats := do
  let nodes ← fault t.needNodes
  let edges ← fault t.needEdges
  return {
    totalNodes := nodes.rows.length
    totalEdges := edges.rows.length
    nodesByKind := tally (nodes.rows.map NodeRow.kind)
    edgesByRelationship := tally (edges.rows.map EdgeRow.relationship) }

/-! ## Maintenance

Changes that no operation of the graph makes. -/

/-- Removes a table of a name. -/
def drop (name : String) (t : Tables) : Except StorageFault Tables :=
  if name = "nodes" ∧ t.nodes.isSome then .ok { t with nodes := none }
  else if name = "edges" ∧ t.edges.isSome then .ok { t with edges := none }
  else if name = "text_index" ∧ t.index.isSome then .ok { t with index := none }
  else missing name

/-- Records schema versions in place of those that are recorded. A version that is
    recorded twice stops this; what was recorded before stays. -/
def setVersions (versions : List Int) (t : Tables) : Tables × Except StorageFault Unit :=
  match t.versions with
  | none => (t, missing "_migrations")
  | some _ => go versions []
where
  go : List Int → List Int → Tables × Except StorageFault Unit
    | [], recorded => ({ t with versions := some recorded }, .ok ())
    | version :: rest, recorded =>
      if version ∈ recorded then
        ({ t with versions := some recorded }, .error (.engine .duplicateVersion))
      else go rest (recorded ++ [version])

/-- Puts a text in place of the timestamp of a node; the number of rows that are changed. -/
def setUpdatedAt (id text : String) (t : Tables) : Except StorageFault (Nat × Tables) := do
  let table ← t.needNodes
  let edited := table.mapRows (NodeRow.withTime id text) fun row => by
    unfold NodeRow.withTime; split <;> rfl
  return (table.rows.countP (·.id = id), { t with nodes := some edited })

/-- Puts a text in place of the metadata of a node; the number of rows that are changed. -/
def setMetadata (id text : String) (t : Tables) : Except StorageFault (Nat × Tables) := do
  let table ← t.needNodes
  let edited := table.mapRows (NodeRow.withMetadata id text) fun row => by
    unfold NodeRow.withMetadata; split <;> rfl
  return (table.rows.countP (·.id = id), { t with nodes := some edited })

/-- Puts a text in place of the metadata of an edge; the number of rows that are changed. -/
def setEdgeMetadata (id : Int) (text : String) (t : Tables) :
    Except StorageFault (Nat × Tables) := do
  let table ← t.needEdges
  let rows := table.rows.map fun row =>
    if row.id = id then { row with metadata := some text } else row
  return (table.rows.countP (·.id = id), { t with edges := some { table with rows } })

end Tables

end Ripple
