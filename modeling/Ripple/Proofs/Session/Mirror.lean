import Ripple.Proofs.Session.Calls
import Ripple.Proofs.Store.NodeTable

/-!
# The text index and the nodes

No trigger keeps the text index in step with the nodes; each write that stores a node does
it by hand. Tables are *mirrored* if the text index holds one row for each node, with its
name and its content (`Tables.Mirrored`). Writes keep them so (`Tables.Mirrored.apply`),
and so do runs of calls, whichever of them fail (`mirrored_run`).
-/

namespace Ripple

/-- What the text index should hold of a node: its identifier, its name and its content,
    which is empty if there is none. -/
def NodeRow.entry (row : NodeRow) : String × String × String :=
  (row.id, row.name, row.content.getD "")

/-- What the text index holds in a row. -/
def IndexRow.entry (row : IndexRow) : String × String × String :=
  (row.nodeId, row.name, row.content)

namespace Tables

/-- The text index holds one row for each node and no other. -/
def Mirrored (t : Tables) : Prop :=
  ∃ nodes index, t.nodes = some nodes ∧ t.index = some index ∧
    (index.map IndexRow.entry).Perm (nodes.rows.map NodeRow.entry)

theorem mirrored_current {nodes : NodeTable} {edges : EdgeTable} {index : List IndexRow} :
    (current nodes edges index).Mirrored ↔
      (index.map IndexRow.entry).Perm (nodes.rows.map NodeRow.entry) := by
  simp [Mirrored, current]

theorem mirrored_fresh : fresh.Mirrored := mirrored_current.2 .nil

/-- What the text index holds after a node has been stored. -/
theorem entries_reindex (node : Node) (now : Instant) (index : List IndexRow) :
    (reindex node index).map IndexRow.entry =
      (index.map IndexRow.entry).filter (·.1 ≠ node.id) ++
        [(NodeRow.ofNode node now).entry] := by
  have hfilter : (fun row : IndexRow => row.nodeId != node.id) =
      (fun e : String × String × String => decide (e.1 ≠ node.id)) ∘ IndexRow.entry :=
    funext fun row => by
      by_cases h : row.nodeId = node.id <;> simp [IndexRow.entry, h]
  rw [reindex, List.map_append, hfilter, ← List.filter_map]
  rfl

/-- What the text index should hold after a node has been stored. -/
theorem perm_entries_put (node : Node) (now : Instant) (nodes : NodeTable) :
    ((nodes.put (.ofNode node now)).rows.map NodeRow.entry).Perm
      ((nodes.rows.map NodeRow.entry).filter (·.1 ≠ node.id) ++
        [(NodeRow.ofNode node now).entry]) := by
  have hfilter : (fun row : NodeRow => decide (row.id ≠ node.id)) =
      (fun e : String × String × String => decide (e.1 ≠ node.id)) ∘ NodeRow.entry := rfl
  have hput := (NodeTable.perm_putRow (.ofNode node now) nodes.distinct).map NodeRow.entry
  rw [List.filter_map, ← hfilter]
  exact hput.trans (List.perm_append_singleton _ _).symm

/-- A write keeps tables mirrored. -/
theorem Mirrored.apply {t : Tables} (h : t.Mirrored) (ht : t.IsCurrent) (write : Write) :
    (write.apply t).Mirrored := by
  obtain ⟨nodes, edges, index, rfl⟩ := ht
  rw [mirrored_current] at h
  cases write with
  | putNode node now =>
    rw [Write.apply_putNode, mirrored_current, entries_reindex node now]
    exact ((h.filter _).append_right _).trans (perm_entries_put node now nodes).symm
  | putEdge edge => rwa [Write.apply_putEdge, mirrored_current]

/-- Writes keep tables mirrored. -/
theorem Mirrored.foldl_apply {t : Tables} (h : t.Mirrored) (ht : t.IsCurrent)
    (writes : List Write) : (writes.foldl Write.apply t).Mirrored := by
  induction writes generalizing t with
  | nil => exact h
  | cons write writes ih => exact ih (h.apply ht write) (ht.apply write)

end Tables

/-- After any run from a database that has just been made, the text index holds one row for
    each node and no other. -/
theorem mirrored_run {s : Session} (h : s.workspace.tables? = some Tables.empty.migrate.1)
    (calls : List Call) : ∃ t, (s.run calls).workspace.tables? = some t ∧ t.Mirrored :=
  ⟨_, Session.tables?_run h .fresh calls, Tables.mirrored_fresh.foldl_apply .fresh _⟩

/-- A run that stores a node twice, the second time without its content, and that fails to
    store another one between. -/
theorem mirrored_run_replaced :
    (Session.ofTables Tables.fresh).workspace.tables? = some Tables.empty.migrate.1 ∧
      ∃ t, ((Session.ofTables .fresh).run
        [.record (fun _ => none) "a.rs" "old" .epoch,
          .record (fun step => if step = .addIndexed then some .closed else none) "b.rs" "" .epoch,
          .upsert (fun _ => none) { Node.file "a.rs" "" .epoch with content := none } .epoch,
          .addEdge ⟨"file:a.rs", "gone", "uses", none⟩]).workspace.tables? = some t ∧ t.Mirrored :=
  ⟨rfl, mirrored_run rfl _⟩

end Ripple
