import Ripple.Proofs.Session.Calls
import Ripple.Proofs.Store.NodeTable

/-!
# Nodes that are stored or not

Storing a node changes the table of nodes and the text index in three writes and then makes
them final. Any of the four steps can fail: because a table is missing, or for a reason that
lies outside the tables. If one does then the tables are as they were, and otherwise they
differ in the row of the node and in its row of the text index alone (`Tables.Stores`). This
holds of every database, whether it is up to date or not, open or closed
(`upsert_all_or_nothing`).
-/

namespace Ripple

namespace Tables

/-- Tables after a node has been stored in some. -/
structure Stores (node : Node) (now : Instant) (t t' : Tables) : Prop where
  /-- The node has one row, and the rows of the others stand as they did. -/
  nodes : ∃ before after, t.nodes = some before ∧ t'.nodes = some after ∧
    after.rows.filter (·.id = node.id) = [.ofNode node now] ∧
    after.rows.filter (·.id ≠ node.id) = before.rows.filter (·.id ≠ node.id) ∧
    after.byFile = before.byFile ∧ after.byKind = before.byKind
  /-- The text index has one row for the node, and the rows of the others stand as they did. -/
  index : ∃ before after number, t.index = some before ∧ t'.index = some after ∧
    after.filter (·.nodeId = node.id) = [⟨number, node.id, node.name, node.indexedContent⟩] ∧
    after.filter (·.nodeId ≠ node.id) = before.filter (·.nodeId ≠ node.id)
  edges : t'.edges = t.edges
  versions : t'.versions = t.versions

variable {t : Tables} {nodes : NodeTable} {index : List IndexRow} {node : Node} {now : Instant}
  {disturbed : UpsertStep → Option StorageFault}

/-- With both tables there, a node is put into them. -/
theorem upsert_of_some (hnodes : t.nodes = some nodes) (hindex : t.index = some index) :
    t.upsert node now =
      ({ t with
        nodes := some (nodes.put (.ofNode node now))
        index := some (reindex node index) }, .ok ()) := by
  obtain ⟨_, _, _, _⟩ := t
  obtain rfl : _ = some nodes := hnodes
  obtain rfl : _ = some index := hindex
  rfl

/-- The text index has a single row for a node that it has taken up. -/
theorem filter_eq_reindex (node : Node) (index : List IndexRow) :
    ∃ number, (reindex node index).filter (·.nodeId = node.id) =
      [⟨number, node.id, node.name, node.indexedContent⟩] := by
  refine ⟨nextNumber (index.filter (·.nodeId != node.id)), ?_⟩
  simp [reindex]

/-- The text index keeps the rows of the other nodes. -/
theorem filter_ne_reindex (node : Node) (index : List IndexRow) :
    (reindex node index).filter (·.nodeId ≠ node.id) = index.filter (·.nodeId ≠ node.id) := by
  simp [reindex, bne, beq_eq_decide]

theorem stores_upsert (hnodes : t.nodes = some nodes) (hindex : t.index = some index) :
    t.Stores node now (t.upsert node now).1 := by
  rw [upsert_of_some hnodes hindex]
  obtain ⟨number, hrow⟩ := filter_eq_reindex node index
  exact {
    nodes := ⟨nodes, _, hnodes, rfl, NodeTable.filter_eq_putRow (.ofNode node now) nodes.distinct,
      NodeTable.filter_ne_putRow (.ofNode node now) nodes.rows, rfl, rfl⟩
    index := ⟨index, _, number, hindex, rfl, hrow, filter_ne_reindex node index⟩
    edges := rfl
    versions := rfl }

/-- A node is stored if and only if both tables are there and no step is disturbed. -/
theorem upsertUnless_eq_ok : (t.upsertUnless disturbed node now).2 = .ok () ↔
    (t.nodes.isSome ∧ t.index.isSome) ∧ ∀ step, disturbed step = none := by
  constructor
  · intro h
    refine ⟨?_, disturbed_eq_none_of_ok h⟩
    rw [upsertUnless_of_ok h] at h
    obtain ⟨nodes, edges, index, versions⟩ := t
    cases nodes with
    | none => cases h
    | some nodes =>
      cases index with
      | none => cases h
      | some index => exact ⟨rfl, rfl⟩
  · rintro ⟨⟨hnodes, hindex⟩, hnone⟩
    obtain ⟨nodes, hnodes⟩ := Option.isSome_iff_exists.1 hnodes
    obtain ⟨index, hindex⟩ := Option.isSome_iff_exists.1 hindex
    rw [funext hnone, ← upsert, upsert_of_some hnodes hindex]

end Tables

namespace Session

variable {s : Session} {disturbed : Tables.UpsertStep → Option StorageFault}

/-- What it takes to store a node. -/
structure Admits (s : Session) (disturbed : Tables.UpsertStep → Option StorageFault) : Prop where
  passes : (s.gate.pass .upsertNode).2 = true
  isOpen : s.workspace.database.isOpen = true
  nodes : s.workspace.contents.nodes.isSome
  index : s.workspace.contents.index.isSome
  undisturbed (step : Tables.UpsertStep) : disturbed step = none

/-- A node is stored in an open database that lets it be, and its tables show it. -/
theorem upsertNodeUnless_of_admits (h : s.Admits disturbed) (node : Node) (now : Instant) :
    (upsertNodeUnless disturbed node now).result s = .ok () ∧
      s.workspace.contents.Stores node now
        ((upsertNodeUnless disturbed node now).after s).workspace.contents := by
  obtain ⟨hresult, hafter⟩ := request_of_pass h.passes
  obtain ⟨nodes, hnodes⟩ := Option.isSome_iff_exists.1 h.nodes
  obtain ⟨index, hindex⟩ := Option.isSome_iff_exists.1 h.index
  have hwrite : (s.workspace.contents.upsertUnless disturbed node now).2 = .ok () :=
    Tables.upsertUnless_eq_ok.2 ⟨⟨h.nodes, h.index⟩, h.undisturbed⟩
  rw [upsertNodeUnless, hresult, hafter, Workspace.write_eq, if_pos h.isOpen, hwrite,
    Tables.upsertUnless_of_ok hwrite]
  refine ⟨rfl, ?_⟩
  rw [Workspace.contents_withTables]
  · exact Tables.stores_upsert hnodes hindex
  · -- The database has tables.
    intro hempty
    rw [hempty] at hnodes
    cases hnodes

/-- Whatever stands in the way of a node, storing it fails and the tables stay. -/
theorem upsertNodeUnless_of_not_admits (h : ¬s.Admits disturbed) (node : Node) (now : Instant) :
    (∃ e, (upsertNodeUnless disturbed node now).result s = .error e) ∧
      ((upsertNodeUnless disturbed node now).after s).workspace.contents =
        s.workspace.contents := by
  cases hpass : (s.gate.pass .upsertNode).2 with
  | false =>
    obtain ⟨hresult, hafter⟩ := request_of_refusal hpass
    rw [upsertNodeUnless, hresult, hafter]
    exact ⟨⟨_, rfl⟩, rfl⟩
  | true =>
    obtain ⟨hresult, hafter⟩ := request_of_pass hpass
    rw [upsertNodeUnless, hresult, hafter, Workspace.write_eq]
    by_cases hopen : s.workspace.database.isOpen
    · rw [if_pos hopen]
      cases hwrite : (s.workspace.contents.upsertUnless disturbed node now).2 with
      | ok =>
        obtain ⟨⟨hnodes, hindex⟩, hnone⟩ := Tables.upsertUnless_eq_ok.1 hwrite
        exact absurd ⟨hpass, hopen, hnodes, hindex, hnone⟩ h
      | error e =>
        rw [Tables.upsertUnless_of_error hwrite]
        exact ⟨⟨_, rfl⟩, Workspace.contents_withTables id⟩
    · rw [if_neg hopen]
      exact ⟨⟨_, rfl⟩, rfl⟩

end Session

/-- A file is stored again, and the text index does not take it up. It has its old content. -/
example :
    let t := (Write.putNode (.file "a.rs" "old" .epoch) .epoch).apply .fresh
    ((Session.upsertNodeUnless (fun step => if step = .addIndexed then some .closed else none)
      (.file "a.rs" "new" .epoch) .epoch).after (.ofTables t)).workspace.contents = t := rfl

end Ripple
