import Ripple.Proofs.Impact.Extension
import Ripple.Proofs.Impact.Reach
import Ripple.Proofs.Session.Storing
import Ripple.Proofs.Store.Log

/-!
# Adding to a store

Edges and nodes that are added, and replace nothing, extend the graph of a store
(`Tables.Readable.apply`), whatever file a node has and even if edges have led to it before. So
after calls that only add (`Session.OnlyAdds`) an analysis lists all files that it listed before
(`files_subset_run`).
-/

namespace Ripple

/-- A write that adds an edge, or a node that is not stored, whose row can be read. -/
def Write.Adds (t : Tables) : Write → Prop
  | .putNode node now =>
    ¬t.graph.Stored node.id ∧
      (∃ metadata, decodeMetadata (node.metadata.map Json.text) = .ok metadata) ∧
      0 ≤ now.date.year ∧ now.date.year ≤ 9999
  | .putEdge edge => ∃ metadata, decodeMetadata (edge.metadata.map Json.text) = .ok metadata

/-- Calls that ask for nothing but to add edges, and nodes that are not stored at the time. -/
def Session.OnlyAdds (s : Session) : List Call → Prop
  | [] => True
  | call :: calls =>
    (∃ write, call.asked? = some write ∧
      ∀ t, s.workspace.tables? = some t → write.Adds t) ∧
    (call.after s).OnlyAdds calls

variable {s : Session} {t : Tables}

namespace Tables.Readable

theorem ne_empty (ht : t.Readable) : t ≠ .empty := by
  rintro rfl
  obtain ⟨_, hnodes, -⟩ := ht.nodes
  cases hnodes

/-- A write that adds something leaves tables that can be read, and extends their graph. -/
theorem apply (ht : t.Readable) {write : Write} (hadds : write.Adds t) :
    (write.apply t).Readable ∧ t.graph.Extends (write.apply t).graph := by
  obtain ⟨nodes, hnodes, hnodeRows⟩ := ht.nodes
  obtain ⟨edges, hedges, hedgeRows⟩ := ht.edges
  cases write with
  | putNode node now =>
    obtain ⟨hnew, hmetadata, hyear⟩ := hadds
    rcases Write.apply_putNode_cases t node now with hsame | ⟨nodes', index, hnodes', hput⟩
    · rw [hsame]
      exact ⟨ht, .refl _⟩
    obtain rfl : nodes = nodes' := Option.some.inj (hnodes.symm.trans hnodes')
    have hrows : (nodes.put (.ofNode node now)).rows = nodes.rows ++ [.ofNode node now] := by
      refine NodeTable.putRow_of_not_mem fun hmem => hnew ?_
      obtain ⟨row, hrow, hid⟩ := List.mem_map.1 hmem
      exact ⟨row, graph_nodes hnodes ▸ hrow, hid⟩
    have hread : ∃ read, (NodeRow.ofNode node now).decode = .ok read :=
      (NodeRow.exists_decode_ofNode_iff hyear).2 hmetadata
    rw [hput]
    refine ⟨⟨⟨_, rfl, ?_⟩, ⟨edges, hedges, hedgeRows⟩⟩, .of_subset ?_ (List.Subset.refl _)⟩
    · rw [hrows]
      exact List.forall_mem_append.2 ⟨hnodeRows, List.forall_mem_singleton.2 hread⟩
    · rw [graph_nodes hnodes, graph_nodes rfl, hrows]
      exact List.subset_append_left _ _
  | putEdge edge =>
    rcases Write.apply_putEdge_cases t edge with hsame | ⟨edges', hedges', hadd⟩
    · rw [hsame]
      exact ⟨ht, .refl _⟩
    obtain rfl : edges = edges' := Option.some.inj (hedges.symm.trans hedges')
    have hread : ∃ read, (EdgeRow.ofEdge edge (edges.lastId + 1)).decode = .ok read :=
      EdgeRow.exists_decode_ofEdge_iff.2 hadds
    rw [hadd]
    refine ⟨⟨⟨nodes, hnodes, hnodeRows⟩, ⟨_, rfl, ?_⟩⟩, .of_subset (List.Subset.refl _) ?_⟩
    · exact List.forall_mem_append.2 ⟨hedgeRows, List.forall_mem_singleton.2 hread⟩
    · rw [graph_edges hedges, graph_edges rfl]
      exact List.subset_append_left _ _

end Tables.Readable

/-- Calls that only add leave tables that can be read, and extend their graph. -/
theorem Session.Serves.run_of_onlyAdds (hs : s.Serves t) (ht : t.Readable) {calls : List Call}
    (hcalls : s.OnlyAdds calls) :
    ∃ t', (s.run calls).Serves t' ∧ t'.Readable ∧ t.graph.Extends t'.graph := by
  induction calls generalizing s t with
  | nil => exact ⟨t, hs, ht, .refl _⟩
  | cons call calls ih =>
    obtain ⟨⟨write, hasked, hadds⟩, hcalls⟩ := hcalls
    rcases hs.after_of_asked ht.ne_empty hasked with hafter | hafter
    · exact ih hafter ht hcalls
    · obtain ⟨hread, hext⟩ := ht.apply (hadds t hs.tables)
      obtain ⟨t', hserves, hread', hext'⟩ := ih hafter hread hcalls
      exact ⟨t', hserves, hread', hext.trans hext'⟩

/-- On tables that can be read, an analysis after calls that only add lists all files that it
    lists before them, within the same bound. -/
theorem files_subset_run (hs : s.Serves t) (ht : t.Readable) {calls : List Call}
    (hcalls : s.OnlyAdds calls) (path : String) (depth : UInt32) :
    ∃ report report', (Session.analyze path depth).result s = .ok report ∧
      (Session.analyze path depth).result (s.run calls) = .ok report' ∧
      report.files ⊆ report'.files := by
  obtain ⟨t', hs', ht', hext⟩ := hs.run_of_onlyAdds ht hcalls
  obtain ⟨report, hreport⟩ := ht.analyze path depth
  obtain ⟨report', hreport'⟩ := ht'.analyze path depth
  refine ⟨report, report', ?_, ?_, ?_⟩
  · rw [(Session.analyze_answers path depth s hs).1, hreport]
  · rw [(Session.analyze_answers path depth _ hs').1, hreport']
  · exact Impact.files_subset_of_extends hext t.source_reads t'.source_reads t.edgeCount_eq.ge
      t'.edgeCount_eq.ge hreport hreport'

/-- The identifier to which edges have led is stored, and an edge is added between others. -/
def Session.bridges : List Call :=
  [.upsert (fun _ => none) ⟨"gone", "file", "e.rs", some "e.rs", none, none, .epoch⟩ .epoch,
    .addEdge ⟨"d", "d", "uses", none⟩]

/-- A node through which edges had led nowhere is stored, and another file comes within reach. -/
theorem files_subset_run_ring :
    (Session.ofTables .ring).Serves .ring ∧ Tables.ring.Readable ∧
      (Session.ofTables .ring).OnlyAdds Session.bridges ∧
      ∃ report report', (Session.analyze "a.rs" 2).result (.ofTables .ring) = .ok report ∧
        (Session.analyze "a.rs" 2).result ((Session.ofTables .ring).run Session.bridges) =
          .ok report' ∧
        report.files ⊆ report'.files ∧ report'.files = ["a.rs", "c.rs", "e.rs", "d.rs"] := by
  have hs := Session.ofTables_serves .ring
  have hadds : (Session.ofTables .ring).OnlyAdds Session.bridges := by
    refine ⟨⟨_, rfl, ?_⟩, ⟨_, rfl, ?_⟩, trivial⟩
    · rintro t ⟨⟩
      refine ⟨?_, ⟨none, rfl⟩, by decide, by decide⟩
      change ¬∃ row ∈ _, _
      decide
    · rintro t ⟨⟩
      exact ⟨none, rfl⟩
  obtain ⟨report, report', hreport, hreport', hsub⟩ :=
    files_subset_run hs Tables.ring_readable hadds "a.rs" 2
  refine ⟨hs, Tables.ring_readable, hadds, report, report', hreport, hreport', hsub, ?_⟩
  have h : (Session.analyze "a.rs" 2).result ((Session.ofTables .ring).run Session.bridges) =
      .ok ⟨"a.rs", 2, ["a.rs", "c.rs", "e.rs", "d.rs"]⟩ := by
    decide +kernel
  rw [h] at hreport'
  rw [← Except.ok.inj hreport']

end Ripple
