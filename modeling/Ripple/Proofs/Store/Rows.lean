import Ripple.Proofs.Except
import Ripple.Proofs.Impact.Graph

/-!
# Reading rows

A row that can be read gives a node or an edge with the fields of the row; only metadata
and timestamp are read from texts (`NodeRow.decode_eq_ok`, `EdgeRow.decode_eq_ok`). So the
tables answer a search with what stands in their rows (`Tables.source_reads`), unless one of
the rows that are asked for cannot be read.
-/

namespace Ripple

theorem NodeRow.decode_eq_ok {row : NodeRow} {node : Node} :
    row.decode = .ok node ↔ ∃ metadata updatedAt, decodeMetadata row.metadata = .ok metadata ∧
      Instant.readStrict row.updatedAt = .ok updatedAt ∧
      node = ⟨row.id, row.kind, row.name, row.filePath, row.content, metadata, updatedAt⟩ := by
  simp only [NodeRow.decode, bind_eq_ok, mapError_eq_ok]
  constructor
  · rintro ⟨metadata, hm, updatedAt, hu, h⟩
    exact ⟨metadata, updatedAt, hm, hu, (Except.ok.inj h).symm⟩
  · rintro ⟨metadata, updatedAt, hm, hu, rfl⟩
    exact ⟨metadata, hm, updatedAt, hu, rfl⟩

theorem EdgeRow.decode_eq_ok {row : EdgeRow} {edge : Edge} :
    row.decode = .ok edge ↔ ∃ metadata, decodeMetadata row.metadata = .ok metadata ∧
      edge = ⟨row.id, row.source, row.target, row.relationship, metadata⟩ := by
  simp only [EdgeRow.decode, bind_eq_ok]
  constructor
  · rintro ⟨metadata, hm, h⟩
    exact ⟨metadata, hm, (Except.ok.inj h).symm⟩
  · rintro ⟨metadata, hm, rfl⟩
    exact ⟨metadata, hm, rfl⟩

namespace Tables

variable {t : Tables} {id path : String}

theorem needNodes_eq_ok {table : NodeTable} : t.needNodes = .ok table ↔ t.nodes = some table := by
  rw [needNodes]
  split <;> simp_all [missing]

theorem needEdges_eq_ok {table : EdgeTable} : t.needEdges = .ok table ↔ t.edges = some table := by
  rw [needEdges]
  split <;> simp_all [missing]

theorem node?_eq_ok {node : Option Node} :
    t.node? id = .ok node ↔ ∃ table, t.nodes = some table ∧
      ((table.find? id = none ∧ node = none) ∨
        ∃ row n, table.find? id = some row ∧ row.decode = .ok n ∧ node = some n) := by
  simp only [node?, fault, bind_eq_ok, mapError_eq_ok, needNodes_eq_ok]
  refine exists_congr fun table => and_congr_right fun _ => ?_
  cases table.find? id with
  | none => simp [pure, Except.pure, eq_comm]
  | some row =>
    simp only [bind_eq_ok, Option.some.injEq, reduceCtorEq, false_and, false_or]
    constructor
    · rintro ⟨n, hn, h⟩
      exact ⟨row, n, rfl, hn, (Except.ok.inj h).symm⟩
    · rintro ⟨_, n, rfl, hn, rfl⟩
      exact ⟨n, hn, rfl⟩

theorem nodesAt_eq_ok {nodes : List Node} :
    t.nodesAt path = .ok nodes ↔ ∃ table, t.nodes = some table ∧
      List.Forall₂ (fun row node => row.decode = .ok node)
        (table.rows.filter (·.filePath = some path)) nodes := by
  simp only [nodesAt, fault, bind_eq_ok, mapError_eq_ok, needNodes_eq_ok, mapM_eq_ok]

theorem edgesOf_eq_ok {edges : List Edge} :
    t.edgesOf id = .ok edges ↔ ∃ table, t.edges = some table ∧
      List.Forall₂ (fun row edge => row.decode = .ok edge)
        (table.rows.filter (·.touches id)) edges := by
  simp only [edgesOf, fault, bind_eq_ok, mapError_eq_ok, needEdges_eq_ok, mapM_eq_ok]

variable {nodes : NodeTable} {edges : EdgeTable}

theorem nodesAt_of_some (h : t.nodes = some nodes) (path : String) :
    t.nodesAt path = (nodes.rows.filter (·.filePath = some path)).mapM NodeRow.decode := by
  rw [nodesAt, needNodes_eq_ok.2 h]
  rfl

theorem node?_of_some (h : t.nodes = some nodes) (id : String) :
    t.node? id = match nodes.find? id with
      | none => .ok none
      | some row => row.decode.map some := by
  rw [node?, needNodes_eq_ok.2 h]
  rfl

theorem edgesOf_of_some (h : t.edges = some edges) (id : String) :
    t.edgesOf id = (edges.rows.filter (·.touches id)).mapM EdgeRow.decode := by
  rw [edgesOf, needEdges_eq_ok.2 h]
  rfl

theorem stats_of_some (hnodes : t.nodes = some nodes) (hedges : t.edges = some edges) :
    t.stats = .ok ⟨nodes.rows.length, edges.rows.length, tally (nodes.rows.map NodeRow.kind),
      tally (edges.rows.map EdgeRow.relationship)⟩ := by
  rw [stats, needNodes_eq_ok.2 hnodes, needEdges_eq_ok.2 hedges]
  rfl

/-- The nodes of a file can be read if and only if their rows can. -/
theorem exists_nodesAt_iff (h : t.nodes = some nodes) :
    (∃ found, t.nodesAt path = .ok found) ↔
      ∀ row ∈ nodes.rows, row.filePath = some path → ∃ node, row.decode = .ok node := by
  rw [nodesAt_of_some h, exists_mapM_ok_iff]
  simp only [List.mem_filter, decide_eq_true_eq, and_imp]

/-- A node can be read if and only if its row can. -/
theorem exists_node?_iff (h : t.nodes = some nodes) :
    (∃ found, t.node? id = .ok found) ↔
      ∀ row ∈ nodes.rows, row.id = id → ∃ node, row.decode = .ok node := by
  constructor
  · rintro ⟨found, hfound⟩ row hrow rfl
    have hrow : nodes.find? row.id = some row := NodeTable.find?_eq_of_mem nodes.distinct hrow
    obtain ⟨table, htable, hnode⟩ := node?_eq_ok.1 hfound
    obtain rfl : nodes = table := Option.some.inj (h.symm.trans htable)
    rcases hnode with ⟨hnone, -⟩ | ⟨row', node, hrow', hdecode, -⟩
    · rw [hrow] at hnone
      cases hnone
    · obtain rfl : row = row' := Option.some.inj (hrow.symm.trans hrow')
      exact ⟨node, hdecode⟩
  · intro hrows
    cases hfind : nodes.find? id with
    | none => exact ⟨none, node?_eq_ok.2 ⟨nodes, h, .inl ⟨hfind, rfl⟩⟩⟩
    | some row =>
      obtain ⟨node, hdecode⟩ := hrows row (List.mem_of_find?_eq_some hfind)
        (by simpa using List.find?_some hfind)
      exact ⟨some node, node?_eq_ok.2 ⟨nodes, h, .inr ⟨row, node, hfind, hdecode, rfl⟩⟩⟩

/-- The edges of a node can be read if and only if their rows can. -/
theorem exists_edgesOf_iff (h : t.edges = some edges) :
    (∃ found, t.edgesOf id = .ok found) ↔
      ∀ row ∈ edges.rows, row.touches id → ∃ edge, row.decode = .ok edge := by
  rw [edgesOf_of_some h, exists_mapM_ok_iff]
  simp only [List.mem_filter, and_imp]

end Tables

/-! ## As a source of analyses -/

namespace Tables

/-- The tables as an analysis asks them. -/
def source (t : Tables) : Impact.Source (Except GraphError) := ⟨t.nodesAt, t.node?, t.edgesOf⟩

/-- The number of edges is that of the graph. -/
theorem edgeCount_eq (t : Tables) : t.edgeCount = t.graph.edges.length := by
  rw [edgeCount, graph]
  cases t.edges <;> rfl

/-- Tables that can be read answer as their graph does. -/
theorem source_reads (t : Tables) : t.source.Reads t.graph where
  nodesAt {path nodes} h := by
    obtain ⟨table, htable, hrows⟩ := nodesAt_eq_ok.1 h
    rw [Graph.seeds, graph_nodes htable]
    refine map_eq_of_forall₂ (fun row node hdecode => ?_) hrows
    obtain ⟨_, _, _, _, rfl⟩ := NodeRow.decode_eq_ok.1 hdecode
    rfl
  node? {id node} h := by
    obtain ⟨table, htable, hnode⟩ := node?_eq_ok.1 h
    rw [Graph.file?, graph_nodes htable]
    change node.map Node.filePath = (table.find? id).map NodeRow.filePath
    rcases hnode with ⟨hfind, rfl⟩ | ⟨row, n, hfind, hdecode, rfl⟩
    · rw [hfind]
      rfl
    · obtain ⟨_, _, _, _, rfl⟩ := NodeRow.decode_eq_ok.1 hdecode
      rw [hfind]
      rfl
  edgesOf {id edges} h := by
    obtain ⟨table, htable, hrows⟩ := edgesOf_eq_ok.1 h
    rw [Graph.neighbors, graph_edges htable]
    refine map_eq_of_forall₂ (fun row edge hdecode => ?_) hrows
    obtain ⟨_, _, rfl⟩ := EdgeRow.decode_eq_ok.1 hdecode
    rfl

end Tables

end Ripple
