import Ripple.Proofs.Impact.Extension
import Ripple.Proofs.Impact.Failure
import Ripple.Proofs.Impact.Reach
import Ripple.Proofs.Store.Tally

/-!
# Tables in another order

Tables are a shuffle of others if they hold the same rows in another order, but for the
timestamps of nodes and the identifiers of edges (`Tables.Shuffles`). A timestamp may differ as
long as it can be read if the other one can. What is read of such tables differs in nothing else:
a node in its timestamp (`Tables.Shuffles.node?`), the edges of a node in their identifiers and
their order (`Tables.Shuffles.edgesOf`), the sizes in nothing at all (`Tables.Shuffles.stats`), and
the files of an analysis in their order (`Tables.Shuffles.analyze`).
-/

namespace Ripple

/-- A node but for its timestamp. -/
def Node.undated (node : Node) : Node := { node with updatedAt := .epoch }

/-- An edge but for its identifier. -/
def Edge.unnumbered (edge : Edge) : NewEdge where
  source := edge.source
  target := edge.target
  relationship := edge.relationship
  metadata := edge.metadata

/-- A row of a node but for its timestamp, and what is read from the row. -/
def NodeRow.gist (row : NodeRow) : NodeRow × Except GraphError Node :=
  ({ row with updatedAt := "" }, row.decode.map Node.undated)

/-- A row of an edge but for its identifier. -/
def EdgeRow.unnumbered (row : EdgeRow) : EdgeRow := { row with id := 0 }

theorem EdgeRow.decode_unnumbered (row : EdgeRow) :
    row.unnumbered.decode.map Edge.unnumbered = row.decode.map Edge.unnumbered := by
  simp only [decode, unnumbered]
  cases decodeMetadata row.metadata <;> rfl

/-- What is read from rows that differ in nothing but their identifiers differs in nothing
    else. -/
theorem EdgeRow.map_decode_congr {row row' : EdgeRow} (h : row.unnumbered = row'.unnumbered) :
    row.decode.map Edge.unnumbered = row'.decode.map Edge.unnumbered := by
  rw [← decode_unnumbered, h, decode_unnumbered]

theorem EdgeRow.touches_congr {row row' : EdgeRow} (h : row.unnumbered = row'.unnumbered)
    (id : String) : row.touches id = row'.touches id := by
  change row.unnumbered.touches id = row'.unnumbered.touches id
  rw [h]

/-- The second tables hold the rows of the first ones in some order, with timestamps of nodes
    that can be read alike and with any identifiers of edges. -/
structure Tables.Shuffles (t t' : Tables) : Prop where
  nodes : ∃ nodes nodes', t.nodes = some nodes ∧ t'.nodes = some nodes' ∧
    (nodes.rows.map NodeRow.gist).Perm (nodes'.rows.map NodeRow.gist)
  edges : ∃ edges edges', t.edges = some edges ∧ t'.edges = some edges' ∧
    (edges.rows.map EdgeRow.unnumbered).Perm (edges'.rows.map EdgeRow.unnumbered)

/-- Rows of the same gists have the same gist under each identifier. -/
theorem NodeTable.map_find?_of_perm {nodes nodes' : NodeTable}
    (h : (nodes.rows.map NodeRow.gist).Perm (nodes'.rows.map NodeRow.gist)) (id : String) :
    (nodes.find? id).map NodeRow.gist = (nodes'.find? id).map NodeRow.gist := by
  have hmem (table : NodeTable) {gist : NodeRow × Except GraphError Node} :
      (table.find? id).map NodeRow.gist = some gist ↔
        gist ∈ table.rows.map NodeRow.gist ∧ gist.1.id = id := by
    rw [Option.map_eq_some_iff, List.mem_map]
    constructor
    · rintro ⟨row, hrow, rfl⟩
      have hid : row.id = id := by simpa using List.find?_some hrow
      exact ⟨⟨row, List.mem_of_find?_eq_some hrow, rfl⟩, hid⟩
    · rintro ⟨⟨row, hrow, rfl⟩, rfl⟩
      exact ⟨row, NodeTable.find?_eq_of_mem table.distinct hrow, rfl⟩
  refine Option.ext fun gist => ?_
  rw [hmem, hmem, h.mem_iff]

namespace Tables.Shuffles

variable {t t' : Tables} {path id : String} {depth : ℕ}

theorem symm (h : t.Shuffles t') : t'.Shuffles t := by
  obtain ⟨⟨nodes, nodes', hn, hn', hnodes⟩, ⟨edges, edges', he, he', hedges⟩⟩ := h
  exact ⟨⟨nodes', nodes, hn', hn, hnodes.symm⟩, ⟨edges', edges, he', he, hedges.symm⟩⟩

/-! ## Reads -/

/-- A node is the same but for its timestamp, or cannot be read for the same reason. -/
theorem node? (h : t.Shuffles t') (id : String) :
    (t.node? id).map (Option.map Node.undated) = (t'.node? id).map (Option.map Node.undated) := by
  obtain ⟨nodes, nodes', hn, hn', hperm⟩ := h.nodes
  have hread {t : Tables} {table : NodeTable} (htable : t.nodes = some table) :
      (t.node? id).map (Option.map Node.undated) =
        match (table.find? id).map NodeRow.gist with
        | none => .ok none
        | some gist => gist.2.map some := by
    rw [node?_of_some htable]
    cases table.find? id with
    | none => rfl
    | some row =>
      simp only [Option.map_some, NodeRow.gist]
      cases row.decode <;> rfl
  rw [hread hn, hread hn', NodeTable.map_find?_of_perm hperm]

/-- The edges of a node are the same but for their identifiers and their order, or cannot be
    read in either tables. -/
theorem edgesOf (h : t.Shuffles t') (id : String) :
    Alike (fun edges edges' => (edges.map Edge.unnumbered).Perm (edges'.map Edge.unnumbered))
      (t.edgesOf id) (t'.edgesOf id) := by
  obtain ⟨edges, edges', he, he', hperm⟩ := h.edges
  have hread {t : Tables} {table : EdgeTable} (htable : t.edges = some table) :
      (t.edgesOf id).map (List.map Edge.unnumbered) =
        ((table.rows.map EdgeRow.unnumbered).filter (·.touches id)).mapM fun row =>
          row.decode.map Edge.unnumbered := by
    rw [edgesOf_of_some htable, map_mapM, List.filter_map, List.mapM_map]
    exact congrArg (List.mapM · _) (funext fun row => row.decode_unnumbered.symm)
  refine .of_map ?_
  rw [hread he, hread he']
  exact alike_mapM_of_perm _ (hperm.filter _)

/-- The sizes are the same. -/
theorem stats (h : t.Shuffles t') : ∃ sizes, t.stats = .ok sizes ∧ t'.stats = .ok sizes := by
  obtain ⟨nodes, nodes', hn, hn', hnodes⟩ := h.nodes
  obtain ⟨edges, edges', he, he', hedges⟩ := h.edges
  have hkinds : (nodes.rows.map NodeRow.kind).Perm (nodes'.rows.map NodeRow.kind) := by
    have hmap := hnodes.map (·.1.kind)
    rwa [List.map_map, List.map_map] at hmap
  have hrelationships :
      (edges.rows.map EdgeRow.relationship).Perm (edges'.rows.map EdgeRow.relationship) := by
    have hmap := hedges.map EdgeRow.relationship
    rwa [List.map_map, List.map_map] at hmap
  refine ⟨_, stats_of_some hn he, ?_⟩
  have hcount : nodes.rows.length = nodes'.rows.length := by simpa using hkinds.length_eq
  have hcountEdges : edges.rows.length = edges'.rows.length := by
    simpa using hrelationships.length_eq
  rw [stats_of_some hn' he', tally_eq_of_perm hkinds, tally_eq_of_perm hrelationships, hcount,
    hcountEdges]

/-! ## Analyses -/

theorem exists_gist (h : t.Shuffles t') {row : NodeRow} (hrow : row ∈ t.graph.nodes) :
    ∃ row' ∈ t'.graph.nodes, row'.gist = row.gist := by
  obtain ⟨nodes, nodes', hn, hn', hperm⟩ := h.nodes
  rw [graph_nodes hn] at hrow
  rw [graph_nodes hn']
  exact List.mem_map.1 (hperm.mem_iff.1 (List.mem_map_of_mem hrow))

theorem exists_unnumbered (h : t.Shuffles t') {edge : EdgeRow} (hedge : edge ∈ t.graph.edges) :
    ∃ edge' ∈ t'.graph.edges, edge'.unnumbered = edge.unnumbered := by
  obtain ⟨edges, edges', he, he', hperm⟩ := h.edges
  rw [graph_edges he] at hedge
  rw [graph_edges he']
  exact List.mem_map.1 (hperm.mem_iff.1 (List.mem_map_of_mem hedge))

/-- The graph of a shuffle has the same nodes, files and edges. -/
theorem extends_graph (h : t.Shuffles t') : t.graph.Extends t'.graph where
  stored := by
    rintro id ⟨row, hrow, rfl⟩
    obtain ⟨row', hrow', hgist⟩ := h.exists_gist hrow
    exact ⟨row', hrow', congrArg (·.1.id) hgist⟩
  carries := by
    rintro id file ⟨row, hrow, rfl, hfile⟩
    obtain ⟨row', hrow', hgist⟩ := h.exists_gist hrow
    exact ⟨row', hrow', congrArg (·.1.id) hgist, (congrArg (·.1.filePath) hgist).trans hfile⟩
  adjacent := by
    rintro x y ⟨edge, hedge, hends⟩
    obtain ⟨edge', hedge', hsame⟩ := h.exists_unnumbered hedge
    have hsource : edge'.source = edge.source := congrArg (fun row => row.source) hsame
    have htarget : edge'.target = edge.target := congrArg (fun row => row.target) hsame
    exact ⟨edge', hedge', by rwa [hsource, htarget]⟩

/-- A row that an analysis cannot read has one in a shuffle that it cannot read there. -/
theorem unreadable (h : t.Shuffles t') (hunread : t.Unreadable path depth) :
    t'.Unreadable path depth := by
  have hhops {id : String} {k : ℕ} (hk : t.graph.Hops path id k) : t'.graph.Hops path id k :=
    h.extends_graph.hops h.symm.extends_graph hk
  cases hunread with
  | seed hrow hfile herror =>
    obtain ⟨row', hrow', hgist⟩ := h.exists_gist hrow
    exact .seed hrow' ((congrArg (·.1.filePath) hgist).trans hfile)
      (exists_error_of_map_eq (congrArg Prod.snd hgist).symm herror)
  | node hrow hk hle herror =>
    obtain ⟨row', hrow', hgist⟩ := h.exists_gist hrow
    have hid : row'.id = _ := congrArg (·.1.id) hgist
    exact .node hrow' (hid ▸ hhops hk) hle
      (exists_error_of_map_eq (congrArg Prod.snd hgist).symm herror)
  | edge hedge htouches hstored hk hlt herror =>
    obtain ⟨edge', hedge', hsame⟩ := h.exists_unnumbered hedge
    exact .edge hedge' ((EdgeRow.touches_congr hsame _).trans htouches)
      (h.extends_graph.stored hstored) (hhops hk) hlt
      (exists_error_of_map_eq (EdgeRow.map_decode_congr hsame).symm herror)

/-- An analysis lists the same files in some order, or fails for both. -/
theorem analyze (h : t.Shuffles t') (path : String) (depth : UInt32) :
    Alike (fun report report' => report.files.Perm report'.files) (t.analyze path depth)
      (t'.analyze path depth) := by
  have hfails {t : Tables} (hnodes : t.nodes.isSome) (hedges : t.edges.isSome) :
      (∃ report, t.analyze path depth = .ok report) ↔ ¬t.Unreadable path depth.toNat := by
    rw [← exists_analyze_error_iff hnodes hedges, exists_error_iff, not_not]
  obtain ⟨nodes, nodes', hn, hn', -⟩ := h.nodes
  obtain ⟨edges, edges', he, he', -⟩ := h.edges
  refine .of_ok_iff ?_ fun report report' hreport hreport' => ?_
  · rw [hfails (by simp [hn]) (by simp [he]), hfails (by simp [hn']) (by simp [he'])]
    exact not_congr ⟨h.unreadable, h.symm.unreadable⟩
  · exact Impact.perm_files_of_extends h.extends_graph h.symm.extends_graph t.source_reads
      t'.source_reads t.edgeCount_eq.ge t'.edgeCount_eq.ge hreport hreport'

/-- The rows of a shuffle can be read if those of the tables can. -/
theorem readable (h : t.Shuffles t') (ht : t.Readable) : t'.Readable := by
  obtain ⟨nodes, nodes', hn, hn', -⟩ := h.nodes
  obtain ⟨edges, edges', he, he', -⟩ := h.edges
  refine ⟨⟨nodes', hn', fun row hrow => ?_⟩, ⟨edges', he', fun row hrow => ?_⟩⟩
  · obtain ⟨row', hrow', hgist⟩ := h.symm.exists_gist (graph_nodes hn' ▸ hrow)
    exact exists_ok_of_map_eq (congrArg Prod.snd hgist) (ht.decode_node hrow')
  · obtain ⟨row', hrow', hsame⟩ := h.symm.exists_unnumbered (graph_edges he' ▸ hrow)
    exact exists_ok_of_map_eq (EdgeRow.map_decode_congr hsame) (ht.decode_edge hrow')

end Tables.Shuffles

end Ripple
