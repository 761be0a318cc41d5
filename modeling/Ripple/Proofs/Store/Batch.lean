import Ripple.Proofs.Store.Log
import Ripple.Proofs.Store.Shuffle

/-!
# Batches of writes

Nodes that are stored under distinct identifiers, and edges, leave rows that do not depend on the
order in which they are stored, but for timestamps and for the identifiers of edges: each node has
its row, which takes the place of an old one (`Tables.Takes`), and each edge has one beside the
old ones (`Tables.TakesEdges`). So the same nodes and edges in any two orders leave tables of which
one is a shuffle of the other (`Tables.Takes.shuffles`).
-/

namespace Ripple

/-! ## Rows -/

/-- The rows of the second table are those of some nodes and those of the first table that have
    other identifiers, provided that the nodes have distinct ones. -/
def NodeTable.Takes (before after : NodeTable) (past : List Stored) : Prop :=
  (past.map (·.node.id)).Nodup →
    after.rows.Perm (past.map Stored.row ++ before.rows.filter (·.id ∉ past.map (·.node.id)))

theorem NodeTable.Takes.put {before after : NodeTable} {past : List Stored}
    (h : before.Takes after past) (u : Stored) :
    before.Takes (after.put u.row) (past ++ [u]) := by
  intro hdistinct
  have hids : (past ++ [u]).map (·.node.id) = past.map (·.node.id) ++ [u.node.id] :=
    List.map_append
  rw [hids, List.nodup_append] at hdistinct
  obtain ⟨hpast, -, hnew⟩ := hdistinct
  -- No row of the nodes before is replaced.
  have hkept : (past.map Stored.row).filter (·.id ≠ u.node.id) = past.map Stored.row :=
    List.filter_eq_self.2 fun row hrow => by
      obtain ⟨other, hother, rfl⟩ := List.mem_map.1 hrow
      have hmem : other.node.id ∈ past.map (·.node.id) := List.mem_map_of_mem hother
      exact decide_eq_true (hnew _ hmem _ (List.mem_singleton_self _))
  have hrest : (before.rows.filter (·.id ∉ past.map (·.node.id))).filter (·.id ≠ u.node.id) =
      before.rows.filter (·.id ∉ (past ++ [u]).map (·.node.id)) := by
    rw [List.filter_filter, hids]
    refine List.filter_congr fun row _ => ?_
    rw [Bool.eq_iff_iff, Bool.and_eq_true]
    simp only [decide_eq_true_eq, List.mem_append, List.mem_singleton, not_or]
    exact and_comm
  have hothers := (h hpast).filter (·.id ≠ u.node.id)
  rw [List.filter_append, hkept, hrest] at hothers
  refine (perm_putRow u.row after.distinct).trans ((hothers.cons u.row).trans ?_)
  have hrows : (past ++ [u]).map Stored.row = past.map Stored.row ++ [u.row] := List.map_append
  rw [hrows, List.append_assoc]
  exact List.perm_middle.symm

namespace Tables

/-- The second tables have the nodes of the first ones, and some others in the place of those with
    the same identifiers. -/
def Takes (t t' : Tables) (past : List Stored) : Prop :=
  ∃ nodes nodes', t.nodes = some nodes ∧ t'.nodes = some nodes' ∧ nodes.Takes nodes' past

/-- The second tables have the edges of the first ones and some others. -/
def TakesEdges (t t' : Tables) (past : List NewEdge) : Prop :=
  ∃ edges edges', t.edges = some edges ∧ t'.edges = some edges' ∧
    edges'.rows.map EdgeRow.unnumbered =
      edges.rows.map EdgeRow.unnumbered ++ past.map (EdgeRow.ofEdge · 0)

variable {t t' : Tables} {past : List Stored} {edges : List NewEdge}

theorem IsCurrent.takes (ht : t.IsCurrent) : t.Takes t [] := by
  obtain ⟨nodes, _, _, rfl⟩ := ht
  exact ⟨nodes, nodes, rfl, rfl, fun _ => by simp⟩

theorem IsCurrent.takesEdges (ht : t.IsCurrent) : t.TakesEdges t [] := by
  obtain ⟨_, edges, _, rfl⟩ := ht
  exact ⟨edges, edges, rfl, rfl, (List.append_nil _).symm⟩

/-- A write adds the node that it stores. -/
theorem Takes.apply (h : t.Takes t' past) (ht' : t'.IsCurrent) (write : Write) :
    t.Takes (write.apply t') (past ++ write.stored?.toList) := by
  obtain ⟨nodes, nodes', hnodes, hnodes', h⟩ := h
  obtain ⟨table, _, _, rfl⟩ := ht'
  obtain rfl : table = nodes' := Option.some.inj hnodes'
  cases write with
  | putNode node now => exact ⟨nodes, _, hnodes, rfl, h.put ⟨node, now⟩⟩
  | putEdge edge =>
    rw [Write.stored?, Option.toList_none, List.append_nil]
    exact ⟨nodes, _, hnodes, rfl, h⟩

/-- A write adds the edge that it stores. -/
theorem TakesEdges.apply (h : t.TakesEdges t' edges) (ht' : t'.IsCurrent) (write : Write) :
    t.TakesEdges (write.apply t') (edges ++ write.edge?.toList) := by
  obtain ⟨old, new, hold, hnew, h⟩ := h
  obtain ⟨_, table, _, rfl⟩ := ht'
  obtain rfl : table = new := Option.some.inj hnew
  cases write with
  | putNode node now =>
    rw [Write.edge?, Option.toList_none, List.append_nil]
    exact ⟨old, _, hold, rfl, h⟩
  | putEdge edge =>
    have hadd : (table.add edge).rows.map EdgeRow.unnumbered =
        table.rows.map EdgeRow.unnumbered ++ [.ofEdge edge 0] := List.map_append
    refine ⟨old, _, hold, rfl, hadd.trans ?_⟩
    rw [h, List.append_assoc, Write.edge?, Option.toList_some, List.map_append]
    rfl

theorem takes_foldl_apply (ht : t.IsCurrent) (writes : List Write) :
    t.Takes (writes.foldl Write.apply t) (writes.filterMap Write.stored?) :=
  ht.foldl_record (P := t.Takes) (fun ht' h write => h.apply ht' write) ht.takes writes

theorem takesEdges_foldl_apply (ht : t.IsCurrent) (writes : List Write) :
    t.TakesEdges (writes.foldl Write.apply t) (writes.filterMap Write.edge?) :=
  ht.foldl_record (P := t.TakesEdges) (fun ht' h write => h.apply ht' write) ht.takesEdges writes

end Tables

/-! ## In any order -/

/-- The gist of the row of a node that has been stored while the clock showed a year of four
    digits. -/
def Node.gist (node : Node) : NodeRow × Except GraphError Node :=
  ({ NodeRow.ofNode node .epoch with updatedAt := "" },
    (decodeMetadata (node.metadata.map Json.text)).map fun metadata =>
      { node with metadata, updatedAt := .epoch })

theorem Stored.gist_row {u : Stored} (hyear : 0 ≤ u.now.date.year ∧ u.now.date.year ≤ 9999) :
    u.row.gist = u.node.gist := by
  rw [NodeRow.gist, row, NodeRow.decode_ofNode u.node hyear, Node.gist]
  cases decodeMetadata (u.node.metadata.map Json.text) <;> rfl

namespace Tables

variable {t t₁ t₂ : Tables} {past past' : List Stored} {edges edges' : List NewEdge}

/-- What takes the same nodes and edges in two orders is the same but for the order. -/
theorem Takes.shuffles (h₁ : t.Takes t₁ past) (h₂ : t.Takes t₂ past')
    (hedges₁ : t.TakesEdges t₁ edges) (hedges₂ : t.TakesEdges t₂ edges')
    (hnodes : (past.map Stored.node).Perm (past'.map Stored.node)) (hedges : edges.Perm edges')
    (hdistinct : (past.map (·.node.id)).Nodup)
    (hyear : ∀ u ∈ past, 0 ≤ u.now.date.year ∧ u.now.date.year ≤ 9999)
    (hyear' : ∀ u ∈ past', 0 ≤ u.now.date.year ∧ u.now.date.year ≤ 9999) : t₁.Shuffles t₂ where
  nodes := by
    obtain ⟨nodes, nodes₁, hn, hn₁, h₁⟩ := h₁
    obtain ⟨nodes', nodes₂, hn', hn₂, h₂⟩ := h₂
    obtain rfl : nodes = nodes' := Option.some.inj (hn.symm.trans hn')
    have hids : (past.map (·.node.id)).Perm (past'.map (·.node.id)) := by
      have hmap := hnodes.map Node.id
      rwa [List.map_map, List.map_map] at hmap
    -- The same old rows stay.
    have hrest : nodes.rows.filter (·.id ∉ past'.map (·.node.id)) =
        nodes.rows.filter (·.id ∉ past.map (·.node.id)) :=
      List.filter_congr fun row _ => by simp only [hids.mem_iff]
    have hgists {past : List Stored}
        (hyear : ∀ u ∈ past, 0 ≤ u.now.date.year ∧ u.now.date.year ≤ 9999) :
        (past.map Stored.row).map NodeRow.gist = (past.map Stored.node).map Node.gist := by
      rw [List.map_map, List.map_map]
      exact List.map_congr_left fun u hu => Stored.gist_row (hyear u hu)
    have hperm₁ := (h₁ hdistinct).map NodeRow.gist
    have hperm₂ := (h₂ (hids.nodup_iff.1 hdistinct)).map NodeRow.gist
    rw [List.map_append, hgists hyear] at hperm₁
    rw [List.map_append, hgists hyear', hrest] at hperm₂
    exact ⟨nodes₁, nodes₂, hn₁, hn₂,
      hperm₁.trans (((hnodes.map Node.gist).append_right _).trans hperm₂.symm)⟩
  edges := by
    obtain ⟨old, edges₁, he, he₁, hrows₁⟩ := hedges₁
    obtain ⟨old', edges₂, he', he₂, hrows₂⟩ := hedges₂
    obtain rfl : old = old' := Option.some.inj (he.symm.trans he')
    refine ⟨edges₁, edges₂, he₁, he₂, ?_⟩
    rw [hrows₁, hrows₂]
    exact (hedges.map _).append_left _

/-- All rows can be read if all old ones can be read and all that have been taken. -/
theorem Takes.readable (h : t.Takes t₁ past) (hedges : t.TakesEdges t₁ edges) (ht : t.Readable)
    (hdistinct : (past.map (·.node.id)).Nodup) (hread : ∀ u ∈ past, ∃ node, u.row.decode = .ok node)
    (hreadEdges : ∀ edge ∈ edges, ∃ e, (EdgeRow.ofEdge edge 0).decode = .ok e) : t₁.Readable where
  nodes := by
    obtain ⟨nodes, nodes₁, hn, hn₁, h⟩ := h
    refine ⟨nodes₁, hn₁, fun row hrow => ?_⟩
    rcases List.mem_append.1 ((h hdistinct).mem_iff.1 hrow) with hnew | hold
    · obtain ⟨u, hu, rfl⟩ := List.mem_map.1 hnew
      exact hread u hu
    · exact ht.decode_node (graph_nodes hn ▸ (List.mem_filter.1 hold).1)
  edges := by
    obtain ⟨old, edges₁, he, he₁, hrows⟩ := hedges
    refine ⟨edges₁, he₁, fun row hrow => ?_⟩
    have hmem : row.unnumbered ∈ edges₁.rows.map EdgeRow.unnumbered := List.mem_map_of_mem hrow
    rw [hrows, List.mem_append, List.mem_map, List.mem_map] at hmem
    rcases hmem with ⟨row', hrow', hsame⟩ | ⟨edge, hedge, hsame⟩
    · exact exists_ok_of_map_eq (EdgeRow.map_decode_congr hsame)
        (ht.decode_edge (graph_edges he ▸ hrow'))
    · have hsame : (EdgeRow.ofEdge edge 0).unnumbered = row.unnumbered := hsame
      exact exists_ok_of_map_eq (EdgeRow.map_decode_congr hsame) (hreadEdges edge hedge)

end Tables

end Ripple
