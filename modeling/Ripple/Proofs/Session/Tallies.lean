import Ripple.Proofs.Session.Additions
import Ripple.Proofs.Session.Reads
import Ripple.Proofs.Store.Tally
import Mathlib.Data.Finset.Card

/-!
# The sizes after a run

After a run the sizes are those of what the run has stored: there are as many nodes as identifiers
under which nodes were stored, and as many edges as were added, and both are tallied by their
labels. A node that is stored again with another kind moves from the one count to the other, as its
row takes the place of the old one (`tallied_run`).
-/

namespace Ripple

/-! ## Rows -/

namespace NodeTable

variable {table : NodeTable} {row old : NodeRow}

/-- A row that takes the place of another counts among those of its kind, where the other one does
    not count any more. -/
theorem count_kinds_put (h : table.find? row.id = some old) (kind : String) :
    ((table.put row).rows.map NodeRow.kind).count kind + (if old.kind = kind then 1 else 0) =
      (table.rows.map NodeRow.kind).count kind + if row.kind = kind then 1 else 0 := by
  have hperm : (old :: (table.put row).rows).Perm (row :: table.rows) := perm_cons_putRow h
  have hcount := (hperm.map NodeRow.kind).count_eq kind
  rw [List.map_cons, List.map_cons, List.count_cons, List.count_cons] at hcount
  simpa using hcount

theorem length_put (h : table.find? row.id = some old) :
    (table.put row).rows.length = table.rows.length :=
  Nat.succ.inj (perm_cons_putRow h).length_eq

/-- There are as many rows as identifiers under which nodes were stored. -/
theorem Records.length_rows {past : List Stored} (h : table.Records past) :
    table.rows.length = (past.map (·.node.id)).toFinset.card := by
  have hdedup : (past.map (·.node.id)).eraseDups.Perm (past.map (·.node.id)).dedup :=
    (List.perm_ext_iff_of_nodup (Tables.nodup_eraseDups _) (List.nodup_dedup _)).2 fun id => by
      rw [List.mem_eraseDups, List.mem_dedup]
  rw [List.card_toFinset, ← hdedup.length_eq, ← h.ids, List.length_map]

end NodeTable

/-! ## Sizes -/

namespace Stats

/-- The number of nodes of a kind. -/
def nodesOf (stats : Stats) (kind : String) : ℕ := (stats.nodesByKind.lookup kind).getD 0

/-- The sizes of some rows. -/
def ofRows (nodes : List NodeRow) (edges : List EdgeRow) : Stats where
  totalNodes := nodes.length
  totalEdges := edges.length
  nodesByKind := Tables.tally (nodes.map NodeRow.kind)
  edgesByRelationship := Tables.tally (edges.map EdgeRow.relationship)

theorem nodesOf_ofRows (nodes : List NodeRow) (edges : List EdgeRow) (kind : String) :
    (ofRows nodes edges).nodesOf kind = (nodes.map NodeRow.kind).count kind :=
  (Tables.isTally_tally _).getD_lookup kind

/-- A node has become one of another kind. -/
structure Moves (stats stats' : Stats) (old new : String) : Prop where
  totalNodes : stats'.totalNodes = stats.totalNodes
  totalEdges : stats'.totalEdges = stats.totalEdges
  edgesByRelationship : stats'.edgesByRelationship = stats.edgesByRelationship
  gained : stats'.nodesOf new = stats.nodesOf new + 1
  lost : stats'.nodesOf old + 1 = stats.nodesOf old
  others (kind : String) : kind ≠ old → kind ≠ new → stats'.nodesOf kind = stats.nodesOf kind
  /-- The old kind is not listed any more if this was its last node. -/
  listed : old ∈ stats'.nodesByKind.map Prod.fst ↔ 1 < stats.nodesOf old

/-- A row of another kind that takes the place of a row moves a node. -/
theorem moves_put {table : NodeTable} {row old : NodeRow} (h : table.find? row.id = some old)
    (hne : old.kind ≠ row.kind) (edges : List EdgeRow) :
    (ofRows table.rows edges).Moves (ofRows (table.put row).rows edges) old.kind row.kind := by
  have hmoved (kind : String) : (ofRows (table.put row).rows edges).nodesOf kind +
      (if old.kind = kind then 1 else 0) =
        (ofRows table.rows edges).nodesOf kind + if row.kind = kind then 1 else 0 := by
    rw [nodesOf_ofRows, nodesOf_ofRows]
    exact NodeTable.count_kinds_put h kind
  have hgained := hmoved row.kind
  rw [if_neg hne, if_pos rfl] at hgained
  have hlost := hmoved old.kind
  rw [if_pos rfl, if_neg (Ne.symm hne)] at hlost
  refine ⟨NodeTable.length_put h, rfl, rfl, hgained, hlost, fun kind hold hnew => ?_, ?_⟩
  · have hother := hmoved kind
    rwa [if_neg (Ne.symm hold), if_neg (Ne.symm hnew)] at hother
  · have hlisted := (Tables.isTally_tally ((table.put row).rows.map NodeRow.kind)).mem_keys_iff
      old.kind
    rw [← nodesOf_ofRows _ edges] at hlisted
    exact hlisted.trans (by omega)

end Stats

/-- The sizes that are read are those of the rows. -/
theorem Session.stats_eq_ok {s : Session} {t : Tables} {nodes : NodeTable} {edges : EdgeTable}
    {stats : Stats} (h : s.workspace.tables? = some t) (hnodes : t.nodes = some nodes)
    (hedges : t.edges = some edges) (hstats : Session.stats.result s = .ok stats) :
    stats = .ofRows nodes.rows edges.rows := by
  have hvalue := query_eq_ok h hstats
  rw [Tables.stats_of_some hnodes hedges] at hvalue
  exact (Except.ok.inj hvalue).symm

/-- After any run from a database that has just been made, the sizes are read if the gate lets the
    request pass. There are as many nodes as identifiers under which the run has stored some, and
    as many edges as it has added. The kinds of the current nodes and the relationships of the
    edges are tallied, and their counts make up these numbers. If a node is then stored under an
    identifier whose node was of another kind, it moves from the one kind to the other. -/
theorem tallied_run {s : Session} (h : s.workspace.tables? = some Tables.empty.migrate.1)
    (calls : List Call) (hpass : ((s.run calls).gate.pass .getStats).2 = true) :
    ∃ stats, Session.stats.result (s.run calls) = .ok stats ∧
      stats.totalNodes = ((s.stored calls).map (·.node.id)).toFinset.card ∧
      stats.totalEdges = (s.additions calls).length ∧
      Tables.IsTally stats.nodesByKind ((currentNodes (s.stored calls)).map (·.node.kind)) ∧
      (stats.nodesByKind.map Prod.snd).sum = stats.totalNodes ∧
      Tables.IsTally stats.edgesByRelationship ((s.additions calls).map (·.edge.relationship)) ∧
      (stats.edgesByRelationship.map Prod.snd).sum = stats.totalEdges ∧
      ∀ (call : Call) (node : Node) (now : Instant) (old : Stored) (stats' : Stats),
        call.write? (s.run calls) = some (.putNode node now) →
        latest? node.id (s.stored calls) = some old → old.node.kind ≠ node.kind →
        Session.stats.result (call.after (s.run calls)) = .ok stats' →
        stats.Moves stats' old.node.kind node.kind := by
  obtain ⟨t, ht, nodes, hnodes, hrecords⟩ := Session.records_run h calls
  obtain ⟨t', edges, ht', hedges, hadditions⟩ := Session.rows_additions h calls
  obtain rfl := Option.some.inj (ht.symm.trans ht')
  have hkinds : nodes.rows.map NodeRow.kind =
      (currentNodes (s.stored calls)).map (·.node.kind) := by
    rw [hrecords.rows, List.map_map]
    rfl
  have hrelationships : edges.rows.map EdgeRow.relationship =
      (s.additions calls).map (·.edge.relationship) := by
    rw [hadditions, List.map_map]
    rfl
  have hnodeTally := Tables.isTally_tally (nodes.rows.map NodeRow.kind)
  have hedgeTally := Tables.isTally_tally (edges.rows.map EdgeRow.relationship)
  refine ⟨.ofRows nodes.rows edges.rows, ?_, hrecords.length_rows, ?_, hkinds ▸ hnodeTally, ?_,
    hrelationships ▸ hedgeTally, ?_, fun call node now old stats' hwrite hold hne hstats' => ?_⟩
  · rw [Session.stats, Session.query_of_pass ht hpass, Tables.stats_of_some hnodes hedges]
    rfl
  · exact (congrArg List.length hadditions).trans (List.length_map _)
  · exact hnodeTally.sum_eq.trans (List.length_map _)
  · exact hedgeTally.sum_eq.trans (List.length_map _)
  · -- The call replaces the row of the old node in tables that are up to date.
    have hcurrent : t.IsCurrent := by
      obtain rfl := Option.some.inj (ht.symm.trans (Session.tables?_run h .fresh calls))
      exact Tables.IsCurrent.fresh.foldl_apply _
    have hafter := call.tables?_after ht hcurrent
    rw [hwrite] at hafter
    obtain ⟨nodes', edges', index, rfl⟩ := hcurrent
    obtain rfl : nodes' = nodes := Option.some.inj hnodes
    obtain rfl : edges' = edges := Option.some.inj hedges
    obtain rfl := Session.stats_eq_ok hafter rfl rfl hstats'
    have hfind : nodes'.find? (NodeRow.ofNode node now).id = some old.row := by
      rw [hrecords.find?]
      exact congrArg (Option.map Stored.row) hold
    exact Stats.moves_put hfind hne _

/-- Two nodes are stored, with an edge between them that is added twice. -/
def Session.labels : List Call :=
  let node (id kind : String) : Node := ⟨id, kind, id, none, none, none, .epoch⟩
  [.upsert (fun _ => none) (node "a" "file") .epoch, .addEdge ⟨"a", "b", "uses", none⟩,
    .upsert (fun _ => none) (node "b" "note") .epoch, .addEdge ⟨"a", "b", "uses", none⟩]

/-- The second one is stored again, as a node of the kind of the first one. -/
def Session.relabel : Call :=
  .upsert (fun _ => none) ⟨"b", "file", "b", none, none, none, .epoch⟩ .epoch

theorem tallied_run_relabel :
    (Session.ofTables .fresh).workspace.tables? = some Tables.empty.migrate.1 ∧
      (((Session.ofTables .fresh).run Session.labels).gate.pass .getStats).2 = true ∧
      ∃ stats stats',
        Session.stats.result ((Session.ofTables .fresh).run Session.labels) = .ok stats ∧
        Session.stats.result ((Session.ofTables .fresh).run (Session.labels ++ [Session.relabel])) =
          .ok stats' ∧
        stats.totalNodes = 2 ∧ stats.totalEdges = 2 ∧ stats.nodesOf "note" = 1 ∧
        stats.Moves stats' "note" "file" := by
  obtain ⟨stats, hstats, hnodes, hedges, htally, -, -, -, hmoves⟩ :=
    tallied_run (s := .ofTables .fresh) rfl Session.labels rfl
  obtain ⟨stats', hstats', -⟩ :=
    tallied_run (s := .ofTables .fresh) rfl (Session.labels ++ [Session.relabel]) rfl
  refine ⟨rfl, rfl, stats, stats', hstats, hstats', hnodes, hedges, htally.getD_lookup "note",
    hmoves Session.relabel _ _ _ stats' rfl rfl (by decide) ?_⟩
  rw [Session.run, List.foldl_append] at hstats'
  exact hstats'

end Ripple
