import Ripple.Proofs.Impact.Deepen
import Ripple.Proofs.Session.Serving

/-!
# What an analysis reports

On tables whose rows can all be read an analysis succeeds, and reports the files of the
nodes at the end of walks within its bound, each once (`mem_files_analyze_iff_reaches`).
Walks lead either way, so one file is within the bound of another if and only if that one
is within the bound of the first (`contains_analyze_comm`).

On any tables an analysis that succeeds lists the files in the order of their distances,
and any shallower one lists those among them that lie near enough
(`analyze_prefix_of_le`).
-/

namespace Ripple

/-- Tables in which all rows of nodes and edges can be read. -/
structure Tables.Readable (t : Tables) : Prop where
  nodes : ∃ table, t.nodes = some table ∧ ∀ row ∈ table.rows, ∃ node, row.decode = .ok node
  edges : ∃ table, t.edges = some table ∧ ∀ row ∈ table.rows, ∃ edge, row.decode = .ok edge

namespace Tables.Readable

variable {t : Tables}

theorem nodesAt (h : t.Readable) (path : String) : ∃ nodes, t.nodesAt path = .ok nodes := by
  obtain ⟨table, htable, hrows⟩ := h.nodes
  exact (exists_nodesAt_iff htable).2 fun row hrow _ => hrows row hrow

theorem node? (h : t.Readable) (id : String) : ∃ node, t.node? id = .ok node := by
  obtain ⟨table, htable, hrows⟩ := h.nodes
  exact (exists_node?_iff htable).2 fun row hrow _ => hrows row hrow

theorem edgesOf (h : t.Readable) (id : String) : ∃ edges, t.edgesOf id = .ok edges := by
  obtain ⟨table, htable, hrows⟩ := h.edges
  exact (exists_edgesOf_iff htable).2 fun row hrow _ => hrows row hrow

theorem stats (h : t.Readable) : ∃ stats, t.stats = .ok stats := by
  obtain ⟨nodes, hnodes, -⟩ := h.nodes
  obtain ⟨edges, hedges, -⟩ := h.edges
  exact ⟨_, stats_of_some hnodes hedges⟩

theorem decode_node (h : t.Readable) {row : NodeRow} (hrow : row ∈ t.graph.nodes) :
    ∃ node, row.decode = .ok node := by
  obtain ⟨table, htable, hrows⟩ := h.nodes
  exact hrows row (graph_nodes htable ▸ hrow)

theorem decode_edge (h : t.Readable) {row : EdgeRow} (hrow : row ∈ t.graph.edges) :
    ∃ edge, row.decode = .ok edge := by
  obtain ⟨table, htable, hrows⟩ := h.edges
  exact hrows row (graph_edges htable ▸ hrow)

/-- Tables are readable if each node and the edges of each node can be read. -/
theorem of_reads (hnode : ∀ id, ∃ node, t.node? id = .ok node)
    (hedges : ∀ id, ∃ edges, t.edgesOf id = .ok edges) : t.Readable where
  nodes := by
    obtain ⟨_, hany⟩ := hnode ""
    obtain ⟨table, htable, -⟩ := node?_eq_ok.1 hany
    exact ⟨table, htable, fun row hrow => (exists_node?_iff htable).1 (hnode row.id) row hrow rfl⟩
  edges := by
    obtain ⟨_, hany⟩ := hedges ""
    obtain ⟨table, htable, -⟩ := edgesOf_eq_ok.1 hany
    refine ⟨table, htable, fun row hrow => ?_⟩
    -- A row is one of those of its source.
    exact (exists_edgesOf_iff htable).1 (hedges row.source) row hrow (by simp [EdgeRow.touches])

theorem analyze (h : t.Readable) (path : String) (depth : UInt32) :
    ∃ report, t.analyze path depth = .ok report := by
  obtain ⟨seeds, hseeds⟩ := h.nodesAt path
  obtain ⟨w, hw⟩ : ∃ w, Impact.Walk.run t.source depth (seeds.length + 2 * t.edgeCount)
      (.start seeds) = .ok w := Impact.Walk.run_total h.node? h.edgesOf _ _
  exact ⟨_, bind_eq_ok.2 ⟨seeds, hseeds, bind_eq_ok.2 ⟨w, hw, rfl⟩⟩⟩

end Tables.Readable

variable {s : Session} {t : Tables}

/-- On tables that can be read, an analysis reports the files of the nodes at the end of
    walks within its bound. -/
theorem mem_files_analyze_iff_reaches (hs : s.Serves t) (ht : t.Readable) (path : String)
    (depth : UInt32) :
    ∃ report, (Session.analyze path depth).result s = .ok report ∧ report.files.Nodup ∧
      ∀ file, file ∈ report.files ↔
        ∃ k ≤ depth.toNat, ∃ id, t.graph.Reaches path k id ∧ t.graph.Carries id file := by
  obtain ⟨report, hreport⟩ := ht.analyze path depth
  have hedges : t.graph.edges.length ≤ t.edgeCount := t.edgeCount_eq.ge
  obtain ⟨w, _, hlisted, _, hw⟩ := Impact.analyze_ok t.source_reads hedges hreport
  refine ⟨report, ?_, ?_, fun file => Impact.mem_files_iff t.source_reads hedges hreport⟩
  · rw [(Session.analyze_answers path depth s hs).1, hreport]
  · rw [hw]
    exact hlisted.nodup

/-- A ring of three nodes, of which one has no file. An edge leads out of it to a fourth
    node, through an identifier that is no stored node. -/
def Tables.ring : Tables where
  nodes := some {
    rows :=
      [⟨"a", "file", "a.rs", some "a.rs", none, none, Instant.epoch.columnText⟩,
        ⟨"b", "concept", "b", none, none, none, Instant.epoch.columnText⟩,
        ⟨"c", "file", "c.rs", some "c.rs", none, none, Instant.epoch.columnText⟩,
        ⟨"d", "file", "d.rs", some "d.rs", none, none, Instant.epoch.columnText⟩]
    byFile := true
    byKind := true
    distinct := by decide }
  edges := some {
    rows :=
      [⟨1, "a", "b", "uses", none⟩, ⟨2, "b", "c", "uses", none⟩, ⟨3, "c", "a", "uses", none⟩,
        ⟨4, "a", "gone", "uses", none⟩, ⟨5, "gone", "d", "uses", none⟩]
    lastId := 5
    bySource := true
    byTarget := true }
  index := some []
  versions := some [1, 2]

theorem Tables.readStrict_epoch : Instant.readStrict Instant.epoch.columnText = .ok .epoch := by
  decide

theorem Tables.ring_readable : ring.Readable where
  nodes := ⟨_, rfl, by
    have hread (id kind name : String) (file : Option String) :
        ∃ node, NodeRow.decode ⟨id, kind, name, file, none, none, Instant.epoch.columnText⟩ =
          .ok node :=
      ⟨_, NodeRow.decode_eq_ok.2 ⟨none, .epoch, rfl, readStrict_epoch, rfl⟩⟩
    simp only [List.forall_mem_cons]
    exact ⟨hread _ _ _ _, hread _ _ _ _, hread _ _ _ _, hread _ _ _ _, by simp⟩⟩
  edges := ⟨_, rfl, by
    have hread (id : ℤ) (source target relationship : String) :
        ∃ edge, EdgeRow.decode ⟨id, source, target, relationship, none⟩ = .ok edge := ⟨_, rfl⟩
    simp only [List.forall_mem_cons]
    exact ⟨hread _ _ _ _, hread _ _ _ _, hread _ _ _ _, hread _ _ _ _, hread _ _ _ _, by simp⟩⟩

theorem mem_files_analyze_iff_reaches_ring :
    (Session.ofTables .ring).Serves .ring ∧ Tables.ring.Readable ∧
      ∃ report, (Session.analyze "a.rs" 2).result (.ofTables .ring) = .ok report ∧
        report.files.Nodup ∧ ∀ file, file ∈ report.files ↔
          ∃ k ≤ 2, ∃ id, Tables.ring.graph.Reaches "a.rs" k id ∧
            Tables.ring.graph.Carries id file :=
  ⟨Session.ofTables_serves _, Tables.ring_readable,
    mem_files_analyze_iff_reaches (Session.ofTables_serves _) Tables.ring_readable "a.rs" 2⟩

/-- On tables that can be read, two files are either both within a bound of each other or
    neither: whoever carries a file is stored, so that a walk from it can be walked back. -/
theorem contains_analyze_comm (hs : s.Serves t) (ht : t.Readable) (path other : String)
    (depth : UInt32) :
    ∃ report report', (Session.analyze path depth).result s = .ok report ∧
      (Session.analyze other depth).result s = .ok report' ∧
      (report.contains other ↔ report'.contains path) := by
  have hedges : t.graph.edges.length ≤ t.edgeCount := t.edgeCount_eq.ge
  obtain ⟨report, hreport⟩ := ht.analyze path depth
  obtain ⟨report', hreport'⟩ := ht.analyze other depth
  refine ⟨report, report', ?_, ?_, ?_⟩
  · rw [(Session.analyze_answers path depth s hs).1, hreport]
  · rw [(Session.analyze_answers other depth s hs).1, hreport']
  · rw [Report.contains, Report.contains, List.contains_iff_mem, List.contains_iff_mem,
      Impact.mem_files_iff t.source_reads hedges hreport,
      Impact.mem_files_iff t.source_reads hedges hreport']
    exact exists_congr fun k => and_congr_right fun _ => Graph.exists_reaches_comm

theorem contains_analyze_comm_ring :
    (Session.ofTables .ring).Serves .ring ∧ Tables.ring.Readable ∧
      ∃ report report', (Session.analyze "a.rs" 1).result (.ofTables .ring) = .ok report ∧
        (Session.analyze "c.rs" 1).result (.ofTables .ring) = .ok report' ∧
        (report.contains "c.rs" ↔ report'.contains "a.rs") :=
  ⟨Session.ofTables_serves _, Tables.ring_readable,
    contains_analyze_comm (Session.ofTables_serves _) Tables.ring_readable "a.rs" "c.rs" 1⟩

/-- A beginning of a list without repetitions is what it shares with the list. -/
theorem eq_filter_of_prefix {files files' : List String} {p : String → Bool}
    (hpre : files <+: files') (hnodup : files'.Nodup)
    (hp : ∀ file ∈ files', p file ↔ file ∈ files) : files = files'.filter p := by
  obtain ⟨rest, rfl⟩ := hpre
  have hin : files.filter p = files :=
    List.filter_eq_self.2 fun file hf => (hp file (List.mem_append_left _ hf)).2 hf
  have hout : rest.filter p = [] := List.filter_eq_nil_iff.2 fun file hf h =>
    (List.nodup_append.1 hnodup).2.2 file
      ((hp file (List.mem_append_right _ hf)).1 h) file hf rfl
  rw [List.filter_append, hin, hout, List.append_nil]

/-- The first of a list in the order of `hops` lies no farther than any other of it. -/
theorem exists_head?_le {files : List String} {hops : String → ℕ} {path : String}
    (hsorted : files.Pairwise (hops · ≤ hops ·)) (hmem : path ∈ files) :
    ∃ first ∈ files, files.head? = some first ∧ hops first ≤ hops path := by
  cases files with
  | nil => exact absurd hmem List.not_mem_nil
  | cons first rest =>
    refine ⟨first, List.mem_cons_self, rfl, ?_⟩
    rcases List.mem_cons.1 hmem with rfl | hrest
    · exact le_rfl
    · exact (List.pairwise_cons.1 hsorted).1 path hrest

/-- A shallower analysis succeeds where a deeper one does, and lists those of its files
    that lie near enough. They come first, as files are in the order of their distances. -/
theorem analyze_prefix_of_le (hs : s.Serves t) {path : String} {depth deeper : UInt32}
    (hle : depth ≤ deeper) {report' : Report}
    (h : (Session.analyze path deeper).result s = .ok report') :
    ∃ report, (Session.analyze path depth).result s = .ok report ∧
      report.files <+: report'.files ∧
      ∃ hops : String → ℕ, (∀ file ∈ report'.files, t.graph.FileHops path file (hops file)) ∧
        report.files = report'.files.filter (hops · ≤ depth.toNat) ∧
        report'.files.Pairwise (hops · ≤ hops ·) ∧
        ((∃ id, t.graph.Carries id path) → report.files.head? = some path) := by
  have hreads := t.source_reads
  have hedges : t.graph.edges.length ≤ t.edgeCount := t.edgeCount_eq.ge
  rw [(Session.analyze_answers path deeper s hs).1] at h
  obtain ⟨report, hreport, hpre⟩ :=
    Impact.analyze_deepen hreads (UInt32.le_iff_toNat_le.1 hle) h
  obtain ⟨w, _, hlisted, _, hw⟩ := Impact.analyze_ok hreads hedges h
  have hnodup : report'.files.Nodup := hw ▸ hlisted.nodup
  have hfiles : ∀ file ∈ report'.files, ∃ k, t.graph.FileHops path file k := fun file hf => by
    obtain ⟨k, _, id, hr, hc⟩ := (Impact.mem_files_iff hreads hedges h).1 hf
    obtain ⟨l, _, hl⟩ := hr.fileHops hc
    exact ⟨l, hl⟩
  -- A file has one distance at most, and listed ones have one.
  choose! hops hhops using hfiles
  have hfilter : report.files = report'.files.filter (hops · ≤ depth.toNat) := by
    refine eq_filter_of_prefix hpre hnodup fun file hf => ?_
    rw [decide_eq_true_iff, Impact.mem_files_iff hreads hedges hreport]
    obtain ⟨⟨id, hr, hc⟩, hleast⟩ := hhops file hf
    exact ⟨fun hk => ⟨_, hk, id, hr, hc⟩,
      fun ⟨k, hk, id, hr, hc⟩ => (hleast ⟨id, hr, hc⟩).trans hk⟩
  have hsorted : report'.files.Pairwise (hops · ≤ hops ·) := by
    have hall := (hw ▸ hlisted.sorted : report'.files.Pairwise fun a b => ∀ k l,
      t.graph.FileHops path a k → t.graph.FileHops path b l → k ≤ l)
    exact hall.imp_of_mem fun ha hb hab => hab _ _ (hhops _ ha) (hhops _ hb)
  refine ⟨report, ?_, hpre, hops, hhops, hfilter, hsorted, ?_⟩
  · rw [(Session.analyze_answers path depth s hs).1, Tables.analyze, hreport]
  · rintro ⟨id, hc⟩
    -- The file itself is listed, and the first of the list lies no farther.
    have hmem : path ∈ report.files :=
      (Impact.mem_files_iff hreads hedges hreport).2 ⟨0, Nat.zero_le _, id, .seed hc, hc⟩
    obtain ⟨first, hfirst, hhead, hnear⟩ :=
      exists_head?_le (hsorted.sublist hpre.sublist) hmem
    have hzero : hops path = 0 := (hhops path (hpre.subset hmem)).unique hc.fileHops
    have hhop := hhops first (hpre.subset hfirst)
    rw [show hops first = 0 by omega] at hhop
    rw [hhead, hhop.eq_of_zero]

theorem analyze_prefix_of_le_ring :
    (Session.ofTables .ring).Serves .ring ∧ (0 : UInt32) ≤ 1 ∧
      (Session.analyze "a.rs" 1).result (.ofTables .ring) = .ok ⟨"a.rs", 1, ["a.rs", "c.rs"]⟩ ∧
      ∃ report, (Session.analyze "a.rs" 0).result (.ofTables .ring) = .ok report ∧
        report.files <+: ["a.rs", "c.rs"] ∧
        ∃ hops : String → ℕ,
          (∀ file ∈ ["a.rs", "c.rs"], Tables.ring.graph.FileHops "a.rs" file (hops file)) ∧
          report.files = ["a.rs", "c.rs"].filter (hops · ≤ 0) ∧
          ["a.rs", "c.rs"].Pairwise (hops · ≤ hops ·) ∧
          ((∃ id, Tables.ring.graph.Carries id "a.rs") → report.files.head? = some "a.rs") := by
  have hs := Session.ofTables_serves .ring
  have h : (Session.analyze "a.rs" 1).result (.ofTables .ring) =
      .ok ⟨"a.rs", 1, ["a.rs", "c.rs"]⟩ := by
    decide
  exact ⟨hs, by decide, h, analyze_prefix_of_le hs (by decide) h⟩

end Ripple
