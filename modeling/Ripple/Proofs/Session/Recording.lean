import Ripple.Proofs.Impact.Deepen
import Ripple.Proofs.Session.Trail
import Ripple.Proofs.Session.Upserts
import Ripple.Proofs.Store.History
import Mathlib.Data.List.Induction

/-!
# Files that are recorded

To record a file is to store its node and then to analyze the file. If the node is not stored then
nothing happens. If it is stored then the tables differ in its rows alone, whatever becomes of the
analysis, and there is one node more unless it had been stored before. If the analysis succeeds as
well then its report is that of the tables that are left, and lists the file first
(`recordFile_stores`).

A file is called by the last segment of its path that is not empty (`Node.fileName_eq`).

An analysis can succeed though the gate refuses requests, since those that it makes may pass. What
succeeds is an analysis of the tables all the same (`Session.analyze_eq_ok`).
-/

namespace Ripple

/-! ## Names -/

/-- The last segment between slashes that is not empty, if there is one. -/
def Node.lastSegment? (cs : List Char) : Option (List Char) :=
  ((cs.splitOn '/').filter (· ≠ [])).getLast?

namespace Node

theorem lastSegment?_append_slash (cs : List Char) :
    lastSegment? (cs ++ ['/']) = lastSegment? cs := by
  rw [lastSegment?, List.splitOn, List.splitOnP_append_cons cs [] (by rfl), List.splitOnP_nil,
    List.filter_append]
  simp [lastSegment?, List.splitOn]

/-- A character that is no slash belongs to the last segment. -/
theorem lastSegment?_append_of_ne {c : Char} (h : c ≠ '/') (cs : List Char) :
    lastSegment? (cs ++ [c]) = some ((cs.reverse.takeWhile (· ≠ '/')).reverse ++ [c]) := by
  have hsingle {segment : List Char} (hsegment : ∀ d ∈ segment, d ≠ '/') :
      (segment ++ [c]).splitOnP (· == '/') = [segment ++ [c]] := by
    refine List.splitOnP_eq_singleton fun d hd => ?_
    rcases List.mem_append.1 hd with hd | hd
    · simpa using hsegment d hd
    · rw [List.mem_singleton.1 hd]
      simpa using h
  have hcs := List.takeWhile_append_dropWhile (p := fun d => decide (d ≠ '/')) (l := cs.reverse)
  rw [lastSegment?, List.splitOn]
  generalize hsegment : cs.reverse.takeWhile (· ≠ '/') = segment at hcs
  have hmem : ∀ d ∈ segment.reverse, d ≠ '/' := fun d hd => by
    rw [← hsegment, List.mem_reverse] at hd
    simpa using List.mem_takeWhile_imp hd
  -- Before the segment there is nothing, or a slash and what comes before that.
  cases hrest : cs.reverse.dropWhile (· ≠ '/') with
  | nil =>
    rw [hrest, List.append_nil] at hcs
    obtain rfl : cs = segment.reverse := List.reverse_eq_iff.1 hcs.symm
    rw [hsingle hmem]
    simp
  | cons slash rest =>
    obtain rfl : slash = '/' := by
      have hstop := List.head?_dropWhile_not (· ≠ '/') cs.reverse
      rw [hrest] at hstop
      simpa using hstop
    have hsplit : cs = rest.reverse ++ '/' :: segment.reverse := by
      rw [hrest] at hcs
      rw [← List.reverse_reverse cs, ← hcs]
      simp
    rw [hsplit, List.append_assoc, List.cons_append, List.splitOnP_append_cons _ _ (by rfl),
      hsingle hmem, List.filter_append]
    simp

/-- The last segment is what comes before the slashes at the end, back to the slash before it. -/
theorem lastSegment?_eq (cs : List Char) :
    lastSegment? cs = if cs.reverse.dropWhile (· = '/') = [] then none
      else some ((cs.reverse.dropWhile (· = '/')).takeWhile (· ≠ '/')).reverse := by
  induction cs using List.reverseRecOn with
  | nil => rfl
  | append_singleton cs c ih =>
    rw [List.reverse_append, List.reverse_singleton, List.singleton_append]
    by_cases hc : c = '/'
    · subst hc
      rw [lastSegment?_append_slash, ih, List.dropWhile_cons_of_pos (by simp)]
    · rw [lastSegment?_append_of_ne hc, List.dropWhile_cons_of_neg (by simpa using hc),
        if_neg (List.cons_ne_nil _ _), List.takeWhile_cons_of_pos (by simpa using hc),
        List.reverse_cons]

/-- A file is called by the last segment of its path that is not empty, or by its path. -/
theorem fileName_eq (path : String) :
    fileName path = ((lastSegment? path.toList).map String.ofList).getD path := by
  rw [fileName, lastSegment?_eq]
  split
  · rename_i hnone
    rw [if_pos hnone]
    rfl
  · rename_i hsome
    rw [if_neg hsome]
    rfl

end Node

/-! ## Analyses that succeed -/

/-- An action that leaves the tables as they are and gives nothing but what they give. -/
def Action.Gives {α : Type} (a : Action α) (t : Tables) (r : Except GraphError α) : Prop :=
  ∀ s : Session, s.workspace.tables? = some t →
    (a.after s).workspace.tables? = some t ∧ ∀ value, a.result s = .ok value → r = .ok value

theorem Action.composes_gives (t : Tables) :
    Impact.Composes fun α (a : Action α) (r : Except GraphError α) => a.Gives t r where
  pure _ _ hs := ⟨hs, fun _ h => h⟩
  bind {_ _ a _ f _} ha hf s hs := by
    obtain ⟨htables, hgives⟩ := ha s hs
    cases hresult : a.result s with
    | error e =>
      obtain ⟨h₁, h₂⟩ := bind_of_error hresult f
      rw [h₁, h₂]
      exact ⟨htables, nofun⟩
    | ok value =>
      obtain ⟨h₁, h₂⟩ := bind_of_ok hresult f
      rw [h₁, h₂, hgives value hresult]
      exact hf value _ htables

namespace Session

variable {s : Session} {t : Tables} {path content : String} {depth : UInt32} {now : Instant}

theorem query_gives {α : Type} (method : Method) (f : Tables → Except GraphError α) :
    (query method f).Gives t (f t) := fun s hs =>
  ⟨by rw [query_keeps method f s, hs], fun _ => query_eq_ok hs⟩

theorem source_gives (t : Tables) :
    Impact.Source.Relates (fun α (a : Action α) (r : Except GraphError α) => a.Gives t r) source
      t.source where
  nodesAt path := query_gives .findNodes (·.nodesAt path)
  node? id := query_gives .getNode (·.node? id)
  edgesOf id := query_gives .getEdges (·.edgesOf id)

/-- An analysis that succeeds is one of the tables, whatever the gate refuses. -/
theorem analyze_eq_ok (h : s.workspace.tables? = some t) {report : Report}
    (hreport : (analyze path depth).result s = .ok report) :
    t.analyze path depth = .ok report := by
  rw [analyze, (Action.get_bind _ s).1, edgeCount_eq h] at hreport
  exact ((Action.composes_gives t).analyze (source_gives t) t.edgeCount path depth s h).2 _ hreport

theorem analyzeImpact_result (path : String) (depth : Option UInt32) (now : Instant)
    (s : Session) : (analyzeImpact path depth now).result s =
      (analyze path (depth.getD s.defaultDepth)).result s := by
  rw [analyzeImpact, (Action.get_bind _ s).1]
  exact Action.noted_result _ _ s

/-- A node that is stored stands in the tables that are left, and the database is open. -/
theorem stores_of_upsertNode {node : Node} (h : (upsertNode node now).result s = .ok ()) :
    ∃ t', ((upsertNode node now).after s).workspace.tables? = some t' ∧
      s.workspace.contents.Stores node now t' := by
  by_cases hadmits : s.Admits fun _ => none
  · refine ⟨_, ?_, (upsertNodeUnless_of_admits hadmits node now).2⟩
    rw [Workspace.tables?_eq, if_pos]
    · rfl
    rw [upsertNode, upsertNodeUnless, (request_of_pass hadmits.passes).2]
    dsimp only
    rw [Workspace.write_eq, if_pos hadmits.isOpen, Workspace.isOpen_withTables]
    exact hadmits.isOpen
  · obtain ⟨⟨e, herror⟩, -⟩ := upsertNodeUnless_of_not_admits hadmits node now
    rw [← upsertNode, h] at herror
    cases herror

/-- A file whose node is not stored is not recorded, and nothing changes. -/
theorem recordFile_of_error {e : GraphError}
    (h : (upsertNode (.file path content now) now).result s = .error e) :
    (recordFile path content now).result s = .error e ∧
      ((recordFile path content now).after s).workspace.contents = s.workspace.contents := by
  have hrefused : ¬s.Admits fun _ => none := fun hadmits => by
    have hok := (upsertNodeUnless_of_admits hadmits (.file path content now) now).1
    rw [← upsertNode, h] at hok
    cases hok
  obtain ⟨hresult, hafter⟩ := Action.bind_of_error h fun _ => do
    note (.fileRecorded (Node.fileId path) path now)
    analyzeImpact path none now
  refine ⟨hresult, ?_⟩
  rw [recordFile, recordFileUnless]
  exact (congrArg (·.workspace.contents) hafter).trans
    (upsertNodeUnless_of_not_admits hrefused _ now).2

/-- A file is recorded only if its node is stored. -/
theorem upsertNode_of_recordFile {report : Report}
    (h : (recordFile path content now).result s = .ok report) :
    (upsertNode (.file path content now) now).result s = .ok () := by
  cases hresult : (upsertNode (.file path content now) now).result s with
  | error e =>
    rw [(recordFile_of_error hresult).1] at h
    cases h
  | ok value => rfl

/-- A file whose node is stored is analyzed with the tables that are left. -/
theorem recordFile_of_stored (h : (upsertNode (.file path content now) now).result s = .ok ()) :
    let after := ((recordFile path content now).after s).workspace.contents
    s.workspace.contents.Stores (.file path content now) now after ∧
      ∃ s', s'.workspace.tables? = some after ∧
        (recordFile path content now).result s = (analyze path s.defaultDepth).result s' := by
  intro after
  obtain ⟨t', ht', hstores⟩ := stores_of_upsertNode h
  obtain rfl : after = t' := by
    have hworkspace : ((recordFile path content now).after s).workspace =
        ((upsertNode (.file path content now) now).after s).workspace :=
      recordFileUnless_workspace
    exact (congrArg Workspace.contents hworkspace).trans (Workspace.contents_of_tables? ht')
  let stored := (upsertNode (.file path content now) now).after s
  have hdepth : stored.defaultDepth = s.defaultDepth := (request_adds .upsertNode _ s).defaults.1
  refine ⟨hstores, (note (.fileRecorded (Node.fileId path) path now)).after stored, ht', ?_⟩
  rw [recordFile, recordFileUnless, ← upsertNode, (Action.bind_of_ok h _).1, ← hdepth]
  exact analyzeImpact_result path none now _

end Session

namespace Impact

/-- An analysis of a file that some node carries lists the file first. -/
theorem head?_files {source : Source (Except GraphError)} {g : Graph} (hs : source.Reads g)
    {edgeCount : ℕ} (hedges : g.edges.length ≤ edgeCount) {path id : String} {depth : UInt32}
    {report : Report} (h : analyze source edgeCount path depth = .ok report)
    (hid : g.Carries id path) : report.files.head? = some path := by
  -- With no hop at all nothing but the file itself is listed, and that comes first.
  obtain ⟨nearest, hnearest, rest, hrest⟩ :
      ∃ nearest, analyze source edgeCount path 0 = .ok nearest ∧ nearest.files <+: report.files :=
    analyze_deepen hs (Nat.zero_le _) h
  have hmem : path ∈ nearest.files :=
    (mem_files_iff hs hedges hnearest).2 ⟨0, le_rfl, id, .seed hid, hid⟩
  have honly (file : String) (hfile : file ∈ nearest.files) : file = path := by
    obtain ⟨k, hk, other, hreaches, hcarries⟩ := (mem_files_iff hs hedges hnearest).1 hfile
    obtain rfl := Nat.le_zero.1 hk
    cases hreaches with
    | seed hseed => exact hcarries.unique hseed
  rw [← hrest]
  cases hfiles : nearest.files with
  | nil => simp [hfiles] at hmem
  | cons first others => rw [honly first (by simp [hfiles]), List.cons_append, List.head?_cons]

end Impact

/-! ## Tables in which a node has been stored -/

/-- The rows of a table are those of an identifier and those of the others. -/
theorem NodeTable.length_rows (table : NodeTable) (id : String) : table.rows.length =
    (table.rows.map NodeRow.id).count id + (table.rows.filter (·.id ≠ id)).length := by
  have hcount : (table.rows.map NodeRow.id).count id =
      (table.rows.filter (·.id = id)).length := by
    rw [List.count, List.countP_map, List.countP_eq_length_filter]
    rfl
  rw [hcount, List.length_eq_length_filter_add (fun row : NodeRow => row.id = id)]
  simp

namespace Tables.Stores

variable {node : Node} {now : Instant} {t t' : Tables}

theorem find? (h : t.Stores node now t') {nodes : NodeTable} (hnodes : t'.nodes = some nodes) :
    nodes.find? node.id = some (.ofNode node now) := by
  obtain ⟨_, after, -, hafter, hrow, -⟩ := h.nodes
  obtain rfl : after = nodes := Option.some.inj (hafter.symm.trans hnodes)
  rw [NodeTable.find?, ← List.head?_filter, hrow, List.head?_cons]

theorem exists_mem_rows (h : t.Stores node now t') :
    ∃ nodes, t'.nodes = some nodes ∧ .ofNode node now ∈ nodes.rows := by
  obtain ⟨_, nodes, -, hnodes, -⟩ := h.nodes
  exact ⟨nodes, hnodes, List.mem_of_find?_eq_some (h.find? hnodes)⟩

/-- The node is read from its row. -/
theorem getNode (h : t.Stores node now t') {s : Session} (hs : s.Serves t') :
    (Session.getNode node.id).result s = (NodeRow.ofNode node now).decode.map some := by
  obtain ⟨_, nodes, -, hnodes, -⟩ := h.nodes
  rw [Session.getNode, (Session.query_answers _ _ s hs).1, node?_of_some hnodes, h.find? hnodes]

theorem carries {path : String} (h : t.Stores node now t') (hpath : node.filePath = some path) :
    t'.graph.Carries node.id path := by
  obtain ⟨nodes, hnodes, hrow⟩ := h.exists_mem_rows
  exact ⟨_, graph_nodes hnodes ▸ hrow, rfl, hpath⟩

/-- The row of the node can be read if an analysis of its file succeeds, as that begins with the
    nodes of the file. -/
theorem exists_decode {path : String} {depth : UInt32} {report : Report}
    (h : t.Stores node now t') (hpath : node.filePath = some path)
    (hreport : t'.analyze path depth = .ok report) :
    ∃ read, (NodeRow.ofNode node now).decode = .ok read := by
  obtain ⟨nodes, hnodes, hrow⟩ := h.exists_mem_rows
  obtain ⟨seeds, hseeds, -⟩ := bind_eq_ok.1 hreport
  exact (exists_nodesAt_iff hnodes).1 ⟨seeds, hseeds⟩ _ hrow hpath

/-- There is one node more if it had not been stored before, and as many edges. -/
theorem stats (h : t.Stores node now t') {sizes : Stats} (hsizes : t.stats = .ok sizes) :
    ∃ sizes', t'.stats = .ok sizes' ∧ sizes'.totalEdges = sizes.totalEdges ∧
      (t.graph.Stored node.id → sizes'.totalNodes = sizes.totalNodes) ∧
      (¬t.graph.Stored node.id → sizes'.totalNodes = sizes.totalNodes + 1) := by
  obtain ⟨before, after, hbefore, hafter, -, hothers, -⟩ := h.nodes
  obtain ⟨edges, hedges⟩ : ∃ edges, t.edges = some edges := by
    obtain ⟨_, -, hrest⟩ := bind_eq_ok.1 hsizes
    obtain ⟨edges, hedges, -⟩ := bind_eq_ok.1 hrest
    exact ⟨edges, needEdges_eq_ok.1 (mapError_eq_ok.1 hedges)⟩
  rw [stats_of_some hbefore hedges] at hsizes
  obtain rfl := Except.ok.inj hsizes
  -- The node has one row now, and had one before if it was stored.
  have hone : (after.rows.map NodeRow.id).count node.id = 1 :=
    List.count_eq_one_of_mem after.distinct (List.mem_map_of_mem
      (List.mem_of_find?_eq_some (h.find? hafter)))
  have hlength := after.length_rows node.id
  rw [hone, hothers] at hlength
  have hlength' := before.length_rows node.id
  have hstored : t.graph.Stored node.id ↔ node.id ∈ before.rows.map NodeRow.id := by
    rw [Graph.Stored, graph_nodes hbefore, List.mem_map]
  refine ⟨_, stats_of_some hafter (h.edges.trans hedges), rfl, fun hold => ?_, fun hnew => ?_⟩
  · rw [List.count_eq_one_of_mem before.distinct (hstored.1 hold)] at hlength'
    exact hlength.trans hlength'.symm
  · rw [List.count_eq_zero_of_not_mem fun hmem => hnew (hstored.2 hmem)] at hlength'
    change after.rows.length = before.rows.length + 1
    omega

end Tables.Stores

/-- A file is not recorded if its node is not stored, and then nothing has changed. Once its node is
    stored, the node has its row and its row in the text index, and all other rows stand as they
    did, even if the analysis fails. The node is read as it was stored, and counted if it is new. If
    the analysis succeeds then the report has the depth of the configuration and lists the file
    first, and any analysis of the tables that are left gives the same. -/
theorem recordFile_stores {config : Config} {s : Session} (hs : s.Follows config)
    (path content : String) (now : Instant) :
    let name := ((Node.lastSegment? path.toList).map String.ofList).getD path
    let file : Node := ⟨"file:" ++ path, "file", name, some path, some content, none, now⟩
    let before := s.workspace.contents
    let after := ((Session.recordFile path content now).after s).workspace.contents
    (∀ e, (Session.upsertNode file now).result s = .error e →
      (Session.recordFile path content now).result s = .error e ∧ after = before) ∧
    ((Session.upsertNode file now).result s = .ok () → before.Stores file now after ∧
      ∀ s', s'.Serves after →
        (0 ≤ now.date.year ∧ now.date.year ≤ 9999 →
          (Session.getNode file.id).result s' = .ok (some file)) ∧
        ∀ s₀ sizes, s₀.Serves before → Session.stats.result s₀ = .ok sizes →
          ∃ sizes', Session.stats.result s' = .ok sizes' ∧
            sizes'.totalEdges = sizes.totalEdges ∧
            (before.graph.Stored file.id → sizes'.totalNodes = sizes.totalNodes) ∧
            (¬before.graph.Stored file.id → sizes'.totalNodes = sizes.totalNodes + 1)) ∧
    ∀ report, (Session.recordFile path content now).result s = .ok report →
      (Session.upsertNode file now).result s = .ok () ∧
      report.filePath = path ∧ report.depth = config.impact.maxDepth ∧
      report.files.head? = some path ∧
      ∀ s', s'.Serves after →
        (Session.analyze path config.impact.maxDepth).result s' = .ok report ∧
        ∃ updatedAt, (Session.getNode file.id).result s' = .ok (some { file with updatedAt }) := by
  intro name file before after
  obtain ⟨hdepth, -⟩ := hs
  have hfile : file = Node.file path content now := by
    rw [Node.file, Node.fileName_eq]
    rfl
  rw [hfile]
  refine ⟨fun e h => Session.recordFile_of_error h, fun h => ?_, fun report h => ?_⟩
  · obtain ⟨hstores, -⟩ := Session.recordFile_of_stored h
    refine ⟨hstores, fun s' hs' => ⟨fun hyear => ?_, fun s₀ sizes hs₀ hsizes => ?_⟩⟩
    · rw [hstores.getNode hs', NodeRow.decode_ofNode _ hyear]
      rfl
    · rw [Session.stats, (Session.query_answers _ _ s₀ hs₀).1] at hsizes
      rw [Session.stats, (Session.query_answers _ _ s' hs').1]
      exact hstores.stats hsizes
  · have hstored := Session.upsertNode_of_recordFile h
    obtain ⟨hstores, s', ht', hresult⟩ := Session.recordFile_of_stored hstored
    rw [hresult, hdepth] at h
    have hreport := Session.analyze_eq_ok ht' h
    have hhead := Impact.head?_files after.source_reads after.edgeCount_eq.ge hreport
      (hstores.carries rfl)
    obtain ⟨w, -, -, -, rfl⟩ := Impact.analyze_ok after.source_reads after.edgeCount_eq.ge hreport
    refine ⟨hstored, rfl, rfl, hhead, fun s'' hs'' => ⟨?_, ?_⟩⟩
    · rw [(Session.analyze_answers _ _ s'' hs'').1, hreport]
    · -- The analysis has read the node, and a file has no metadata.
      obtain ⟨read, hread⟩ := hstores.exists_decode rfl hreport
      obtain ⟨metadata, updatedAt, hmetadata, -, rfl⟩ := NodeRow.decode_eq_ok.1 hread
      obtain rfl : none = metadata := Except.ok.inj hmetadata
      refine ⟨updatedAt, ?_⟩
      rw [hstores.getNode hs'', hread]
      rfl

/-- The identifier of a file belongs to a note of another file, another node lies in the file, and
    an edge leads to the identifier. -/
def Tables.misfiled : Tables where
  nodes := some {
    rows :=
      [⟨"file:src/a.rs", "note", "old", some "b.rs", none, none, Instant.epoch.columnText⟩,
        ⟨"f", "function", "f", some "src/a.rs", none, none, Instant.epoch.columnText⟩,
        ⟨"g", "file", "c.rs", some "c.rs", none, none, Instant.epoch.columnText⟩]
    byFile := true
    byKind := true
    distinct := by decide }
  edges := some ⟨[⟨7, "g", "file:src/a.rs", "uses", none⟩], 7, true, true⟩
  index := some []
  versions := some [1, 2]

theorem recordFile_stores_misfiled :
    let config : Config := ⟨⟨":memory:", 1⟩, ⟨1⟩, ⟨1⟩⟩
    let s := Session.start config (Session.ofTables .misfiled).workspace
    let after := ((Session.recordFile "src/a.rs" "new" .epoch).after s).workspace.contents
    s.Follows config ∧
      (Session.recordFile "src/a.rs" "new" .epoch).result s =
        .ok ⟨"src/a.rs", 1, ["src/a.rs", "c.rs"]⟩ ∧
      Tables.misfiled.Stores
        ⟨"file:src/a.rs", "file", "a.rs", some "src/a.rs", some "new", none, .epoch⟩ .epoch after ∧
      ∀ s', s'.Serves after → (Session.analyze "src/a.rs" 1).result s' =
        .ok ⟨"src/a.rs", 1, ["src/a.rs", "c.rs"]⟩ := by
  intro config s after
  have hs : s.Follows config := Session.follows_start _ _
  have hresult : (Session.recordFile "src/a.rs" "new" .epoch).result s =
      .ok ⟨"src/a.rs", 1, ["src/a.rs", "c.rs"]⟩ := by decide +kernel
  have hname : ((Node.lastSegment? "src/a.rs".toList).map String.ofList).getD "src/a.rs" =
      "a.rs" := by
    decide
  obtain ⟨-, hstored, hreport⟩ := recordFile_stores hs "src/a.rs" "new" .epoch
  obtain ⟨hok, -, -, -, hanalyze⟩ := hreport _ hresult
  have hstores := (hstored hok).1
  rw [hname] at hstores
  exact ⟨hs, hresult, hstores, fun s' hs' => (hanalyze s' hs').1⟩

end Ripple
