import Ripple.Proofs.Impact.Deepen
import Ripple.Proofs.Session.Serving

/-!
# When an analysis fails

A search asks for the node of each identifier that it visits, and for the edges of a stored
node that it visits before the bound. At the end it has visited what lies within the bound,
so it fails if and only if something that it asks for there fails
(`Impact.analyze_error_iff`). On the way this is an invariant: whatever has been visited
could be read (`Walk.Known`), and where a visit fails the identifier is at its distance.

In a database this is about rows. An analysis fails if and only if some row that lies near
enough cannot be read (`Tables.Unreadable`). If it does not fail, its report is that of any
other database with the same rows, whatever their metadata and timestamps
(`analyze_error_iff_unreadable`).
-/

namespace Ripple.Impact

variable {ε : Type} {source source' : Source (Except ε)} {g : Graph} {path : String}
  {depth : UInt32}

/-- A node within some hops of a file cannot be read, or the edges of a stored node nearer
    than that. -/
inductive Source.FailsWithin (source : Source (Except ε)) (g : Graph) (path : String)
    (depth : ℕ) : Prop
  | node {id : String} {k : ℕ} : g.Hops path id k → k ≤ depth →
      (∃ e, source.node? id = .error e) → FailsWithin source g path depth
  | edges {id : String} {k : ℕ} : g.Stored id → g.Hops path id k → k < depth →
      (∃ e, source.edgesOf id = .error e) → FailsWithin source g path depth

namespace Walk

variable {id : String} {level : UInt32} {rest : List (String × UInt32)} {w w' : Walk}

/-- A visit fails if and only if what it asks for does: the node, and the edges of a stored
    node before the bound. -/
theorem exists_visit_error_iff (hs : source.Reads g) (hle : level.toNat ≤ depth.toNat)
    (hv : id ∉ w.visited) : (∃ e, visit source depth id level w = .error e) ↔
      (∃ e, source.node? id = .error e) ∨
        g.Stored id ∧ level.toNat < depth.toNat ∧ ∃ e, source.edgesOf id = .error e := by
  rw [visit, if_neg (not_or.2 ⟨not_gt_of_toNat_le hle, hv⟩)]
  cases hnode : source.node? id with
  | error e => exact iff_of_true ⟨e, rfl⟩ (.inl ⟨e, rfl⟩)
  | ok node =>
    have hfile := hs.node? hnode
    cases node with
    | none =>
      have hstored : ¬g.Stored id := Graph.file?_eq_none_iff.1 hfile.symm
      simp [hstored, pure, Except.pure]
    | some node =>
      have hstored : g.Stored id := Graph.stored_of_file? hfile.symm
      by_cases hlast : level = depth
      · simp [hlast, pure, Except.pure]
      · have hlt := toNat_lt_of_ne hle hlast
        cases source.edgesOf id <;> simp [hlast, hstored, hlt, pure, Except.pure]

/-- Whatever has been visited could be read, and its edges if it lies before the bound. -/
structure Known (source : Source (Except ε)) (g : Graph) (path : String) (depth : ℕ)
    (w : Walk) : Prop where
  node? : ∀ id ∈ w.visited, ∃ node, source.node? id = .ok node
  edgesOf : ∀ id ∈ w.visited, g.Stored id → ∀ k < depth, g.Hops path id k →
    ∃ edges, source.edgesOf id = .ok edges

theorem Known.start (seeds : List Node) :
    Known source g path depth.toNat (.start seeds) :=
  ⟨fun _ h => absurd h List.not_mem_nil, fun _ h => absurd h List.not_mem_nil⟩

/-- A visit that succeeds keeps known what has been visited. -/
theorem Known.visit (hk : Known source g path depth.toNat w) (hs : source.Reads g)
    (h : Inv g path depth w) (hq : w.queue = (id, level) :: rest)
    (hvisit : visit source depth id level { w with queue := rest } = .ok w') :
    Known source g path depth.toNat w' := by
  have hle := h.head_le hq
  obtain rfl := visit_eq_step hs hvisit
  by_cases hv : id ∈ w.visited
  · rw [step_of_mem (by exact hv)]
    exact ⟨hk.node?, hk.edgesOf⟩
  have hread : ¬((∃ e, source.node? id = .error e) ∨
      g.Stored id ∧ level.toNat < depth.toNat ∧ ∃ e, source.edgesOf id = .error e) := by
    rw [← exists_visit_error_iff (w := { w with queue := rest }) hs hle hv, hvisit]
    simp
  simp only [exists_error_iff, not_or, not_and, not_not] at hread
  have hvisited := (step_of_not_mem (g := g) (w := { w with queue := rest }) hle hv).1
  constructor
  · intro x hx
    rcases List.mem_cons.1 (hvisited ▸ hx) with rfl | hx
    · exact hread.1
    · exact hk.node? x hx
  · intro x hx hstored k hlt hhops
    rcases List.mem_cons.1 (hvisited ▸ hx) with rfl | hx
    · -- It is taken at its distance, so that its edges are asked for.
      rw [hhops.unique (h.hops_head hq hv)] at hlt
      exact hread.2 hstored hlt
    · exact hk.edgesOf x hx hstored k hlt hhops

/-- A search that succeeds knows what it has visited. -/
theorem Known.run (hs : source.Reads g) {fuel : ℕ} (hk : Known source g path depth.toNat w)
    (h : Inv g path depth w) (hrun : run source depth fuel w = .ok w') :
    Known source g path depth.toNat w' := by
  obtain ⟨taken, hafter, -⟩ := After.start.of_run_eq_ok hrun
  clear hrun
  induction hafter with
  | start => exact hk
  | next hafter hq hvisit ih => exact ih.visit hs (hafter.inv hs h) hq hvisit

/-- A search that fails does so at something within the bound. -/
theorem failsWithin_of_run (hs : source.Reads g) {fuel : ℕ} {e : ε} (h : Inv g path depth w)
    (hrun : run source depth fuel w = .error e) : source.FailsWithin g path depth.toNat := by
  obtain ⟨_, w', id, level, rest, hafter, hq, hvisit⟩ := After.start.of_run_eq_error hrun
  have hinv := hafter.inv hs h
  have hle := hinv.head_le hq
  have hv : id ∉ w'.visited := fun hv => by
    rw [visit, if_pos (.inr hv)] at hvisit
    cases hvisit
  -- The visit that fails is the first one, which is made at the distance of the node.
  have hhops := hinv.hops_head hq hv
  rcases (exists_visit_error_iff (w := { w' with queue := rest }) hs hle hv).1 ⟨e, hvisit⟩
    with hnode | ⟨hstored, hlt, hedges⟩
  · exact .node hhops hle hnode
  · exact .edges hstored hhops hlt hedges

/-- Searches of the same graph come to the same end, unless they fail. -/
theorem run_unique (hs : source.Reads g) (hs' : source'.Reads g) {fuel : ℕ} {r r' : Walk}
    (h : run source depth fuel w = .ok r) (h' : run source' depth fuel w = .ok r') : r = r' := by
  induction fuel generalizing w with
  | zero => exact (Except.ok.inj h).symm.trans (Except.ok.inj h')
  | succ fuel ih =>
    cases hq : w.queue with
    | nil =>
      simp only [run, hq] at h h'
      exact (Except.ok.inj h).symm.trans (Except.ok.inj h')
    | cons head rest =>
      simp only [run, hq] at h h'
      obtain ⟨next, hvisit, h⟩ := bind_eq_ok.1 h
      obtain ⟨next', hvisit', h'⟩ := bind_eq_ok.1 h'
      obtain rfl := visit_eq_step hs hvisit
      obtain rfl := visit_eq_step hs' hvisit'
      exact ih h h'

end Walk

variable {edgeCount : ℕ} {report report' : Report}

/-- An analysis fails if and only if the nodes of the file cannot be read or something within
    the bound cannot. -/
theorem analyze_error_iff (hs : source.Reads g) (hedges : g.edges.length ≤ edgeCount) :
    (∃ e, analyze source edgeCount path depth = .error e) ↔
      (∃ e, source.nodesAt path = .error e) ∨ source.FailsWithin g path depth.toNat := by
  constructor
  · rintro ⟨e, h⟩
    cases hseeds : source.nodesAt path with
    | error e => exact .inl ⟨e, rfl⟩
    | ok seeds =>
      rw [analyze, hseeds, ok_bind] at h
      cases hrun : Walk.run source depth (seeds.length + 2 * edgeCount) (.start seeds) with
      | error e => exact .inr (Walk.failsWithin_of_run hs (.start (hs.nodesAt hseeds)) hrun)
      | ok w =>
        rw [hrun] at h
        cases h
  · refine fun hfails => exists_error_iff.2 ?_
    rintro ⟨report, h⟩
    obtain ⟨seeds, hseeds, h⟩ := bind_eq_ok.1 h
    obtain ⟨w, hrun, -⟩ := bind_eq_ok.1 h
    have hbudget := Walk.budget_start_le (g := g) seeds
    have hstart := hs.nodesAt hseeds
    obtain ⟨hinv, -, hq⟩ := Walk.run_ok hs (.start hstart) (.start seeds) (by omega) hrun
    -- All that lies within the bound has been visited, and so it could be read.
    have hknown := (Walk.Known.start seeds).run hs (.start hstart) hrun
    have hvisited {id : String} {k : ℕ} (hhops : g.Hops path id k) (hk : k ≤ depth.toNat) :
        id ∈ w.visited := (hinv.mem_visited_iff hq).2 ⟨k, hk, hhops.1⟩
    rcases hfails with hfails | hfails
    · exact exists_error_iff.1 hfails ⟨seeds, hseeds⟩
    · cases hfails with
      | node hhops hk hnode => exact exists_error_iff.1 hnode (hknown.node? _ (hvisited hhops hk))
      | edges hstored hhops hk hedges =>
        exact exists_error_iff.1 hedges
          (hknown.edgesOf _ (hvisited hhops hk.le) hstored _ hk hhops)

/-- Analyses of the same graph have the same report, unless they fail. -/
theorem analyze_unique (hs : source.Reads g) (hs' : source'.Reads g)
    (h : analyze source edgeCount path depth = .ok report)
    (h' : analyze source' edgeCount path depth = .ok report') : report = report' := by
  obtain ⟨seeds, hseeds, h⟩ := bind_eq_ok.1 h
  obtain ⟨w, hrun, h⟩ := bind_eq_ok.1 h
  obtain ⟨seeds', hseeds', h'⟩ := bind_eq_ok.1 h'
  obtain ⟨w', hrun', h'⟩ := bind_eq_ok.1 h'
  have hids : seeds.map Node.id = seeds'.map Node.id :=
    (hs.nodesAt hseeds).trans (hs'.nodesAt hseeds').symm
  have hlength : seeds.length = seeds'.length := by simpa using congrArg List.length hids
  have hstart : Walk.start seeds = Walk.start seeds' := by
    rw [Walk.start_eq, Walk.start_eq, hids]
  rw [hlength, hstart] at hrun
  obtain rfl := Walk.run_unique hs hs' hrun hrun'
  exact (Except.ok.inj h).symm.trans (Except.ok.inj h')

end Ripple.Impact

namespace Ripple

/-! ## Rows -/

/-- A row without the texts that have to be read. -/
def NodeRow.bare (row : NodeRow) : NodeRow := { row with metadata := none, updatedAt := "" }

/-- A row without the text that has to be read. -/
def EdgeRow.bare (row : EdgeRow) : EdgeRow := { row with metadata := none }

/-- Graphs whose rows differ in nothing but metadata and timestamps. -/
structure Graph.Resembles (g g' : Graph) : Prop where
  nodes : g.nodes.map NodeRow.bare = g'.nodes.map NodeRow.bare
  edges : g.edges.map EdgeRow.bare = g'.edges.map EdgeRow.bare

namespace Graph.Resembles

variable {g g' : Graph}

theorem file? (h : g.Resembles g') (id : String) : g.file? id = g'.file? id := by
  have hbare (g : Graph) : g.file? id =
      ((g.nodes.map NodeRow.bare).find? (·.id = id)).map NodeRow.filePath := by
    rw [List.find?_map, Option.map_map]
    rfl
  rw [hbare g, hbare g', h.nodes]

theorem seeds (h : g.Resembles g') (path : String) : g.seeds path = g'.seeds path := by
  have hbare (g : Graph) : g.seeds path =
      ((g.nodes.map NodeRow.bare).filter (·.filePath = some path)).map NodeRow.id := by
    rw [List.filter_map, List.map_map]
    rfl
  rw [hbare g, hbare g', h.nodes]

theorem neighbors (h : g.Resembles g') (id : String) : g.neighbors id = g'.neighbors id := by
  have hbare (g : Graph) : g.neighbors id =
      ((g.edges.map EdgeRow.bare).filter (·.touches id)).map (·.neighborOf id) := by
    rw [List.filter_map, List.map_map]
    rfl
  rw [hbare g, hbare g', h.edges]

/-- What reads a graph reads any other that resembles it. -/
theorem reads {ε : Type} {source : Impact.Source (Except ε)} (h : g.Resembles g')
    (hs : source.Reads g) : source.Reads g' where
  nodesAt hnodes := (hs.nodesAt hnodes).trans (h.seeds _)
  node? hnode := (hs.node? hnode).trans (h.file? _)
  edgesOf hedges := (hs.edgesOf hedges).trans (h.neighbors _)

theorem length_edges (h : g.Resembles g') : g.edges.length = g'.edges.length := by
  simpa using congrArg List.length h.edges

end Graph.Resembles

namespace Tables

variable {t : Tables} {nodes : NodeTable} {edges : EdgeTable} {id path : String}

theorem exists_nodesAt_error_iff (h : t.nodes = some nodes) :
    (∃ e, t.nodesAt path = .error e) ↔
      ∃ row ∈ t.graph.nodes, row.filePath = some path ∧ ∃ e, row.decode = .error e := by
  simp only [exists_error_iff, exists_nodesAt_iff h, graph_nodes h, not_forall, exists_prop]

theorem exists_node?_error_iff (h : t.nodes = some nodes) :
    (∃ e, t.node? id = .error e) ↔
      ∃ row ∈ t.graph.nodes, row.id = id ∧ ∃ e, row.decode = .error e := by
  simp only [exists_error_iff, exists_node?_iff h, graph_nodes h, not_forall, exists_prop]

theorem exists_edgesOf_error_iff (h : t.edges = some edges) :
    (∃ e, t.edgesOf id = .error e) ↔
      ∃ edge ∈ t.graph.edges, edge.touches id ∧ ∃ e, edge.decode = .error e := by
  simp only [exists_error_iff, exists_edgesOf_iff h, graph_edges h, not_forall, exists_prop]

/-- A row that an analysis needs cannot be read: that of a node of the file, that of an
    identifier within the bound, or that of an edge of a stored node nearer than that. -/
inductive Unreadable (t : Tables) (path : String) (depth : ℕ) : Prop
  | seed {row : NodeRow} : row ∈ t.graph.nodes → row.filePath = some path →
      (∃ e, row.decode = .error e) → Unreadable t path depth
  | node {row : NodeRow} {k : ℕ} : row ∈ t.graph.nodes → t.graph.Hops path row.id k →
      k ≤ depth → (∃ e, row.decode = .error e) → Unreadable t path depth
  | edge {edge : EdgeRow} {id : String} {k : ℕ} : edge ∈ t.graph.edges → edge.touches id →
      t.graph.Stored id → t.graph.Hops path id k → k < depth → (∃ e, edge.decode = .error e) →
      Unreadable t path depth

/-- An analysis of tables fails if and only if a row that it needs cannot be read. -/
theorem exists_analyze_error_iff (hnodes : t.nodes.isSome) (hedges : t.edges.isSome)
    (path : String) (depth : UInt32) :
    (∃ e, t.analyze path depth = .error e) ↔ t.Unreadable path depth.toNat := by
  obtain ⟨nodes, hnodes⟩ := Option.isSome_iff_exists.1 hnodes
  obtain ⟨edges, hedges⟩ := Option.isSome_iff_exists.1 hedges
  rw [Tables.analyze, Impact.analyze_error_iff t.source_reads t.edgeCount_eq.ge]
  constructor
  · rintro (hseeds | hfails)
    · obtain ⟨row, hrow, hfile, hdecode⟩ := (exists_nodesAt_error_iff hnodes).1 hseeds
      exact .seed hrow hfile hdecode
    · cases hfails with
      | node hhops hk hnode =>
        obtain ⟨row, hrow, rfl, hdecode⟩ := (exists_node?_error_iff hnodes).1 hnode
        exact .node hrow hhops hk hdecode
      | edges hstored hhops hk hedge =>
        obtain ⟨edge, hedge, htouches, hdecode⟩ := (exists_edgesOf_error_iff hedges).1 hedge
        exact .edge hedge htouches hstored hhops hk hdecode
  · rintro (⟨hrow, hfile, hdecode⟩ | ⟨hrow, hhops, hk, hdecode⟩ |
      ⟨hedge, htouches, hstored, hhops, hk, hdecode⟩)
    · exact .inl ((exists_nodesAt_error_iff hnodes).2 ⟨_, hrow, hfile, hdecode⟩)
    · exact .inr (.node hhops hk ((exists_node?_error_iff hnodes).2 ⟨_, hrow, rfl, hdecode⟩))
    · exact .inr (.edges hstored hhops hk
        ((exists_edgesOf_error_iff hedges).2 ⟨_, hedge, htouches, hdecode⟩))

end Tables

variable {s : Session} {t : Tables}

/-- An analysis fails if and only if a row that it needs cannot be read. If it does not fail,
    it reports all files within the bound and no other, and so does an analysis of any tables
    with the same rows, whatever their metadata and timestamps, unless that fails. -/
theorem analyze_error_iff_unreadable (hs : s.Serves t) (hnodes : t.nodes.isSome)
    (hedges : t.edges.isSome) (path : String) (depth : UInt32) :
    ((∃ e, (Session.analyze path depth).result s = .error e) ↔ t.Unreadable path depth.toNat) ∧
      ∀ report, (Session.analyze path depth).result s = .ok report →
        (∀ file, file ∈ report.files ↔
          ∃ k ≤ depth.toNat, ∃ id, t.graph.Reaches path k id ∧ t.graph.Carries id file) ∧
        ∀ s' t' report', s'.Serves t' → t'.graph.Resembles t.graph →
          (Session.analyze path depth).result s' = .ok report' → report' = report := by
  simp only [(Session.analyze_answers path depth s hs).1]
  refine ⟨Tables.exists_analyze_error_iff hnodes hedges path depth, fun report hreport =>
    ⟨fun file => Impact.mem_files_iff t.source_reads t.edgeCount_eq.ge hreport, ?_⟩⟩
  intro s' t' report' hs' hsame hreport'
  rw [(Session.analyze_answers path depth s' hs').1, Tables.analyze] at hreport'
  rw [t'.edgeCount_eq, hsame.length_edges, ← t.edgeCount_eq] at hreport'
  exact Impact.analyze_unique (hsame.reads t'.source_reads) t.source_reads hreport' hreport

/-- A chain of three nodes. The timestamp of the last one cannot be read, nor can the metadata
    of the edge to it. -/
def Tables.torn : Tables where
  nodes := some {
    rows :=
      [⟨"a", "file", "a.rs", some "a.rs", none, none, Instant.epoch.columnText⟩,
        ⟨"b", "file", "b.rs", some "b.rs", none, none, Instant.epoch.columnText⟩,
        ⟨"c", "file", "c.rs", some "c.rs", none, none, "never"⟩]
    byFile := true
    byKind := true
    distinct := by decide }
  edges := some {
    rows := [⟨1, "a", "b", "uses", none⟩, ⟨2, "b", "c", "uses", some "["⟩]
    lastId := 2
    bySource := true
    byTarget := true }
  index := some []
  versions := some [1, 2]

/-- One hop away nothing is torn, and two hops away something is. -/
theorem analyze_error_iff_unreadable_torn :
    (Session.ofTables .torn).Serves .torn ∧ Tables.torn.nodes.isSome ∧ Tables.torn.edges.isSome ∧
      (Session.analyze "a.rs" 1).result (.ofTables .torn) =
        .ok ⟨"a.rs", 1, ["a.rs", "b.rs"]⟩ ∧
      ¬Tables.torn.Unreadable "a.rs" 1 ∧ Tables.torn.Unreadable "a.rs" 2 ∧
      ∀ s t report, s.Serves t → t.graph.Resembles Tables.torn.graph →
        (Session.analyze "a.rs" 1).result s = .ok report →
        report = ⟨"a.rs", 1, ["a.rs", "b.rs"]⟩ := by
  have hs := Session.ofTables_serves .torn
  have hone : (Session.analyze "a.rs" 1).result (.ofTables .torn) =
      .ok ⟨"a.rs", 1, ["a.rs", "b.rs"]⟩ := by
    decide
  have htwo : ∃ e, (Session.analyze "a.rs" 2).result (.ofTables .torn) = .error e := ⟨_, rfl⟩
  obtain ⟨hiff, hreport⟩ := analyze_error_iff_unreadable hs rfl rfl "a.rs" 1
  refine ⟨hs, rfl, rfl, hone, fun h => ?_, ?_, (hreport _ hone).2⟩
  · exact exists_error_iff.1 (hiff.2 h) ⟨_, hone⟩
  · exact (analyze_error_iff_unreadable hs rfl rfl "a.rs" 2).1.1 htwo

end Ripple
