import Ripple.Proofs.Impact.Reach
import Ripple.Proofs.Session.Reads
import Ripple.Proofs.Store.Log

/-!
# What can be read after a run

Whatever JSON value is attached to a node or an edge, it is stored. A value is printed at any
depth but it is read up to a limit, so a row whose metadata nest more deeply cannot be read, and
neither can what needs it. Nodes are replaced but edges are not: after a run all reads succeed
if and only if the metadata of the current nodes and of all edges that were ever stored keep to
the limit (`readable_run_iff`).
-/

namespace Ripple

/-- A session in which nodes, edges and sizes can be read and files can be analyzed, whatever
    they are. -/
structure Session.Readable (s : Session) : Prop where
  getNode (id : String) : ∃ node, (getNode id).result s = .ok node
  nodesAt (path : String) : ∃ nodes, (nodesAt path).result s = .ok nodes
  edgesOf (id : String) : ∃ edges, (edgesOf id).result s = .ok edges
  stats : ∃ sizes, stats.result s = .ok sizes
  analyze (path : String) (depth : UInt32) : ∃ report, (analyze path depth).result s = .ok report

variable {s : Session} {t : Tables} {past : List Stored} {edges : List NewEdge}

/-- All reads of a session succeed if and only if all rows can be read. -/
theorem Session.Serves.readable_iff (hs : s.Serves t) : s.Readable ↔ t.Readable := by
  have hnode (id : String) : (Session.getNode id).result s = t.node? id :=
    (query_answers _ _ s hs).1
  have hnodes (path : String) : (Session.nodesAt path).result s = t.nodesAt path :=
    (query_answers _ _ s hs).1
  have hedges (id : String) : (Session.edgesOf id).result s = t.edgesOf id :=
    (query_answers _ _ s hs).1
  have hstats : Session.stats.result s = t.stats := (query_answers _ _ s hs).1
  have hanalyze (path : String) (depth : UInt32) :
      (Session.analyze path depth).result s = t.analyze path depth :=
    (analyze_answers path depth s hs).1
  constructor
  · intro h
    refine .of_reads (fun id => ?_) fun id => ?_
    · rw [← hnode]
      exact h.getNode id
    · rw [← hedges]
      exact h.edgesOf id
  · intro h
    refine ⟨fun id => ?_, fun path => ?_, fun id => ?_, ?_, fun path depth => ?_⟩
    · rw [hnode]
      exact h.node? id
    · rw [hnodes]
      exact h.nodesAt path
    · rw [hedges]
      exact h.edgesOf id
    · rw [hstats]
      exact h.stats
    · rw [hanalyze]
      exact h.analyze path depth

/-- All rows can be read if and only if the metadata of the current nodes and of the edges do not
    nest too deeply. -/
theorem Tables.readable_iff (hnodes : t.Records past) (hedges : t.Logs edges)
    (hyear : ∀ u ∈ past, 0 ≤ u.now.date.year ∧ u.now.date.year ≤ 9999)
    (hsound : ∀ u ∈ past, ∀ value ∈ u.node.metadata, value.Sound)
    (hsoundEdges : ∀ edge ∈ edges, ∀ value ∈ edge.metadata, value.Sound) :
    t.Readable ↔
      (∀ u ∈ currentNodes past, ∀ value ∈ u.node.metadata, value.depth ≤ Json.depthLimit) ∧
        ∀ edge ∈ edges, ∀ value ∈ edge.metadata, value.depth ≤ Json.depthLimit := by
  obtain ⟨table, htable, hrecords⟩ := hnodes
  obtain ⟨log, hlog, hlogs⟩ := hedges
  have hnodeRows : (∀ row ∈ table.rows, ∃ node, row.decode = .ok node) ↔
      ∀ u ∈ currentNodes past, ∀ value ∈ u.node.metadata, value.depth ≤ Json.depthLimit := by
    rw [hrecords.rows, List.forall_mem_map]
    refine forall₂_congr fun u hu => ?_
    have hpast := mem_of_mem_currentNodes hu
    exact Stored.exists_decode_iff (hyear u hpast) (hsound u hpast)
  have hedgeRows : (∀ row ∈ log.rows, ∃ edge, row.decode = .ok edge) ↔
      ∀ edge ∈ edges, ∀ value ∈ edge.metadata, value.depth ≤ Json.depthLimit :=
    hlogs.forall_rows_iff fun edge hedge id => EdgeRow.exists_decode_iff (hsoundEdges edge hedge)
  rw [← hnodeRows, ← hedgeRows]
  constructor
  · intro h
    obtain ⟨table', htable', hrows⟩ := h.nodes
    obtain ⟨log', hlog', hlogRows⟩ := h.edges
    obtain rfl : table' = table := Option.some.inj (htable'.symm.trans htable)
    obtain rfl : log' = log := Option.some.inj (hlog'.symm.trans hlog)
    exact ⟨hrows, hlogRows⟩
  · rintro ⟨hrows, hlogRows⟩
    exact ⟨⟨table, htable, hrows⟩, ⟨log, hlog, hlogRows⟩⟩

/-! ## After a run -/

/-- The edges that a run of calls stores, in order of time. -/
def Session.added (s : Session) (calls : List Call) : List NewEdge :=
  (s.writes calls).filterMap Write.edge?

/-- After any run from a database that has just been made, at whose end the gate refuses nothing,
    all reads succeed if and only if the metadata of the current nodes and of the edges do not
    nest too deeply. The clock shows years of four digits, and the numbers in metadata are of 64
    bits. -/
theorem readable_run_iff (h : s.workspace.tables? = some Tables.empty.migrate.1)
    (calls : List Call) (hgate : ∀ method, (s.run calls).gate.allowance method = none)
    (hyear : ∀ u ∈ s.stored calls, 0 ≤ u.now.date.year ∧ u.now.date.year ≤ 9999)
    (hsound : ∀ u ∈ s.stored calls, ∀ value ∈ u.node.metadata, value.Sound)
    (hsoundEdges : ∀ edge ∈ s.added calls, ∀ value ∈ edge.metadata, value.Sound) :
    (s.run calls).Readable ↔
      (∀ u ∈ currentNodes (s.stored calls), ∀ value ∈ u.node.metadata,
        value.depth ≤ Json.depthLimit) ∧
      ∀ edge ∈ s.added calls, ∀ value ∈ edge.metadata, value.depth ≤ Json.depthLimit := by
  have hserves : (s.run calls).Serves _ := ⟨Session.tables?_run h .fresh calls, hgate⟩
  rw [hserves.readable_iff]
  exact Tables.readable_iff (Tables.records_fresh.foldl_apply .fresh _)
    (Tables.logs_fresh.foldl_apply .fresh _) hyear hsound hsoundEdges

/-- Arrays within each other, `n` of them around a leaf. -/
def Json.nested : ℕ → Json
  | 0 => .null
  | n + 1 => .arr [nested n]

theorem Json.depth_nested (n : ℕ) : (nested n).depth = n := by
  induction n with
  | zero => rfl
  | succ n ih =>
    rw [nested, depth, depthOfItems, ih, depthOfItems]
    omega

theorem Json.sound_nested (n : ℕ) : (nested n).Sound := by
  induction n with
  | zero => trivial
  | succ n ih => exact ⟨ih, trivial⟩

/-- A node of a file with some metadata. -/
def Node.attached (metadata : Json) : Node :=
  { file "a.rs" "" .epoch with metadata := some metadata }

/-- A node whose metadata nest too deeply is stored and replaced. An edge is stored whose
    metadata nest as deeply as they may. -/
def Session.mends : List Call :=
  [.upsert (fun _ => none) (.attached (.nested 128)) .epoch,
    .upsert (fun _ => none) (.attached (.nested 127)) .epoch,
    .addEdge ⟨"file:a.rs", "gone", "uses", some (.nested 127)⟩]

theorem readable_run_iff_mends :
    (Session.ofTables .fresh).workspace.tables? = some Tables.empty.migrate.1 ∧
      ((Session.ofTables .fresh).run Session.mends).Readable := by
  have hstored : (Session.ofTables .fresh).stored Session.mends =
      [⟨.attached (.nested 128), .epoch⟩, ⟨.attached (.nested 127), .epoch⟩] := rfl
  have hcurrent : currentNodes ((Session.ofTables .fresh).stored Session.mends) =
      [⟨.attached (.nested 127), .epoch⟩] := rfl
  have hadded : (Session.ofTables .fresh).added Session.mends =
      [⟨"file:a.rs", "gone", "uses", some (.nested 127)⟩] := rfl
  have hsound (n : ℕ) : ∀ value ∈ some (Json.nested n), value.Sound := by
    rintro value ⟨⟩
    exact Json.sound_nested n
  have hdepth : ∀ value ∈ some (Json.nested 127), value.depth ≤ Json.depthLimit := by
    rintro value ⟨⟩
    exact (Json.depth_nested 127).le
  refine ⟨rfl, (readable_run_iff rfl Session.mends (fun _ => rfl) ?_ ?_ ?_).2 ⟨?_, ?_⟩⟩
  · rw [hstored]
    simp only [List.forall_mem_cons]
    exact ⟨by decide, by decide, by simp⟩
  · rw [hstored]
    simp only [List.forall_mem_cons]
    exact ⟨hsound 128, hsound 127, by simp⟩
  · rw [hadded]
    exact List.forall_mem_singleton.2 (hsound 127)
  · rw [hcurrent]
    exact List.forall_mem_singleton.2 hdepth
  · rw [hadded]
    exact List.forall_mem_singleton.2 hdepth

/-- A node whose metadata nest too deeply is stored. After that it cannot be read, nor can the
    nodes of its file, nor can the file be analyzed. -/
theorem unreadable_upsert_nested :
    (Session.upsertNode (.attached (.nested 128)) .epoch).result (.ofTables .fresh) = .ok () ∧
      let s := (Session.upsertNode (.attached (.nested 128)) .epoch).after (.ofTables .fresh)
      (¬∃ node, (Session.getNode "file:a.rs").result s = .ok node) ∧
        (¬∃ nodes, (Session.nodesAt "a.rs").result s = .ok nodes) ∧
        ∀ depth, ¬∃ report, (Session.analyze "a.rs" depth).result s = .ok report := by
  refine ⟨rfl, ?_⟩
  intro s
  let u : Stored := ⟨.attached (.nested 128), .epoch⟩
  let t : Tables := (Write.putNode u.node u.now).apply .fresh
  have hs : s.Serves t := ⟨rfl, fun _ => rfl⟩
  have hrecords : t.Records [u] := Tables.records_fresh.apply .fresh (.putNode u.node u.now)
  have hdecode : ¬∃ node, u.row.decode = .ok node := by
    have hsound : ∀ value ∈ u.node.metadata, value.Sound := by
      rintro value ⟨⟩
      exact Json.sound_nested 128
    rw [Stored.exists_decode_iff (by decide) hsound]
    intro h
    have hdepth := h _ rfl
    rw [Json.depth_nested] at hdepth
    exact absurd hdepth (by decide)
  have hnodes : ¬∃ nodes, t.nodesAt "a.rs" = .ok nodes := by
    rintro ⟨nodes, hnodes⟩
    have hcurrent : (currentNodes [u]).filter (·.node.filePath = some "a.rs") = [u] := rfl
    rw [hrecords.nodesAt_eq_ok, hcurrent] at hnodes
    cases hnodes with
    | cons hnode _ => exact hdecode ⟨_, hnode⟩
  refine ⟨?_, ?_, fun depth => ?_⟩
  · rintro ⟨node, hnode⟩
    rw [Session.getNode, (Session.query_answers _ _ s hs).1, hrecords.node?_eq_ok] at hnode
    have hlatest : latest? "file:a.rs" [u] = some u := rfl
    rcases hnode with ⟨hnone, -⟩ | ⟨u', node', hu', hnode', -⟩
    · rw [hlatest] at hnone
      cases hnone
    · obtain rfl : u' = u := Option.some.inj (hu'.symm.trans hlatest)
      exact hdecode ⟨node', hnode'⟩
  · rwa [Session.nodesAt, (Session.query_answers _ _ s hs).1]
  · -- An analysis begins with the nodes of the file.
    rintro ⟨report, hreport⟩
    rw [(Session.analyze_answers _ _ s hs).1] at hreport
    obtain ⟨nodes, hread, -⟩ := bind_eq_ok.1 hreport
    exact hnodes ⟨nodes, hread⟩

end Ripple
