import Ripple.Proofs.Impact.Frame
import Ripple.Proofs.Session.Readable
import Ripple.Proofs.Session.Storing

/-!
# Writes that an analysis does not see

An analysis reads the rows of the nodes within its bound and those of the edges of nodes nearer
than that. A write stays outside if it stores a node farther away, which does not carry the file
either, or an edge that ends at no stored node nearer than the bound (`Write.Outside`). Such a
write leaves the rows that are read as they are (`Write.Outside.sameWithin`), whether its own row
can be read or not. So after any number of them an analysis that has succeeded has the same report
(`analyze_run_outside`).
-/

namespace Ripple

/-- A write of a node that is not within some hops of a file and does not carry it, or of an edge
    none of whose endpoints is a stored node nearer than that. -/
def Write.Outside (g : Graph) (path : String) (depth : ℕ) : Write → Prop
  | .putNode node _ => (∀ k, g.Hops path node.id k → depth < k) ∧ node.filePath ≠ some path
  | .putEdge edge =>
    ∀ id, id = edge.source ∨ id = edge.target → g.Stored id → ∀ k, g.Hops path id k → depth ≤ k

variable {t t' : Tables} {path id : String}

namespace Write.Outside

variable {write : Write} {g g' : Graph} {depth : ℕ}

/-- What is outside of a graph is outside of any other that has the same rows within the bound. -/
theorem of_sameWithin (h : write.Outside g path depth) (hsame : g.SameWithin g' path depth) :
    write.Outside g' path depth := by
  cases write with
  | putNode node now =>
    refine ⟨fun k hk => ?_, h.2⟩
    by_contra hle
    exact hle (h.1 k (hsame.hops (Nat.le_of_not_lt hle) hk))
  | putEdge edge =>
    intro id hid hstored k hk
    by_contra hlt
    have hlt : k < depth := Nat.lt_of_not_le hlt
    have hhops := hsame.hops hlt.le hk
    exact absurd (h id hid ((hsame.stored_iff hhops.1 hlt.le).1 hstored) k hhops) (by omega)

/-- A write outside leaves the rows within the bound as they are. -/
theorem sameWithin (h : write.Outside t.graph path depth) :
    t.graph.SameWithin (write.apply t).graph path depth := by
  cases write with
  | putNode node now =>
    rcases apply_putNode_cases t node now with hsame | ⟨nodes, index, hnodes, hput⟩
    · rw [hsame]
      exact .refl _ _ _
    rw [hput]
    refine ⟨?_, fun {id k} hhops hk => ?_, fun _ _ _ => rfl⟩
    · rw [Tables.graph_nodes rfl, Tables.graph_nodes hnodes]
      refine NodeTable.filter_putRow_of_not (fun hfile => h.2 (of_decide_eq_true hfile)) ?_
      -- The row that is replaced does not carry the file: it would lie at distance zero.
      intro other hother hid hfile
      have hcarries : t.graph.Carries node.id path :=
        ⟨other, Tables.graph_nodes hnodes ▸ hother, hid, of_decide_eq_true hfile⟩
      obtain ⟨k, hk, hhops⟩ := (Graph.Reaches.seed hcarries).hops
      exact absurd (h.1 k hhops) (by omega)
    · have hne : node.id ≠ id := by
        rintro rfl
        exact absurd (h.1 k hhops) (by omega)
      rw [Tables.graph_nodes rfl, Tables.graph_nodes hnodes]
      exact (NodeTable.find?_putRow _ _ _).trans (if_neg hne)
  | putEdge edge =>
    rcases apply_putEdge_cases t edge with hsame | ⟨edges, hedges, hadd⟩
    · rw [hsame]
      exact .refl _ _ _
    rw [hadd]
    refine ⟨rfl, fun _ _ => rfl, fun {id k} hstored hhops hk => ?_⟩
    have htouches : ¬(EdgeRow.ofEdge edge (edges.lastId + 1)).touches id := by
      intro htouches
      simp only [EdgeRow.touches, EdgeRow.ofEdge, Bool.or_eq_true, beq_iff_eq] at htouches
      exact absurd (h id (htouches.imp Eq.symm Eq.symm) hstored k hhops) (by omega)
    rw [Tables.graph_edges rfl, Tables.graph_edges hedges, EdgeTable.add, List.filter_append,
      List.filter_cons_of_neg (p := fun row : EdgeRow => row.touches id) htouches, List.filter_nil,
      List.append_nil]

end Write.Outside

namespace Tables

variable {depth : ℕ}

/-- Tables with the same rows within the bound give the same answers there. -/
theorem agreesWithin (hsame : t.graph.SameWithin t'.graph path depth)
    (hnodes : t.nodes.isSome) (hnodes' : t'.nodes.isSome)
    (hedges : t'.edges.isSome = t.edges.isSome) :
    t.source.AgreesWithin t'.source t.graph path depth := by
  obtain ⟨nodes, hnodes⟩ := Option.isSome_iff_exists.1 hnodes
  obtain ⟨nodes', hnodes'⟩ := Option.isSome_iff_exists.1 hnodes'
  refine ⟨?_, fun {id k} hhops hk => ?_, fun {id k} hstored hhops hk => ?_⟩
  · have hseeds := hsame.seeds
    rw [graph_nodes hnodes, graph_nodes hnodes'] at hseeds
    change t'.nodesAt path = t.nodesAt path
    rw [nodesAt_of_some hnodes, nodesAt_of_some hnodes', hseeds]
  · have hrow := hsame.nodes hhops hk
    rw [graph_nodes hnodes, graph_nodes hnodes'] at hrow
    change t'.node? id = t.node? id
    rw [node?_of_some hnodes, node?_of_some hnodes', NodeTable.find?, hrow]
    rfl
  · have hrows := hsame.edges hstored hhops hk
    change t'.edgesOf id = t.edgesOf id
    cases h : t.edges with
    | none =>
      rw [h, Option.isSome_none, Option.isSome_eq_false_iff, Option.isNone_iff_eq_none] at hedges
      rw [edgesOf, edgesOf, needEdges, needEdges, h, hedges]
    | some edges =>
      rw [h, Option.isSome_some, Option.isSome_iff_exists] at hedges
      obtain ⟨edges', h'⟩ := hedges
      rw [graph_edges h, graph_edges h'] at hrows
      rw [edgesOf_of_some h, edgesOf_of_some h', hrows]

/-- After a write outside of its bound an analysis has the report that it had before. -/
theorem analyze_apply_of_outside {write : Write} {depth : UInt32} {report : Report}
    (hout : write.Outside t.graph path depth.toNat) (h : t.analyze path depth = .ok report) :
    (write.apply t).analyze path depth = .ok report := by
  obtain ⟨hsomeNodes, hsomeEdges, hcount⟩ := write.isSome_apply t
  obtain ⟨seeds, hseeds, -⟩ := bind_eq_ok.1 h
  obtain ⟨nodes, hnodes, -⟩ := nodesAt_eq_ok.1 hseeds
  have hsome : t.nodes.isSome := Option.isSome_iff_exists.2 ⟨nodes, hnodes⟩
  exact Impact.analyze_of_agreesWithin t.source_reads
    (agreesWithin hout.sameWithin hsome (hsomeNodes.trans hsome) hsomeEdges)
    t.edgeCount_eq.ge hcount h

end Tables

/-- After calls that ask for writes outside of its bound, an analysis that has succeeded has the
    same report. -/
theorem analyze_run_outside {s : Session} (hs : s.Serves t) {depth : UInt32} {report : Report}
    (h : (Session.analyze path depth).result s = .ok report) {calls : List Call}
    (hcalls : ∀ call ∈ calls, ∃ write, call.asked? = some write ∧
      write.Outside t.graph path depth.toNat) :
    (Session.analyze path depth).result (s.run calls) = .ok report := by
  induction calls generalizing s t with
  | nil => exact h
  | cons call calls ih =>
    rw [(Session.analyze_answers path depth s hs).1] at h
    obtain ⟨⟨write, hasked, hout⟩, hcalls⟩ := List.forall_mem_cons.1 hcalls
    have hne : t ≠ .empty := by
      rintro rfl
      cases h
    rcases hs.after_of_asked hne hasked with hafter | hafter
    · refine ih hafter ?_ hcalls
      rw [(Session.analyze_answers path depth _ hafter).1, h]
    · refine ih hafter ?_ fun call hcall => ?_
      · rw [(Session.analyze_answers path depth _ hafter).1, Tables.analyze_apply_of_outside hout h]
      · -- The distances within the bound are as they were.
        obtain ⟨write', hasked', hout'⟩ := hcalls call hcall
        exact ⟨write', hasked', hout'.of_sameWithin hout.sameWithin⟩

/-- The file of a node two hops away is changed, and metadata are attached to it that nest too
    deeply. An edge joins two nodes at the bound, and another one leads on from there. -/
def Session.besides : List Call :=
  [.upsert (fun _ => none) ⟨"d", "file", "e.rs", some "e.rs", none, some (.nested 128), .epoch⟩
      .epoch,
    .addEdge ⟨"b", "c", "uses", some (.nested 128)⟩, .addEdge ⟨"gone", "e", "uses", none⟩]

theorem analyze_run_outside_ring :
    (Session.ofTables .ring).Serves .ring ∧
      (Session.analyze "a.rs" 1).result (.ofTables .ring) = .ok ⟨"a.rs", 1, ["a.rs", "c.rs"]⟩ ∧
      (∀ call ∈ Session.besides, ∃ write, call.asked? = some write ∧
        write.Outside Tables.ring.graph "a.rs" 1) ∧
      (Session.analyze "a.rs" 1).result ((Session.ofTables .ring).run Session.besides) =
        .ok ⟨"a.rs", 1, ["a.rs", "c.rs"]⟩ := by
  have hs := Session.ofTables_serves .ring
  have h : (Session.analyze "a.rs" 1).result (.ofTables .ring) =
      .ok ⟨"a.rs", 1, ["a.rs", "c.rs"]⟩ := by
    decide
  have hseed {id : String} (hr : Tables.ring.graph.Reaches "a.rs" 0 id) : id = "a" := by
    cases hr with
    | seed hc => exact List.mem_singleton.1 (Graph.mem_seeds.2 hc)
  have hnear {id : String} (hid : id ≠ "a") {k : ℕ} (hk : Tables.ring.graph.Hops "a.rs" id k) :
      1 ≤ k :=
    Nat.one_le_iff_ne_zero.2 fun hzero => hid (hseed (hzero ▸ hk.1))
  have hfar {k : ℕ} (hk : Tables.ring.graph.Hops "a.rs" "d" k) : 1 < k := by
    refine lt_of_le_of_ne (hnear (by decide) hk) ?_
    rintro rfl
    obtain ⟨hr, -⟩ := hk
    cases hr with
    | step hr hstored hadj =>
      obtain rfl := hseed hr
      exact absurd (Graph.mem_neighbors.2 hadj) (by decide)
  have hcalls : ∀ call ∈ Session.besides, ∃ write, call.asked? = some write ∧
      write.Outside Tables.ring.graph "a.rs" 1 := by
    simp only [Session.besides, List.forall_mem_cons]
    refine ⟨⟨_, rfl, fun k => hfar, by decide⟩, ⟨_, rfl, ?_⟩, ⟨_, rfl, ?_⟩, by simp⟩
    · rintro id (rfl | rfl) - k hk
      · exact hnear (by decide) hk
      · exact hnear (by decide) hk
    · rintro id (rfl | rfl) - k hk
      · exact hnear (by decide) hk
      · exact hnear (by decide) hk
  exact ⟨hs, h, hcalls, analyze_run_outside hs h hcalls⟩

end Ripple
