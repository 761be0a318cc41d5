import Ripple.Proofs.Session.Readable
import Ripple.Proofs.Store.Batch

/-!
# Runs in another order

Sessions read alike if analyses, sizes, nodes and edges are the same in both, but for the order of
files and edges, the identifiers of edges and the timestamps of nodes (`Session.ReadsAlike`). Two
runs that store the same nodes, under distinct identifiers, and the same edges in any two orders
leave sessions that read alike (`readsAlike_run`).
-/

namespace Ripple

/-- Analyses, sizes, nodes and edges of two sessions are the same but for the order of files and
    edges, the identifiers of edges and the timestamps of nodes. What cannot be read in one session
    cannot be read in the other. -/
structure Session.ReadsAlike (s s' : Session) : Prop where
  analyze (path : String) (depth : UInt32) :
    Alike (fun report report' => report.files.Perm report'.files)
      ((analyze path depth).result s) ((analyze path depth).result s')
  stats : ∃ sizes, stats.result s = .ok sizes ∧ stats.result s' = .ok sizes
  getNode (id : String) : ((getNode id).result s).map (Option.map Node.undated) =
    ((getNode id).result s').map (Option.map Node.undated)
  edgesOf (id : String) :
    Alike (fun edges edges' => (edges.map Edge.unnumbered).Perm (edges'.map Edge.unnumbered))
      ((edgesOf id).result s) ((edgesOf id).result s')

theorem Session.Serves.readsAlike {s s' : Session} {t t' : Tables} (hs : s.Serves t)
    (hs' : s'.Serves t') (h : t.Shuffles t') : s.ReadsAlike s' where
  analyze path depth := by
    rw [(analyze_answers path depth s hs).1, (analyze_answers path depth s' hs').1]
    exact h.analyze path depth
  stats := by
    rw [Session.stats, (query_answers _ _ s hs).1, (query_answers _ _ s' hs').1]
    exact h.stats
  getNode id := by
    rw [Session.getNode, (query_answers _ _ s hs).1, (query_answers _ _ s' hs').1]
    exact h.node? id
  edgesOf id := by
    rw [Session.edgesOf, (query_answers _ _ s hs).1, (query_answers _ _ s' hs').1]
    exact h.edgesOf id

/-- From a database whose schema is up to date, as it is after any run, two runs that store the
    same nodes, under distinct identifiers, and the same edges, each in any order and at any times,
    leave sessions that read alike. If the rows of the database can be read, and the metadata that
    are stored, then everything can be read after either run. The clock shows years of four digits,
    and at the end the gate refuses nothing. -/
theorem readsAlike_run {s : Session} {t : Tables} (h : s.workspace.tables? = some t)
    (ht : t.IsCurrent) {calls calls' : List Call}
    (hnodes : ((s.stored calls).map Stored.node).Perm ((s.stored calls').map Stored.node))
    (hedges : (s.added calls).Perm (s.added calls'))
    (hdistinct : ((s.stored calls).map (·.node.id)).Nodup)
    (hyear : ∀ u ∈ s.stored calls ++ s.stored calls',
      0 ≤ u.now.date.year ∧ u.now.date.year ≤ 9999)
    (hgate : ∀ method, (s.run calls).gate.allowance method = none)
    (hgate' : ∀ method, (s.run calls').gate.allowance method = none) :
    (s.run calls).ReadsAlike (s.run calls') ∧
      (t.Readable →
        (∀ u ∈ s.stored calls,
          ∃ metadata, decodeMetadata (u.node.metadata.map Json.text) = .ok metadata) →
        (∀ edge ∈ s.added calls,
          ∃ metadata, decodeMetadata (edge.metadata.map Json.text) = .ok metadata) →
        (s.run calls).Readable ∧ (s.run calls').Readable) := by
  have hs : (s.run calls).Serves _ := ⟨Session.tables?_run h ht calls, hgate⟩
  have hs' : (s.run calls').Serves _ := ⟨Session.tables?_run h ht calls', hgate'⟩
  obtain ⟨hyear, hyear'⟩ := List.forall_mem_append.1 hyear
  have htakes := Tables.takes_foldl_apply ht (s.writes calls)
  have htakesEdges := Tables.takesEdges_foldl_apply ht (s.writes calls)
  have hshuffles := htakes.shuffles (Tables.takes_foldl_apply ht (s.writes calls')) htakesEdges
    (Tables.takesEdges_foldl_apply ht (s.writes calls')) hnodes hedges hdistinct hyear hyear'
  refine ⟨hs.readsAlike hs' hshuffles, fun hread hmetadata hmetadataEdges => ?_⟩
  have hread := htakes.readable htakesEdges hread hdistinct (fun u hu => ?_) fun edge hedge => ?_
  · rw [hs.readable_iff, hs'.readable_iff]
    exact ⟨hread, hshuffles.readable hread⟩
  · exact (NodeRow.exists_decode_ofNode_iff (hyear u hu)).2 (hmetadata u hu)
  · exact EdgeRow.exists_decode_ofEdge_iff.2 (hmetadataEdges edge hedge)

/-- A node of a file. -/
def Node.ofFile (id path : String) : Node := ⟨id, "file", path, some path, none, none, .epoch⟩

/-- Two nodes are stored, of which one has had another file, and an edge from each to a third node.
    One of the edges is stored before its source. -/
def Session.joins (now : Instant) : List Call :=
  [.addEdge ⟨"e", "d", "uses", none⟩, .upsert (fun _ => none) (.ofFile "e" "e.rs") now,
    .upsert (fun _ => none) (.ofFile "a" "f.rs") now, .addEdge ⟨"a", "d", "uses", none⟩]

/-- The second run goes the other way at a later time. The files of an analysis come in another
    order. -/
theorem readsAlike_run_joins :
    let later : Instant := ⟨1, 0, by decide⟩
    let s := (Session.ofTables .ring).run (Session.joins .epoch)
    let s' := (Session.ofTables .ring).run (Session.joins later).reverse
    (Session.analyze "d.rs" 1).result s = .ok ⟨"d.rs", 1, ["d.rs", "e.rs", "f.rs"]⟩ ∧
      (Session.analyze "d.rs" 1).result s' = .ok ⟨"d.rs", 1, ["d.rs", "f.rs", "e.rs"]⟩ ∧
      s.ReadsAlike s' ∧ s.Readable ∧ s'.Readable := by
  intro later s s'
  have hstored : (Session.ofTables .ring).stored (Session.joins .epoch) =
      [⟨.ofFile "e" "e.rs", .epoch⟩, ⟨.ofFile "a" "f.rs", .epoch⟩] := rfl
  have hstored' : (Session.ofTables .ring).stored (Session.joins later).reverse =
      [⟨.ofFile "a" "f.rs", later⟩, ⟨.ofFile "e" "e.rs", later⟩] := rfl
  have hadded : (Session.ofTables .ring).added (Session.joins .epoch) =
      [⟨"e", "d", "uses", none⟩, ⟨"a", "d", "uses", none⟩] := rfl
  have hadded' : (Session.ofTables .ring).added (Session.joins later).reverse =
      [⟨"a", "d", "uses", none⟩, ⟨"e", "d", "uses", none⟩] := rfl
  have hnodes : (((Session.ofTables .ring).stored (Session.joins .epoch)).map Stored.node).Perm
      (((Session.ofTables .ring).stored (Session.joins later).reverse).map Stored.node) := by
    rw [hstored, hstored']
    exact .swap _ _ _
  have hedges : ((Session.ofTables .ring).added (Session.joins .epoch)).Perm
      ((Session.ofTables .ring).added (Session.joins later).reverse) := by
    rw [hadded, hadded']
    exact .swap _ _ _
  obtain ⟨halike, hread⟩ := readsAlike_run (s := .ofTables .ring) rfl ⟨_, _, _, rfl⟩ hnodes hedges
    (by rw [hstored]; decide) (by rw [hstored, hstored']; decide) (fun _ => rfl) fun _ => rfl
  have hnone : ∃ metadata, decodeMetadata none = .ok metadata := ⟨none, rfl⟩
  refine ⟨by decide +kernel, by decide +kernel, halike, hread Tables.ring_readable ?_ ?_⟩
  · rw [hstored]
    exact List.forall_mem_cons.2 ⟨hnone, List.forall_mem_singleton.2 hnone⟩
  · rw [hadded]
    exact List.forall_mem_cons.2 ⟨hnone, List.forall_mem_singleton.2 hnone⟩

end Ripple
