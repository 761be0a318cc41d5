import Ripple.Proofs.Session.Calls
import Ripple.Proofs.Store.History

/-!
# What nodes are read after a run

The nodes that a run of calls stores (`Session.stored`) are those of its writes, so after the
run the table of nodes holds them (`Session.records_run`): of each identifier the last one, in
the order of the first ones. What is read shows them (`shown_run`).
-/

namespace Ripple

/-- The nodes that a run of calls stores, in order of time. -/
def Session.stored (s : Session) (calls : List Call) : List Stored :=
  (s.writes calls).filterMap Write.stored?

/-- After a run the database holds the nodes that the run has stored. -/
theorem Session.records_run {s : Session}
    (h : s.workspace.tables? = some Tables.empty.migrate.1) (calls : List Call) :
    ∃ t, (s.run calls).workspace.tables? = some t ∧ t.Records (s.stored calls) :=
  ⟨_, Session.tables?_run h .fresh calls, Tables.records_fresh.foldl_apply .fresh _⟩

/-- After any run from a database that has just been made, an identifier has no node if and only
    if none was stored under it, and otherwise the node that was stored last. It is read if the
    gate lets the request pass and if its row can be read. The nodes of a file are the current
    ones with its path, in the order in which their identifiers were stored first. -/
theorem shown_run {s : Session} (h : s.workspace.tables? = some Tables.empty.migrate.1)
    (calls : List Call) (id path : String) :
    (∀ node?, (Session.getNode id).result (s.run calls) = .ok node? →
      (node? = none ↔ ∀ u ∈ s.stored calls, u.node.id ≠ id) ∧
      ∀ node, node? = some node →
        ∃ u, latest? id (s.stored calls) = some u ∧ u.ShownAs node) ∧
    (((s.run calls).gate.pass .getNode).2 = true →
      ((∀ u ∈ s.stored calls, u.node.id ≠ id) →
        (Session.getNode id).result (s.run calls) = .ok none) ∧
      ∀ u, latest? id (s.stored calls) = some u → u.Readable →
        ∃ node, (Session.getNode id).result (s.run calls) = .ok (some node)) ∧
    ∀ nodes, (Session.nodesAt path).result (s.run calls) = .ok nodes →
      List.Forall₂ Stored.ShownAs
        ((currentNodes (s.stored calls)).filter (·.node.filePath = some path)) nodes ∧
      (nodes.map Node.id).Nodup := by
  obtain ⟨t, ht, hrecords⟩ := Session.records_run h calls
  refine ⟨fun node? hnode => ?_, fun hpass => ⟨fun hnone => ?_, fun u hu hreadable => ?_⟩,
    fun nodes hnodes => ?_⟩
  · rcases hrecords.node?_eq_ok.1 (Session.query_eq_ok ht hnode) with
      ⟨hnone, rfl⟩ | ⟨u, node, hu, hdecode, rfl⟩
    · exact ⟨iff_of_true rfl (latest?_eq_none.1 hnone), fun _ hsome => absurd hsome (by simp)⟩
    · refine ⟨iff_of_false (by simp) fun hnone => ?_, ?_⟩
      · rw [latest?_eq_none.2 hnone] at hu
        exact absurd hu (by simp)
      · rintro node' ⟨⟩
        exact ⟨u, hu, Stored.shownAs_of_decode hdecode⟩
  · rw [Session.getNode, Session.query_of_pass ht hpass, hrecords.node?_eq_ok]
    exact .inl ⟨latest?_eq_none.2 hnone, rfl⟩
  · obtain ⟨node, hdecode⟩ := Stored.exists_decode hreadable
    refine ⟨node, ?_⟩
    rw [Session.getNode, Session.query_of_pass ht hpass, hrecords.node?_eq_ok]
    exact .inr ⟨u, node, hu, hdecode, rfl⟩
  · -- The nodes are shown row by row, and so their identifiers are those of the rows.
    have hread := hrecords.nodesAt_eq_ok.1 (Session.query_eq_ok ht hnodes)
    have hshown := hread.imp fun u node => Stored.shownAs_of_decode
    refine ⟨hshown, ?_⟩
    rw [map_eq_of_forall₂ (f := (·.node.id)) (fun u node hu => hu.id) hshown]
    exact hrecords.nodup_ids.sublist (List.filter_sublist.map _)

/-- A node is stored with some metadata in a file, then in no file, and then not at all. -/
def Session.moves : List Call :=
  let node : Node := ⟨"n", "concept", "old", some "a.rs", none, some (.int 1), .epoch⟩
  [.upsert (fun _ => none) node .epoch, .getNode "n",
    .upsert (fun _ => none) { node with name := "new", filePath := none, metadata := some .null }
      .epoch,
    .upsert (fun step => if step = .commit then some .closed else none) node .epoch]

theorem shown_run_moves :
    (Session.ofTables .fresh).workspace.tables? = some Tables.empty.migrate.1 ∧
      ∃ node, (Session.getNode "n").result ((Session.ofTables .fresh).run Session.moves) =
        .ok (some node) ∧ node.name = "new" ∧ node.filePath = none ∧
          node.metadata = some .null := by
  obtain ⟨hread, hexists, -⟩ := shown_run (s := .ofTables .fresh) rfl Session.moves "n" "a.rs"
  have hlatest : latest? "n" ((Session.ofTables .fresh).stored Session.moves) = some
      ⟨⟨"n", "concept", "new", none, none, some .null, .epoch⟩, .epoch⟩ := rfl
  obtain ⟨node, hnode⟩ := (hexists rfl).2 _ hlatest
    ⟨by decide, by rintro _ ⟨⟩; exact ⟨trivial, by decide⟩⟩
  obtain ⟨u, hu, hshown⟩ := (hread _ hnode).2 node rfl
  obtain rfl := Option.some.inj (hu.symm.trans hlatest)
  exact ⟨rfl, node, hnode, hshown.name, hshown.filePath, hshown.metadata _ rfl trivial⟩

end Ripple
