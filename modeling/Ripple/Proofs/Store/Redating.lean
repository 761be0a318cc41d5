import Ripple.Proofs.Store.Batch
import Ripple.Proofs.Store.Search

/-!
# Tables at another time

Tables that are up to date are redated if they are the same but for the timestamps of nodes, which
can be read alike (`Tables.Redates`). They stay so when the same is stored at two times
(`Tables.Redates.upsertUnless`, `Tables.Redates.addEdge`), and what is read of them differs in
timestamps at most: nodes by identifier (`Tables.Redates.node?`), by file
(`Tables.Redates.nodesAt`) and by text (`Tables.Redates.search`), in the same order. Edges and
sizes do not differ at all.
-/

namespace Ripple

/-! ## Rows -/

/-- A row that is put among rows, and one of the same gist among rows of the same gists. -/
theorem NodeTable.map_gist_putRow {row row' : NodeRow} {rows rows' : List NodeRow}
    (hrow : row.gist = row'.gist)
    (hrows : rows.map NodeRow.gist = rows'.map NodeRow.gist) :
    (putRow row rows).map NodeRow.gist = (putRow row' rows').map NodeRow.gist := by
  have hid : row.id = row'.id := congrArg (·.1.id) hrow
  induction rows generalizing rows' with
  | nil =>
    obtain rfl := List.map_eq_nil_iff.1 hrows.symm
    simp [putRow, hrow]
  | cons other rest ih =>
    cases rows' with
    | nil => cases hrows
    | cons other' rest' =>
      obtain ⟨hother, hrest⟩ := List.cons.inj hrows
      have hotherId : other.id = other'.id := congrArg (·.1.id) hother
      rw [putRow, putRow, hotherId, hid]
      split
      · rw [List.map_cons, List.map_cons, hrow, hrest]
      · rw [List.map_cons, List.map_cons, hother, ih hrest]

/-- What a node is read as, but for its timestamp, is in the gist of its row. -/
theorem NodeRow.map_undated_mapM_decode (rows : List NodeRow) :
    (rows.mapM decode).map (List.map Node.undated) = (rows.map gist).mapM Prod.snd := by
  rw [map_mapM, List.mapM_map]
  rfl

namespace Tables

/-- A node is stored in tables that are up to date unless one of the steps is disturbed. -/
theorem IsCurrent.upsertUnless_result {t : Tables} (ht : t.IsCurrent)
    (disturbed : UpsertStep → Option StorageFault) (node : Node) (now : Instant) :
    (t.upsertUnless disturbed node now).2 =
      match disturbed .node <|> disturbed .removeIndexed <|> disturbed .addIndexed <|>
        disturbed .commit with
      | some fault => .error fault
      | none => .ok () := by
  obtain ⟨nodes, edges, index, rfl⟩ := ht
  rw [Tables.upsertUnless]
  cases disturbed .node <;> cases disturbed .removeIndexed <;> cases disturbed .addIndexed <;>
    cases disturbed .commit <;> rfl

/-- The second tables are the first ones but for the timestamps of nodes. Both are up to date. -/
def Redates (t t' : Tables) : Prop :=
  ∃ nodes nodes' edges index, t = current nodes edges index ∧ t' = current nodes' edges index ∧
    nodes.rows.map NodeRow.gist = nodes'.rows.map NodeRow.gist

namespace Redates

variable {t t' : Tables} {node node' : Node} {now now' : Instant}

theorem refl (ht : t.IsCurrent) : t.Redates t := by
  obtain ⟨nodes, edges, index, rfl⟩ := ht
  exact ⟨nodes, nodes, edges, index, rfl, rfl, rfl⟩

theorem left (h : t.Redates t') : t.IsCurrent := by
  obtain ⟨nodes, -, edges, index, rfl, -⟩ := h
  exact ⟨nodes, edges, index, rfl⟩

theorem right (h : t.Redates t') : t'.IsCurrent := by
  obtain ⟨-, nodes', edges, index, -, rfl, -⟩ := h
  exact ⟨nodes', edges, index, rfl⟩

theorem shuffles (h : t.Redates t') : t.Shuffles t' := by
  obtain ⟨nodes, nodes', edges, index, rfl, rfl, hgists⟩ := h
  exact ⟨⟨nodes, nodes', rfl, rfl, .of_eq hgists⟩, ⟨edges, edges, rfl, rfl, .rfl⟩⟩

/-! ## Writes -/

/-- Rows of the same gist are put, and the text index is changed in the same way. -/
theorem putNode (h : t.Redates t') (hrow : (NodeRow.ofNode node now).gist =
      (NodeRow.ofNode node' now').gist) :
    ((Write.putNode node now).apply t).Redates ((Write.putNode node' now').apply t') := by
  obtain ⟨nodes, nodes', edges, index, rfl, rfl, hgists⟩ := h
  have hid : node.id = node'.id := congrArg (·.1.id) hrow
  have hname : node.name = node'.name := congrArg (·.1.name) hrow
  have hcontent : node.content = node'.content := congrArg (·.1.content) hrow
  have hindex : reindex node index = reindex node' index := by
    rw [reindex, reindex, hid, hname, Node.indexedContent, hcontent, Node.indexedContent]
  refine ⟨nodes.put (.ofNode node now), nodes'.put (.ofNode node' now'), edges, reindex node index,
    rfl, ?_, NodeTable.map_gist_putRow hrow hgists⟩
  rw [Write.apply_putNode, hindex]

/-- Storing a node fails for the same reason, or in both tables rows of the same gist are put. -/
theorem upsertUnless (h : t.Redates t') (disturbed : UpsertStep → Option StorageFault)
    (hrow : (NodeRow.ofNode node now).gist = (NodeRow.ofNode node' now').gist) :
    (t.upsertUnless disturbed node now).2 = (t'.upsertUnless disturbed node' now').2 ∧
      (t.upsertUnless disturbed node now).1.Redates (t'.upsertUnless disturbed node' now').1 := by
  have hfault : (t.upsertUnless disturbed node now).2 =
      (t'.upsertUnless disturbed node' now').2 := by
    rw [h.left.upsertUnless_result, h.right.upsertUnless_result]
  refine ⟨hfault, ?_⟩
  cases hresult : (t.upsertUnless disturbed node now).2 with
  | ok =>
    rw [upsertUnless_of_ok hresult, upsertUnless_of_ok (hfault.symm.trans hresult)]
    exact h.putNode hrow
  | error e =>
    rw [upsertUnless_of_error hresult, upsertUnless_of_error (hfault.symm.trans hresult)]
    exact h

/-- An edge has the same identifier in both tables. -/
theorem addEdge (h : t.Redates t') (edge : NewEdge) :
    ∃ id u u', t.addEdge edge = .ok (id, u) ∧ t'.addEdge edge = .ok (id, u') ∧ u.Redates u' := by
  obtain ⟨nodes, nodes', edges, index, rfl, rfl, hgists⟩ := h
  exact ⟨_, _, _, rfl, rfl, nodes, nodes', edges.add edge, index, rfl, rfl, hgists⟩

/-! ## Reads -/

theorem node? (h : t.Redates t') (id : String) :
    (t.node? id).map (Option.map Node.undated) = (t'.node? id).map (Option.map Node.undated) :=
  h.shuffles.node? id

theorem nodesAt (h : t.Redates t') (path : String) :
    (t.nodesAt path).map (List.map Node.undated) =
      (t'.nodesAt path).map (List.map Node.undated) := by
  obtain ⟨nodes, nodes', edges, index, rfl, rfl, hgists⟩ := h
  have hread (nodes : NodeTable) : ((current nodes edges index).nodesAt path).map
      (List.map Node.undated) =
        ((nodes.rows.map NodeRow.gist).filter (·.1.filePath = some path)).mapM Prod.snd := by
    rw [nodesAt_of_some rfl, NodeRow.map_undated_mapM_decode, List.filter_map]
    rfl
  rw [hread, hread, hgists]

theorem edgesOf (h : t.Redates t') (id : String) : t.edgesOf id = t'.edgesOf id := by
  obtain ⟨nodes, nodes', edges, index, rfl, rfl, -⟩ := h
  rfl

theorem edgeCount (h : t.Redates t') : t.edgeCount = t'.edgeCount := by
  obtain ⟨nodes, nodes', edges, index, rfl, rfl, -⟩ := h
  rfl

theorem stats (h : t.Redates t') : t.stats = t'.stats := by
  obtain ⟨sizes, hsizes, hsizes'⟩ := h.shuffles.stats
  rw [hsizes, hsizes']

/-- Rows of the same gists are found, in the same order and by the same route. -/
theorem searchRows (h : t.Redates t') (engine : FullText.Engine) (text : String) (limit : ℕ) :
    (t.searchRows engine text limit).map (Prod.map (List.map NodeRow.gist) id) =
      (t'.searchRows engine text limit).map (Prod.map (List.map NodeRow.gist) id) := by
  obtain ⟨nodes, nodes', edges, index, rfl, rfl, hgists⟩ := h
  have hindexed (nodes : NodeTable) :
      ((current nodes edges index).indexedRows? engine text limit).map (List.map NodeRow.gist) =
        if limit = 0 then some []
        else (engine.matcher? text).map fun matcher =>
          ((matcher.rank (index.map fun row => (row.nodeId, row.texts))).filterMap
            fun id => (nodes.find? id).map NodeRow.gist).take limit := by
    rw [indexedRows?_eq rfl rfl]
    split
    · rfl
    · rw [Option.map_map]
      congr 1
      funext matcher
      rw [Function.comp, List.map_take, List.map_filterMap]
  have hscanned (nodes : NodeTable) :
      ((current nodes edges index).scannedRows text limit).map (List.map NodeRow.gist) =
        if limit ≠ 0 ∧ nodes.rows.map NodeRow.gist ≠ [] ∧
            FullText.Sought.maxPatternSize < (FullText.Sought.ofText text).patternSize then
          .error (.engine .patternTooComplex)
        else .ok (((nodes.rows.map NodeRow.gist).filter
          (·.1.holds (.ofText text))).take limit) := by
    rw [scannedRows_eq rfl]
    simp only [ne_eq, List.map_eq_nil_iff]
    split
    · rfl
    · rw [List.filter_map, ← List.map_take]
      rfl
  have hfind : (fun id => (nodes.find? id).map NodeRow.gist) = fun id =>
      (nodes'.find? id).map NodeRow.gist :=
    funext fun id => NodeTable.map_find?_of_perm (.of_eq hgists) id
  have hread (t : Tables) :
      (t.searchRows engine text limit).map (Prod.map (List.map NodeRow.gist) id) =
        match (t.indexedRows? engine text limit).map (List.map NodeRow.gist) with
        | some rows => .ok (rows, .index)
        | none => ((t.scannedRows text limit).map (List.map NodeRow.gist)).map fun rows =>
          (rows, .scan) := by
    rw [Tables.searchRows]
    cases t.indexedRows? engine text limit with
    | some rows => rfl
    | none => cases t.scannedRows text limit <;> rfl
  rw [hread, hread, hindexed, hindexed, hscanned, hscanned, hfind, hgists]

theorem search (h : t.Redates t') (engine : FullText.Engine) (text : String) (limit : UInt64) :
    (t.search engine text limit).map (Prod.map (List.map Node.undated) id) =
      (t'.search engine text limit).map (Prod.map (List.map Node.undated) id) := by
  have hread (t : Tables) :
      (t.search engine text limit).map (Prod.map (List.map Node.undated) id) =
        fault ((t.searchRows engine text limit.toNat).map (Prod.map (List.map NodeRow.gist) id)) >>=
          fun found => (found.1.mapM Prod.snd).map fun nodes => (nodes, found.2) := by
    rw [Tables.search]
    rcases t.searchRows engine text limit.toNat with e | ⟨rows, route⟩
    · rfl
    · simp only [fault, Except.mapError, Except.map, ok_bind, Prod.map,
        ← NodeRow.map_undated_mapM_decode]
      cases rows.mapM NodeRow.decode <;> rfl
  rw [hread, hread, h.searchRows]

end Redates

end Tables

end Ripple
