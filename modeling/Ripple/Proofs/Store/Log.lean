import Ripple.Proofs.Store.History
import Mathlib.Data.List.Indexes

/-!
# What edges have been stored

Edges are never replaced or removed, so the table of edges is a log. Its rows are the edges that
were stored, in order of time and numbered from one (`Tables.Logs`). A write adds the edge that
it stores, if it stores one (`Tables.Logs.apply`). A row can be read if and only if the metadata
do not nest too deeply (`EdgeRow.exists_decode_iff`).
-/

namespace Ripple

/-- The edge that a write stores. -/
def Write.edge? : Write → Option NewEdge
  | .putNode _ _ => none
  | .putEdge edge => some edge

/-- The rows of a table are those of the edges that were stored. -/
structure EdgeTable.Logs (table : EdgeTable) (past : List NewEdge) : Prop where
  /-- The rows stand in order of time, numbered from one. -/
  rows : table.rows = past.mapIdx fun i edge => .ofEdge edge (i + 1)
  /-- The last number is that of the last edge. -/
  lastId : table.lastId = past.length

namespace EdgeTable.Logs

variable {table : EdgeTable} {past : List NewEdge}

theorem nil : Logs ⟨[], 0, true, true⟩ [] := ⟨rfl, rfl⟩

theorem add (h : table.Logs past) (edge : NewEdge) : (table.add edge).Logs (past ++ [edge]) where
  rows := by
    rw [List.mapIdx_concat, ← h.rows, ← h.lastId]
    rfl
  lastId := by
    rw [List.length_append, List.length_singleton, ← h.lastId]
    rfl

/-- All rows are as the edges are of which they were made. -/
theorem forall_rows_iff (h : table.Logs past) {p : EdgeRow → Prop} {q : NewEdge → Prop}
    (hpq : ∀ edge ∈ past, ∀ id, p (.ofEdge edge id) ↔ q edge) :
    (∀ row ∈ table.rows, p row) ↔ ∀ edge ∈ past, q edge := by
  rw [h.rows]
  constructor
  · intro hrows edge hedge
    obtain ⟨i, hi, rfl⟩ := List.getElem_of_mem hedge
    exact (hpq _ hedge _).1 (hrows _ (List.mem_mapIdx.2 ⟨i, hi, rfl⟩))
  · intro hedges row hrow
    obtain ⟨i, hi, rfl⟩ := List.mem_mapIdx.1 hrow
    have hedge : past[i] ∈ past := List.getElem_mem hi
    exact (hpq _ hedge _).2 (hedges _ hedge)

end EdgeTable.Logs

namespace Tables

/-- The table of edges is that of the edges that were stored. -/
def Logs (t : Tables) (past : List NewEdge) : Prop :=
  ∃ table, t.edges = some table ∧ table.Logs past

variable {t : Tables} {past : List NewEdge}

theorem logs_fresh : fresh.Logs [] := ⟨_, rfl, .nil⟩

/-- A write adds the edge that it stores to those that were stored. -/
theorem Logs.apply (h : t.Logs past) (ht : t.IsCurrent) (write : Write) :
    (write.apply t).Logs (past ++ write.edge?.toList) := by
  obtain ⟨nodes, edges, index, rfl⟩ := ht
  obtain ⟨table, htable, h⟩ := h
  obtain rfl : edges = table := Option.some.inj htable
  cases write with
  | putNode node now =>
    rw [Write.edge?, Option.toList_none, List.append_nil]
    exact ⟨_, rfl, h⟩
  | putEdge edge => exact ⟨_, rfl, h.add edge⟩

/-- Writes add the edges that they store to those that were stored. -/
theorem Logs.foldl_apply (h : t.Logs past) (ht : t.IsCurrent) (writes : List Write) :
    (writes.foldl Write.apply t).Logs (past ++ writes.filterMap Write.edge?) :=
  ht.foldl_record (P := Logs) (fun ht h write => h.apply ht write) h writes

end Tables

/-! ## What is read -/

/-- A row of an edge can be read if and only if its metadata can. -/
theorem EdgeRow.exists_decode_ofEdge_iff {edge : NewEdge} {id : ℤ} :
    (∃ e, (ofEdge edge id).decode = .ok e) ↔
      ∃ metadata, decodeMetadata (edge.metadata.map Json.text) = .ok metadata := by
  constructor
  · rintro ⟨e, he⟩
    obtain ⟨metadata, hmetadata, -⟩ := decode_eq_ok.1 he
    exact ⟨metadata, hmetadata⟩
  · rintro ⟨metadata, hmetadata⟩
    exact ⟨_, decode_eq_ok.2 ⟨metadata, hmetadata, rfl⟩⟩

/-- A row of an edge can be read if and only if the metadata do not nest too deeply. -/
theorem EdgeRow.exists_decode_iff {edge : NewEdge} {id : ℤ}
    (hsound : ∀ value ∈ edge.metadata, value.Sound) :
    (∃ e, (ofEdge edge id).decode = .ok e) ↔
      ∀ value ∈ edge.metadata, value.depth ≤ Json.depthLimit := by
  rw [exists_decode_ofEdge_iff, exists_decodeMetadata_iff hsound]

end Ripple
