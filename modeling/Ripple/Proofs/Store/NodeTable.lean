import Ripple.Store.Tables
import Mathlib.Data.List.Perm.Basic

/-!
# Putting rows

A row that is put takes the place of the one with its identifier, or the last place. So
the identifiers stay in the order in which they were put first (`ids_putRow`), each with
the row that was put last (`find?_putRow`), and the other rows stay (`perm_putRow`).
-/

namespace Ripple.NodeTable

variable (row : NodeRow) (rows : List NodeRow)

theorem find?_putRow (id : String) :
    (putRow row rows).find? (·.id = id) =
      if row.id = id then some row else rows.find? (·.id = id) := by
  induction rows with
  | nil => by_cases h : row.id = id <;> simp [putRow, h]
  | cons other rest ih =>
    by_cases hother : other.id = row.id
    · rw [putRow, if_pos hother]
      by_cases h : row.id = id
      · simp [h]
      · simp [h, hother]
    · -- The row before which the search goes on is not the one that is replaced.
      rw [putRow, if_neg hother, List.find?_cons, List.find?_cons, ih]
      by_cases h : other.id = id
      · have : row.id ≠ id := fun he => hother (h.trans he.symm)
        simp [h, this]
      · simp [h]

theorem ids_putRow :
    (putRow row rows).map NodeRow.id =
      if row.id ∈ rows.map NodeRow.id then rows.map NodeRow.id
      else rows.map NodeRow.id ++ [row.id] := by
  induction rows with
  | nil => simp [putRow]
  | cons other rest ih =>
    by_cases hother : other.id = row.id
    · simp [putRow, hother]
    · rw [putRow, if_neg hother, List.map_cons, ih]
      by_cases hrest : row.id ∈ rest.map NodeRow.id
      · simp only [hrest, if_true, List.map_cons, List.mem_cons, or_true]
      · simp only [hrest, if_false, List.map_cons, List.mem_cons, Ne.symm hother, or_self,
          List.cons_append]

variable {row : NodeRow} {rows : List NodeRow}

/-- A row with a new identifier comes last. -/
theorem putRow_of_not_mem (h : row.id ∉ rows.map NodeRow.id) : putRow row rows = rows ++ [row] := by
  induction rows with
  | nil => rfl
  | cons other rest ih =>
    rw [List.map_cons, List.mem_cons, not_or] at h
    rw [putRow, if_neg (Ne.symm h.1), ih h.2, List.cons_append]

/-- Putting a row leaves those with other identifiers. -/
theorem perm_putRow (row : NodeRow) {rows : List NodeRow} (h : (rows.map NodeRow.id).Nodup) :
    (putRow row rows).Perm (row :: rows.filter (·.id ≠ row.id)) := by
  induction rows with
  | nil => exact .rfl
  | cons other rest ih =>
    rw [List.map_cons, List.nodup_cons] at h
    by_cases hother : other.id = row.id
    · -- The identifiers are distinct, so this was the only one.
      have hrest : rest.filter (·.id ≠ row.id) = rest :=
        List.filter_eq_self.2 fun third hthird => decide_eq_true fun he =>
          h.1 ((hother.trans he.symm) ▸ List.mem_map_of_mem hthird)
      rw [putRow, if_pos hother, List.filter_cons_of_neg (by simpa using hother), hrest]
    · rw [putRow, if_neg hother, List.filter_cons_of_pos (by simpa using hother)]
      exact ((ih h.2).cons other).trans (.swap row other _)

/-- A row that is put takes the place of the one with its identifier. -/
theorem perm_cons_putRow {old : NodeRow} (h : rows.find? (·.id = row.id) = some old) :
    (old :: putRow row rows).Perm (row :: rows) := by
  induction rows with
  | nil => cases h
  | cons other rest ih =>
    by_cases hother : other.id = row.id
    · rw [List.find?_cons_of_pos (by simpa using hother)] at h
      obtain rfl := Option.some.inj h
      rw [putRow, if_pos hother]
      exact .swap row other rest
    · rw [List.find?_cons_of_neg (by simpa using hother)] at h
      rw [putRow, if_neg hother]
      exact (List.Perm.swap other old _).trans (((ih h).cons other).trans (.swap row other rest))

/-- Putting a row leaves the others as they stand. -/
theorem filter_ne_putRow (row : NodeRow) (rows : List NodeRow) :
    (putRow row rows).filter (·.id ≠ row.id) = rows.filter (·.id ≠ row.id) := by
  induction rows with
  | nil => simp [putRow]
  | cons other rest ih =>
    by_cases hother : other.id = row.id
    · rw [putRow, if_pos hother, List.filter_cons_of_neg (by simp),
        List.filter_cons_of_neg (by simp [hother])]
    · rw [putRow, if_neg hother, List.filter_cons, List.filter_cons, ih]

/-- Putting a row changes nothing among rows of which neither it nor the one that it replaces
    is one. -/
theorem filter_putRow_of_not {p : NodeRow → Bool} (hrow : ¬p row)
    (hold : ∀ other ∈ rows, other.id = row.id → ¬p other) :
    (putRow row rows).filter p = rows.filter p := by
  induction rows with
  | nil => simp [putRow, hrow]
  | cons other rest ih =>
    rw [List.forall_mem_cons] at hold
    by_cases hother : other.id = row.id
    · rw [putRow, if_pos hother, List.filter_cons_of_neg hrow,
        List.filter_cons_of_neg (hold.1 hother)]
    · rw [putRow, if_neg hother, List.filter_cons, List.filter_cons, ih hold.2]

/-- A row that is put is the only one of its identifier. -/
theorem filter_eq_putRow (row : NodeRow) {rows : List NodeRow} (h : (rows.map NodeRow.id).Nodup) :
    (putRow row rows).filter (·.id = row.id) = [row] := by
  have hothers : (rows.filter (·.id ≠ row.id)).filter (·.id = row.id) = [] := by simp
  have hperm := (perm_putRow row h).filter (·.id = row.id)
  rw [List.filter_cons_of_pos (by simp), hothers] at hperm
  exact List.perm_singleton.1 hperm

/-- The row of an identifier is the only one. -/
theorem find?_eq_of_mem (h : (rows.map NodeRow.id).Nodup) (hrow : row ∈ rows) :
    rows.find? (·.id = row.id) = some row := by
  induction rows with
  | nil => exact absurd hrow List.not_mem_nil
  | cons other rest ih =>
    rw [List.map_cons, List.nodup_cons] at h
    rcases List.mem_cons.1 hrow with rfl | hrest
    · simp
    · have hne : other.id ≠ row.id := fun he => h.1 (he ▸ List.mem_map_of_mem hrest)
      rw [List.find?_cons_of_neg (by simpa using hne)]
      exact ih h.2 hrest

/-- Rows of a table are those of their identifiers. -/
theorem filterMap_find?_ids_of_subset (h : (rows.map NodeRow.id).Nodup) {some_ : List NodeRow}
    (hsome : some_ ⊆ rows) :
    (some_.map NodeRow.id).filterMap (fun id => rows.find? (·.id = id)) = some_ := by
  rw [List.filterMap_map]
  exact (List.filterMap_congr fun row hrow => find?_eq_of_mem h (hsome hrow)).trans
    List.filterMap_some

/-- The rows are those of their identifiers. -/
theorem filterMap_find?_ids (h : (rows.map NodeRow.id).Nodup) :
    (rows.map NodeRow.id).filterMap (fun id => rows.find? (·.id = id)) = rows :=
  filterMap_find?_ids_of_subset h fun _ hrow => hrow

end Ripple.NodeTable
