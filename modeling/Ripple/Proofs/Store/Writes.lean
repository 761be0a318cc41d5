import Ripple.Store.Database
import Ripple.Proofs.Except
import Ripple.Proofs.Files.Disk

/-!
# Writes

A `Write` stores a node or an edge in some tables. Storing a node keeps all of its writes
or none: whatever disturbs it, it comes to the undisturbed one if it succeeds
(`Tables.upsertUnless_of_ok`) and to nothing if it fails (`Tables.upsertUnless_of_error`).

`Tables.current` are the tables of a database whose schema is up to date. They stay so
under writes (`Write.apply_putNode`, `Write.apply_putEdge`), and bringing them up to date does
nothing (`Tables.migrate_current`).

The tables of a database are there whether it is open or not (`Workspace.contents`), but only
those of an open one are read or written (`Workspace.tables?_eq`, `Workspace.write_eq`).
-/

namespace Ripple

namespace Tables

variable {t : Tables} {writes : List (Tables → Except StorageFault Tables)} {e : StorageFault}
  {disturbed : UpsertStep → Option StorageFault} {node : Node} {now : Instant}

/-- Writes that fail together leave everything as it was. -/
theorem transact_of_error (h : (t.transact writes).2 = .error e) : (t.transact writes).1 = t := by
  rw [transact] at h ⊢
  split at h
  · cases h
  · rfl

/-- Writes that succeed together succeed one by one. -/
theorem exists_ok_of_foldlM {t' : Tables} (h : writes.foldlM (fun t write => write t) t = .ok t') :
    ∀ write ∈ writes, ∃ t₁ t₂, write t₁ = .ok t₂ := by
  induction writes generalizing t with
  | nil => simp
  | cons first rest ih =>
    rw [List.foldlM_cons] at h
    obtain ⟨next, hfirst, hrest⟩ := bind_eq_ok.1 h
    exact List.forall_mem_cons.2 ⟨⟨t, next, hfirst⟩, ih hrest⟩

theorem attempt_eq_ok {fault : Option StorageFault} {write : Tables → Except StorageFault Tables}
    {t' : Tables} : attempt fault write t = .ok t' ↔ fault = none ∧ write t = .ok t' := by
  cases fault <;> simp [attempt]

/-- What succeeds was not disturbed. -/
theorem disturbed_eq_none_of_ok (h : (t.upsertUnless disturbed node now).2 = .ok ()) :
    ∀ step, disturbed step = none := by
  rw [upsertUnless, transact] at h
  split at h
  · -- The four steps have all been taken, so none of them was disturbed.
    rename_i t' hwrites
    have hall := exists_ok_of_foldlM hwrites
    simp only [List.forall_mem_cons, attempt_eq_ok] at hall
    obtain ⟨⟨_, _, hnode, _⟩, ⟨_, _, hremove, _⟩, ⟨_, _, hadd, _⟩, ⟨_, _, hcommit, _⟩, _⟩ := hall
    intro step
    cases step <;> assumption
  · cases h

theorem upsertUnless_of_ok (h : (t.upsertUnless disturbed node now).2 = .ok ()) :
    t.upsertUnless disturbed node now = t.upsert node now := by
  rw [upsert, funext (disturbed_eq_none_of_ok h)]

/-- What fails changes nothing. -/
theorem upsertUnless_of_error (h : (t.upsertUnless disturbed node now).2 = .error e) :
    (t.upsertUnless disturbed node now).1 = t :=
  transact_of_error h

end Tables

/-- A node or an edge is stored. -/
inductive Write where
  /-- A node is stored at an instant. -/
  | putNode (node : Node) (now : Instant)
  /-- An edge is stored. -/
  | putEdge (edge : NewEdge)

/-- The tables after a write. -/
def Write.apply (t : Tables) : Write → Tables
  | .putNode node now => (t.upsert node now).1
  | .putEdge edge =>
    match t.addEdge edge with
    | .ok (_, t) => t
    | .error _ => t

/-! ## Tables that are up to date -/

namespace Tables

/-- The tables of a database whose schema is up to date. -/
def current (nodes : NodeTable) (edges : EdgeTable) (index : List IndexRow) : Tables :=
  ⟨some nodes, some edges, some index, some [1, 2]⟩

/-- The tables that a migration makes of none. -/
def fresh : Tables := current ⟨[], true, true, List.nodup_nil⟩ ⟨[], 0, true, true⟩ []

variable (nodes : NodeTable) (edges : EdgeTable) (index : List IndexRow)

theorem migrate_current :
    (current nodes edges index).migrate = (current nodes edges index, .ok ()) := rfl

theorem schemaStatus_current : (current nodes edges index).schemaStatus =
    (current nodes edges index, .ok ⟨2, 2, false⟩) := rfl

/-- The text index in which a node stands as it is now, in the last row. -/
def reindex (node : Node) (index : List IndexRow) : List IndexRow :=
  let others := index.filter (·.nodeId != node.id)
  others ++ [⟨nextNumber others, node.id, node.name, node.indexedContent⟩]

end Tables

/-- The table of edges with one more. -/
def EdgeTable.add (edge : NewEdge) (table : EdgeTable) : EdgeTable :=
  { table with
    rows := table.rows ++ [.ofEdge edge (table.lastId + 1)]
    lastId := table.lastId + 1 }

@[simp] theorem Write.apply_putNode (nodes : NodeTable) (edges : EdgeTable) (index : List IndexRow)
    (node : Node) (now : Instant) : apply (.current nodes edges index) (.putNode node now) =
      .current (nodes.put (.ofNode node now)) edges (Tables.reindex node index) := rfl

@[simp] theorem Write.apply_putEdge (nodes : NodeTable) (edges : EdgeTable) (index : List IndexRow)
    (edge : NewEdge) : apply (.current nodes edges index) (.putEdge edge) =
      .current nodes (edges.add edge) index := rfl

/-- Tables of a database whose schema is up to date. -/
def Tables.IsCurrent (t : Tables) : Prop := ∃ nodes edges index, t = current nodes edges index

namespace Tables.IsCurrent

variable {t : Tables}

theorem fresh : Tables.fresh.IsCurrent := ⟨_, _, _, rfl⟩

theorem ne_empty (h : t.IsCurrent) : t ≠ .empty := by
  obtain ⟨_, _, _, rfl⟩ := h
  simp [current, empty]

theorem migrate (h : t.IsCurrent) : t.migrate = (t, .ok ()) := by
  obtain ⟨_, _, _, rfl⟩ := h
  exact migrate_current _ _ _

theorem schemaStatus (h : t.IsCurrent) : t.schemaStatus = (t, .ok ⟨2, 2, false⟩) := by
  obtain ⟨_, _, _, rfl⟩ := h
  exact schemaStatus_current _ _ _

theorem apply (h : t.IsCurrent) (write : Write) : (write.apply t).IsCurrent := by
  obtain ⟨_, _, _, rfl⟩ := h
  cases write <;> exact ⟨_, _, _, rfl⟩

theorem foldl_apply (h : t.IsCurrent) (writes : List Write) :
    (writes.foldl Write.apply t).IsCurrent := by
  induction writes generalizing t with
  | nil => exact h
  | cons write writes ih => exact ih (h.apply write)

/-- A record to which each write adds what is `new?` in it has all of that after some writes. -/
theorem foldl_record {α : Type} {P : Tables → List α → Prop} {new? : Write → Option α}
    (ht : t.IsCurrent)
    (step : ∀ {t past}, t.IsCurrent → P t past → ∀ write,
      P (write.apply t) (past ++ (new? write).toList))
    {past : List α} (h : P t past) (writes : List Write) :
    P (writes.foldl Write.apply t) (past ++ writes.filterMap new?) := by
  induction writes generalizing t past with
  | nil => rwa [List.filterMap_nil, List.append_nil]
  | cons write writes ih =>
    have hrest := ih (ht.apply write) (step ht h write)
    rw [List.append_assoc] at hrest
    rw [List.foldl_cons]
    convert hrest using 2
    rw [List.filterMap_cons]
    cases new? write <;> rfl

end Tables.IsCurrent

/-! ## In a workspace -/

namespace Workspace

variable {w : Workspace} {t : Tables}

/-- The tables of the database, open or not. -/
def contents (w : Workspace) : Tables :=
  match w.database.backing with
  | .memory tables => tables
  | .file place =>
    match w.disk.at? place with
    | some (.database tables) => tables
    | _ => .empty
  | .adrift _ => .empty

theorem tables?_eq (w : Workspace) :
    w.tables? = if w.database.isOpen then some w.contents else none := by
  rw [tables?, contents]
  refine if_congr Iff.rfl ?_ rfl
  cases w.database.backing with
  | memory tables => rfl
  | file place =>
    dsimp only
    cases w.disk.at? place with
    | none => rfl
    | some entry => cases entry <;> rfl
  | adrift fault => rfl

theorem contents_of_tables? (h : w.tables? = some t) : w.contents = t := by
  rw [tables?_eq] at h
  split at h
  · exact Option.some.inj h
  · cases h

theorem isOpen_withTables (w : Workspace) (t : Tables) :
    (w.withTables t).database.isOpen = w.database.isOpen := by
  rw [withTables]
  split <;> rfl

/-- Tables are put in the place of others, if there are others or none are put. -/
theorem contents_withTables (h : w.contents = .empty → t = .empty) :
    (w.withTables t).contents = t := by
  rw [contents] at h
  rw [withTables]
  cases hb : w.database.backing with
  | memory tables => rfl
  | file place =>
    rw [hb] at h
    cases hbase : w.disk.isBase place with
    | false => simp [contents, hb, Disk.at?_put_self w.disk hbase]
    | true =>
      -- A directory holds no tables.
      simp only [Disk.at?, hbase, if_true, forall_const] at h
      simp [contents, hb, Disk.at?, hbase, h]
  | adrift fault =>
    rw [hb] at h
    simp [contents, hb, h rfl]

/-- A database that holds some tables holds others when they are put in their place. -/
theorem tables?_withTables (h : w.tables? = some t) (hne : t ≠ .empty) (t' : Tables) :
    (w.withTables t').tables? = some t' := by
  rw [tables?_eq] at h
  rw [tables?_eq, isOpen_withTables]
  split at h
  · rename_i hopen
    obtain rfl := Option.some.inj h
    rw [if_pos hopen, contents_withTables fun hempty => absurd hempty hne]
  · cases h

theorem write_of_tables? {α : Type} {f : Tables → Tables × Except StorageFault α}
    (h : w.tables? = some t) : w.write f = (w.withTables (f t).1, (f t).2) := by
  simp only [write, tables, h]

/-- A closed database fails a write. -/
theorem write_eq {α : Type} (w : Workspace) (f : Tables → Tables × Except StorageFault α) :
    w.write f = if w.database.isOpen then (w.withTables (f w.contents).1, (f w.contents).2)
      else (w, .error .closed) := by
  rw [write, tables, tables?_eq]
  cases w.database.isOpen <;> rfl

/-- Where there are tables, they are written as others are. -/
theorem setUp_of_tables? {α : Type} {f : Tables → Tables × Except StorageFault α}
    (h : w.tables? = some t) (hne : t ≠ .empty) :
    w.setUp f = (w.withTables (f t).1, (f t).2) := by
  rw [setUp]
  split
  · exact write_of_tables? h
  · exact write_of_tables? h
  · rename_i fault hbacking
    rw [← contents_of_tables? h, contents, hbacking] at hne
    exact absurd rfl hne

/-- Tables are made by a write, or nothing is changed. -/
theorem setUp_cases {α : Type} (w : Workspace) (f : Tables → Tables × Except StorageFault α) :
    w.setUp f = w.write f ∨ ∃ fault, w.setUp f = (w, .error fault) := by
  rw [setUp]
  split
  · exact .inl rfl
  · exact .inl rfl
  · rename_i fault _
    cases htables : w.tables with
    | error e => exact .inr ⟨e, rfl⟩
    | ok t => exact .inr ⟨fault, rfl⟩

section Change

variable {α : Type} {f : Tables → Except StorageFault (α × Tables)}

theorem change_of_ok {value : α} {t' : Tables} (h : w.tables? = some t)
    (hf : f t = .ok (value, t')) : w.change f = (w.withTables t', .ok value) := by
  simp only [change, tables, h, hf]

theorem change_of_error {e : StorageFault} (h : w.tables? = some t) (hf : f t = .error e) :
    w.change f = (w, .error e) := by
  simp only [change, tables, h, hf]

end Change

end Workspace

end Ripple
