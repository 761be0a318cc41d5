import Ripple.Proofs.Store.Location
import Ripple.Proofs.Store.Migration
import Ripple.Proofs.Store.Reopening
import Ripple.Proofs.Store.NodeTable
import Ripple.Proofs.Store.Rows

/-!
# What opening leaves

To open a database is to add nodes to no file (`Workspace.mem_nodes_openWith`). A database that is
opened at the path of a file lies in the file, and besides the file nothing is made but directories
and companions (`Workspace.openWith_eq_ok`). What is written to it afterwards is written to the
file, so that other files get no new nodes (`Workspace.RewritesWith.mem_nodes`). To close it is to
change no tables (`Workspace.tablesAt_close`).
-/

namespace Ripple

open SchemaStatement

/-! ## Rows -/

namespace Tables

variable {t t' : Tables}

/-- A statement of the schema changes no rows. -/
theorem rows_apply {s : SchemaStatement} (h : s.apply t = .ok t') : t'.rows = t.rows := by
  -- A statement that makes an index changes no more of a table than a mark.
  have hnodes {f : NodeTable → NodeTable} (hf : ∀ table, (f table).rows = table.rows)
      (h : (t.needNodes >>= fun table => pure { t with nodes := some (f table) }) = .ok t') :
      t'.rows = t.rows := by
    obtain ⟨table, htable, h⟩ := bind_eq_ok.1 h
    obtain rfl := Except.ok.inj h
    simp [rows, needNodes_eq_ok.1 htable, hf]
  have hedges {f : EdgeTable → EdgeTable} (hrows : ∀ table, (f table).rows = table.rows)
      (hlast : ∀ table, (f table).lastId = table.lastId)
      (h : (t.needEdges >>= fun table => pure { t with edges := some (f table) }) = .ok t') :
      t'.rows = t.rows := by
    obtain ⟨table, htable, h⟩ := bind_eq_ok.1 h
    obtain rfl := Except.ok.inj h
    simp [rows, needEdges_eq_ok.1 htable, hrows, hlast]
  cases s with
  | createVersions =>
    obtain rfl := Except.ok.inj h
    rfl
  | createNodes =>
    obtain rfl := Except.ok.inj h
    cases hn : t.nodes <;> simp [rows, hn, NodeTable.empty]
  | indexNodesByFile =>
    exact hnodes (f := fun table => { table with byFile := true }) (fun _ => rfl) h
  | indexNodesByKind =>
    exact hnodes (f := fun table => { table with byKind := true }) (fun _ => rfl) h
  | createEdges =>
    obtain rfl := Except.ok.inj h
    cases he : t.edges <;> simp [rows, he]
  | indexEdgesBySource =>
    exact hedges (f := fun table => { table with bySource := true }) (fun _ => rfl) (fun _ => rfl) h
  | indexEdgesByTarget =>
    exact hedges (f := fun table => { table with byTarget := true }) (fun _ => rfl) (fun _ => rfl) h
  | createIndex =>
    obtain rfl := Except.ok.inj h
    cases hi : t.index <;> simp [rows, hi]
  | record version =>
    rw [SchemaStatement.apply] at h
    split at h
    · cases h
    · split at h
      · cases h
      · obtain rfl := Except.ok.inj h
        rfl

theorem rows_runAll (ss : List SchemaStatement) : (t.runAll ss).1.rows = t.rows := by
  induction ss generalizing t with
  | nil => rfl
  | cons s ss ih =>
    rw [runAll]
    split
    · rfl
    · rename_i t₁ hs
      rw [ih, rows_apply hs]

/-- An attempt to bring the schema up to date changes no rows, even if it fails. -/
theorem rows_migrate (t : Tables) : t.migrate.1.rows = t.rows := by
  rw [migrate]
  split
  · rfl
  · exact rows_runAll _

/-! ## Rows of nodes -/

variable {row new : NodeRow}

theorem mem_nodes_putNode (h : t.putNode new = .ok t') (hrow : row ∈ t'.rows.nodes) :
    row ∈ t.rows.nodes ∨ row = new := by
  obtain ⟨table, htable, h⟩ := bind_eq_ok.1 h
  obtain rfl := Except.ok.inj h
  have hput : row ∈ NodeTable.putRow new table.rows := hrow
  rw [(NodeTable.perm_putRow new table.distinct).mem_iff, List.mem_cons] at hput
  rcases hput with rfl | hmem
  · exact .inr rfl
  · refine .inl ?_
    rw [rows, needNodes_eq_ok.1 htable]
    exact (List.mem_filter.1 hmem).1

theorem nodes_removeIndexed {id : String} (h : t.removeIndexed id = .ok t') :
    t'.rows.nodes = t.rows.nodes := by
  obtain ⟨index, -, h⟩ := bind_eq_ok.1 h
  obtain rfl := Except.ok.inj h
  rfl

theorem nodes_addIndexed {id name content : String} (h : t.addIndexed id name content = .ok t') :
    t'.rows.nodes = t.rows.nodes := by
  obtain ⟨index, -, h⟩ := bind_eq_ok.1 h
  obtain rfl := Except.ok.inj h
  rfl

/-- To store a node is to add its row to those of nodes and no other, whatever disturbs it. -/
theorem mem_nodes_upsertUnless {disturbed : UpsertStep → Option StorageFault} {node : Node}
    {now : Instant} (hrow : row ∈ (t.upsertUnless disturbed node now).1.rows.nodes) :
    row ∈ t.rows.nodes ∨ row = .ofNode node now := by
  rw [upsertUnless, transact] at hrow
  split at hrow
  · rename_i t' hwrites
    simp only [List.foldlM_cons, List.foldlM_nil, bind_eq_ok, attempt_eq_ok] at hwrites
    obtain ⟨t₁, ⟨-, hput⟩, t₂, ⟨-, hremove⟩, t₃, ⟨-, hadd⟩, t₄, ⟨-, hcommit⟩, hlast⟩ := hwrites
    obtain rfl := Except.ok.inj hcommit
    obtain rfl := Except.ok.inj hlast
    rw [nodes_addIndexed hadd, nodes_removeIndexed hremove] at hrow
    exact mem_nodes_putNode hput hrow
  · exact .inl hrow

theorem nodes_addEdge {edge : NewEdge} {id : ℤ} (h : t.addEdge edge = .ok (id, t')) :
    t'.rows.nodes = t.rows.nodes := by
  obtain ⟨table, -, h⟩ := bind_eq_ok.1 h
  obtain ⟨-, rfl⟩ := Prod.mk.inj (Except.ok.inj h)
  rfl

end Tables

namespace Disk

variable {disk disk' : Disk Tables}

/-- There are no tables in a directory. -/
theorem GainsDirectories.tablesAt (h : disk.GainsDirectories disk') (place : Place) :
    disk'.tablesAt place = disk.tablesAt place := by
  rcases h.gains place with hsame | ⟨hnone, hdirectory⟩
  · exact tablesAt_of_at?_eq hsame
  · rw [Disk.tablesAt, Disk.tablesAt, hnone, hdirectory]

end Disk

/-- A database keeps its tables in a file, or there are none. -/
def Backing.LiesIn (backing : Backing) (place : Place) : Prop :=
  backing = .file place ∨ ∃ fault, backing = .adrift fault

namespace Workspace

variable {w w' : Workspace} {place other : Place} {disk disk' : Disk Tables}
  {options : DatabaseOptions} {database : Database}

/-! ## Writing -/

/-- What is written to a database in a file changes nothing but the file. -/
theorem Rewrites.database_eq (h : w.Rewrites w') (hlies : w.database.backing.LiesIn place) :
    w'.database = w.database := by
  rcases h with rfl | ⟨t, rfl⟩
  · rfl
  · rcases hlies with hfile | ⟨fault, hadrift⟩
    · rw [withTables, hfile]
    · rw [withTables, hadrift]

/-- The tables of a database in a file are those in the file. -/
theorem contents_of_file (hfile : w.database.backing = .file place) :
    w.contents = w.disk.tablesAt place := by
  rw [contents, hfile]
  rfl

theorem mem_nodes_of_contents (hlies : w.database.backing.LiesIn place) {row : NodeRow}
    (hrow : row ∈ w.contents.rows.nodes) : row ∈ (w.disk.tablesAt place).rows.nodes := by
  rcases hlies with hfile | ⟨fault, hadrift⟩
  · rwa [← contents_of_file hfile]
  · rw [contents, hadrift] at hrow
    cases hrow

/-- To write tables of the same rows is to change the rows of no file. -/
theorem rows_withTables {t : Tables} (h : t.rows = w.contents.rows) (other : Place) :
    ((w.withTables t).disk.tablesAt other).rows = (w.disk.tablesAt other).rows := by
  cases hbacking : w.database.backing with
  | memory tables => rw [withTables, hbacking]
  | file place =>
    rw [contents_of_file hbacking] at h
    rw [withTables, hbacking]
    dsimp only
    rw [Disk.tablesAt_put]
    split
    · rename_i hother
      rw [hother.1, h]
    · rfl
  | adrift fault => rw [withTables, hbacking]

/-- The second workspace is the first one, or what writing tables makes of it, in which a node is
    an old one or one that is new. -/
def RewritesWith (new : Option NodeRow) (w w' : Workspace) : Prop :=
  w' = w ∨ ∃ t, w' = w.withTables t ∧
    ∀ row ∈ t.rows.nodes, row ∈ w.contents.rows.nodes ∨ row ∈ new

theorem rewritesWith_write {α : Type} {new : Option NodeRow} (w : Workspace)
    {f : Tables → Tables × Except StorageFault α}
    (hf : ∀ t, ∀ row ∈ (f t).1.rows.nodes, row ∈ t.rows.nodes ∨ row ∈ new) :
    w.RewritesWith new (w.write f).1 := by
  rw [write_eq]
  split
  · exact .inr ⟨_, rfl, hf _⟩
  · exact .inl rfl

theorem rewritesWith_setUp {α : Type} {new : Option NodeRow} (w : Workspace)
    {f : Tables → Tables × Except StorageFault α}
    (hf : ∀ t, ∀ row ∈ (f t).1.rows.nodes, row ∈ t.rows.nodes ∨ row ∈ new) :
    w.RewritesWith new (w.setUp f).1 := by
  rcases w.setUp_cases f with hwrite | ⟨fault, hfault⟩
  · exact hwrite ▸ rewritesWith_write w hf
  · exact .inl (by rw [hfault])

theorem rewritesWith_change {α : Type} {new : Option NodeRow} (w : Workspace)
    {f : Tables → Except StorageFault (α × Tables)}
    (hf : ∀ t value t', f t = .ok (value, t') → t'.rows.nodes = t.rows.nodes) :
    w.RewritesWith new (w.change f).1 := by
  cases ht : w.tables? with
  | none => exact .inl (by simp [change, tables, ht])
  | some t =>
    cases hchange : f t with
    | error e => exact .inl (by rw [change_of_error ht hchange])
    | ok changed =>
      obtain ⟨value, t'⟩ := changed
      rw [change_of_ok ht hchange]
      refine .inr ⟨t', rfl, fun row hrow => .inl ?_⟩
      rwa [hf _ _ _ hchange, ← contents_of_tables? ht] at hrow

namespace RewritesWith

variable {new : Option NodeRow}

theorem rewrites (h : w.RewritesWith new w') : w.Rewrites w' :=
  h.imp_right fun ⟨t, ht, _⟩ => ⟨t, ht⟩

/-- Only in the file of the database are there new nodes. -/
theorem mem_nodes (h : w.RewritesWith new w') (hlies : w.database.backing.LiesIn place)
    {row : NodeRow} (hrow : row ∈ (w'.disk.tablesAt other).rows.nodes) :
    row ∈ (w.disk.tablesAt other).rows.nodes ∨ other = place ∧ row ∈ new := by
  rcases h with rfl | ⟨t, rfl, ht⟩
  · exact .inl hrow
  rcases hlies with hfile | ⟨fault, hadrift⟩
  · rw [withTables, hfile] at hrow
    dsimp only at hrow
    rw [Disk.tablesAt_put] at hrow
    split at hrow
    · rename_i hother
      rw [contents_of_file hfile] at ht
      exact (ht row hrow).imp (fun hmem => hother.1 ▸ hmem) fun hmem => ⟨hother.1, hmem⟩
    · exact .inl hrow
  · rw [withTables, hadrift] at hrow
    exact .inl hrow

end RewritesWith

/-! ## Opening -/

/-- A directory is made for a database, and nothing else. -/
theorem gainsDirectories_prepareDirectory (path : String) (disk : Disk Tables) :
    disk.GainsDirectories (prepareDirectory path disk).1 := by
  rw [prepareDirectory]
  split
  · exact .refl disk
  rename_i parent _
  have hparent := disk.gainsDirectories_makeDirectories parent
  split
  · exact .refl disk
  · split
    · rename_i hmade
      rwa [hmade] at hparent
    · rename_i hmade
      rwa [hmade] at hparent

/-- A directory is made for a database, and then a file is opened or nothing else is done. -/
theorem openPlain_disk (options : DatabaseOptions) (disk : Disk Tables) :
    (openPlain options disk).1 = (prepareDirectory options.path disk).1 ∨
      ∃ path, (openPlain options disk).1 =
        (openFile options path (prepareDirectory options.path disk).1).1 := by
  rw [openPlain]
  split
  · rename_i hmade
    exact .inl (by rw [hmade])
  rename_i hmade
  rw [hmade]
  dsimp only
  split
  · exact .inl rfl
  · exact .inl rfl
  · exact .inl rfl
  · exact .inl rfl
  · rename_i path _
    refine .inr ⟨path, ?_⟩
    split
    · rename_i hopen
      rw [hopen]
    · rename_i hopen
      rw [hopen]

theorem tablesAt_openPlain (options : DatabaseOptions) (disk : Disk Tables) (other : Place) :
    (openPlain options disk).1.tablesAt other = disk.tablesAt other ∨
      (openPlain options disk).1.tablesAt other = .empty := by
  rw [← (gainsDirectories_prepareDirectory options.path disk).tablesAt other]
  rcases openPlain_disk options disk with hsame | ⟨path, hfile⟩
  · exact .inl (by rw [hsame])
  · rw [hfile]
    exact tablesAt_openFile options path _ other

theorem working_openPlain (options : DatabaseOptions) (disk : Disk Tables) :
    (openPlain options disk).1.working = disk.working := by
  rw [← (gainsDirectories_prepareDirectory options.path disk).working]
  rcases openPlain_disk options disk with hsame | ⟨path, hfile⟩
  · rw [hsame]
  · rw [hfile, (keptIn_openFile options path _).working]

/-! ## Closing -/

/-- To close a database is to change nothing on the disk but what lies beside its file. -/
theorem changesBeside_close (w : Workspace) :
    w.close.disk = w.disk ∨ ∃ place, w.database.backing = .file place ∧
      Disk.ChangesBeside w.database.options.journalMode place w.disk w.close.disk := by
  rw [close]
  split
  · exact .inl rfl
  · exact .inr ⟨_, ‹_›, Disk.changesBeside_release _ _ _⟩
  · exact .inl rfl

theorem isOpen_close (w : Workspace) : w.close.database.isOpen = false := by
  rw [close]
  split <;> rfl

theorem working_close (w : Workspace) : w.close.disk.working = w.disk.working := by
  rcases w.changesBeside_close with hsame | ⟨place, -, hbeside⟩
  · rw [hsame]
  · exact hbeside.working

theorem tablesAt_close (w : Workspace) (other : Place) :
    w.close.disk.tablesAt other = w.disk.tablesAt other ∨
      w.close.disk.tablesAt other = .empty := by
  rcases w.changesBeside_close with hsame | ⟨place, -, hbeside⟩
  · exact .inl (by rw [hsame])
  · exact hbeside.tablesAt other

/-- A database in a file that is closed is in the same file. -/
theorem backing_close (hlies : w.database.backing.LiesIn place) :
    w.close.database.backing.LiesIn place ∧
      w.close.database.options = w.database.options := by
  rcases hlies with hfile | ⟨fault, hadrift⟩
  · simp only [close, hfile]
    exact ⟨.inl rfl, trivial⟩
  · simp only [close, hadrift]
    exact ⟨.inr ⟨fault, rfl⟩, trivial⟩

/-! ## Opening with a schema -/

/-- To bring the schema up to date is to change the rows of no file, even if it fails. -/
theorem rows_migrate (w : Workspace) (other : Place) :
    (w.migrate.1.disk.tablesAt other).rows = (w.disk.tablesAt other).rows := by
  have hsetUp : w.migrate.1 = (w.setUp Tables.migrate).1 := rfl
  rw [hsetUp]
  rcases w.setUp_cases Tables.migrate with hwrite | ⟨fault, hfault⟩
  · rw [hwrite, write_eq]
    split
    · exact rows_withTables (Tables.rows_migrate _) other
    · rfl
  · rw [hfault]

/-- Where there are the tables that there were, or none, there is no new node. -/
theorem mem_nodes_of_tablesAt {row : NodeRow}
    (h : disk'.tablesAt other = disk.tablesAt other ∨ disk'.tablesAt other = .empty)
    (hrow : row ∈ (disk'.tablesAt other).rows.nodes) : row ∈ (disk.tablesAt other).rows.nodes := by
  rcases h with hsame | hempty
  · rwa [hsame] at hrow
  · rw [hempty] at hrow
    cases hrow

/-- A database is opened and left as it is, or its schema is brought up to date; if that fails, it
    is closed. -/
theorem openWith_disk (options : DatabaseOptions) (disk : Disk Tables) :
    (openWith options disk).1 = (openPlain options disk).1 ∨
      ∃ w : Workspace, w.disk = (openPlain options disk).1 ∧
        ((openWith options disk).1 = w.migrate.1.disk ∨
          (openWith options disk).1 = w.migrate.1.close.disk) := by
  rw [openWith]
  split
  · rename_i hopen
    exact .inl (by rw [hopen])
  rename_i disk₁ database hopen
  rw [hopen]
  dsimp only
  split
  · refine .inr ⟨⟨disk₁, database⟩, rfl, ?_⟩
    split
    · rename_i hmigrate
      exact .inr (by rw [hmigrate])
    · rename_i hmigrate
      exact .inl (by rw [hmigrate])
  · exact .inl rfl

/-- To open a database is to add nodes to no file, even if it fails. -/
theorem mem_nodes_openWith (options : DatabaseOptions) (disk : Disk Tables) (other : Place)
    (row : NodeRow) (hrow : row ∈ ((openWith options disk).1.tablesAt other).rows.nodes) :
    row ∈ (disk.tablesAt other).rows.nodes := by
  refine mem_nodes_of_tablesAt (tablesAt_openPlain options disk other) ?_
  rcases openWith_disk options disk with hsame | ⟨w, hw, hmigrate | hclose⟩
  · rwa [hsame] at hrow
  · rwa [hmigrate, rows_migrate, hw] at hrow
  · rw [hclose] at hrow
    have hmem := mem_nodes_of_tablesAt (tablesAt_close _ other) hrow
    rwa [rows_migrate, hw] at hmem

theorem Rewrites.working (h : w.Rewrites w') : w'.disk.working = w.disk.working := by
  rcases h with rfl | ⟨t, rfl⟩
  · rfl
  · rw [withTables]
    split <;> rfl

theorem working_openWith (options : DatabaseOptions) (disk : Disk Tables) :
    (openWith options disk).1.working = disk.working := by
  rw [← working_openPlain options disk]
  rcases openWith_disk options disk with hsame | ⟨w, hw, hmigrate | hclose⟩
  · rw [hsame]
  · rw [hmigrate, (rewrites_migrate w).working, hw]
  · rw [hclose, working_close, (rewrites_migrate w).working, hw]

/-- Besides a database at a place nothing is made but directories and companions of the database,
    and nothing is taken away but what lies where companions belong. -/
def Makes (mode : JournalMode) (place : Place) (disk disk' : Disk Tables) : Prop :=
  (∃ t, disk'.at? place = some (.database t)) ∧
    ∀ other ≠ place, disk'.at? other = disk.at? other ∨
      disk.at? other = none ∧ disk'.at? other = some .directory ∨
      other ∈ mode.beside place ∧ (disk'.at? other = some .companion ∨ disk'.at? other = none)

/-- What is written to a database is no more than the database. -/
theorem Makes.of_rewrites {mode : JournalMode} (h : Makes mode place disk w.disk)
    (hlies : w.database.backing.LiesIn place) (hw : w.Rewrites w') :
    Makes mode place disk w'.disk := by
  obtain ⟨⟨old, hold⟩, hothers⟩ := h
  rcases hw with rfl | ⟨t, rfl⟩
  · exact ⟨⟨old, hold⟩, hothers⟩
  rcases hlies with hfile | ⟨fault, hadrift⟩
  · have hentry : w.disk.at? place ≠ some .directory := by simp [hold]
    rw [withTables, hfile]
    refine ⟨⟨t, Disk.at?_put_self _ (Disk.isBase_eq_false hentry) _⟩, fun other hne => ?_⟩
    rw [w.disk.at?_put_of_ne _ hne]
    exact hothers other hne
  · rw [withTables, hadrift]
    exact ⟨⟨old, hold⟩, hothers⟩

theorem openPlain_eq_ok {path : String}
    (hlocation : Location.ofPath options.path = .ok (.file path))
    (h : openPlain options disk = (disk', .ok database)) :
    database.options = options ∧ database.backing.LiesIn (disk.placeOf path) ∧
      Makes options.journalMode (disk.placeOf path) disk disk' := by
  have hgains := gainsDirectories_prepareDirectory options.path disk
  obtain ⟨disk₁, hprepare, hopen, hoptions⟩ := openPlain_of_ofPath hlocation h
  rw [hprepare] at hgains
  obtain ⟨-, disk₂, backing, hconnect, hmade⟩ := openFile_eq_ok hopen
  rw [hgains.placeOf] at hconnect hmade
  obtain ⟨hadmits, -, hbacking⟩ := Disk.connect_eq_ok hconnect
  obtain ⟨hplace, hothers⟩ := Disk.at?_of_connect hconnect
  have hbeside : Disk.ChangesBeside options.journalMode (disk.placeOf path) disk₂ disk' := by
    obtain ⟨-, rfl⟩ | ⟨-, rfl⟩ := hmade
    · exact .refl _
    · exact Disk.changesBeside_release _ _ _
  refine ⟨hoptions, ?_, ⟨disk₁.tablesAt (disk.placeOf path), ?_⟩, fun other hne => ?_⟩
  · obtain ⟨rfl, -⟩ | ⟨hadrift, -⟩ := hmade
    · exact hbacking.imp And.left fun hadrift => ⟨_, hadrift.1⟩
    · exact .inr hadrift
  · rw [hbeside.at?_of_not_mem (Disk.not_mem_beside (Disk.ne_nil_of_admits hadmits)), hplace]
  · rcases hbeside.changes other with hsame | ⟨hmem, -, hchange⟩
    · rw [hsame]
      rcases hothers other hne with hsame' | hchange
      · rw [hsame']
        exact (hgains.gains other).imp_right .inl
      · exact .inr (.inr hchange)
    · exact .inr (.inr ⟨hmem, hchange⟩)

/-- What is opened at the path of a file lies in the file. -/
theorem openWith_eq_ok {path : String} (hlocation : Location.ofPath options.path = .ok (.file path))
    (h : openWith options disk = (disk', .ok w)) :
    w.disk = disk' ∧ w.database.options = options ∧
      w.database.backing.LiesIn (disk.placeOf path) ∧
      Makes options.journalMode (disk.placeOf path) disk disk' := by
  obtain ⟨disk₁, database, hplain, hrewrites, rfl⟩ := exists_of_openWith h
  obtain ⟨hoptions, hlies, hmakes⟩ := openPlain_eq_ok hlocation hplain
  rw [hrewrites.database_eq hlies]
  exact ⟨rfl, hoptions, hlies, hmakes.of_rewrites hlies hrewrites⟩

/-- A database in a file that is opened again stays in its file, and adds nodes to no file, even if
    it cannot be opened. -/
theorem reopen_of_liesIn {path : String} (hlies : w.database.backing.LiesIn (w.disk.placeOf path))
    (hlocation : Location.ofPath w.database.options.path = .ok (.file path)) :
    w.reopen.1.database.backing.LiesIn (w.disk.placeOf path) ∧
      w.reopen.1.database.options = w.database.options ∧
      w.reopen.1.disk.working = w.disk.working ∧
      ∀ other, ∀ row ∈ (w.reopen.1.disk.tablesAt other).rows.nodes,
        row ∈ (w.disk.tablesAt other).rows.nodes := by
  obtain ⟨hclosed, hoptions⟩ := backing_close hlies
  have hworking := (working_openWith w.close.database.options w.close.disk).trans w.working_close
  have hnodes := fun other row hrow => mem_nodes_of_tablesAt (w.tablesAt_close other)
    (mem_nodes_openWith w.close.database.options w.close.disk other row hrow)
  rw [reopen]
  split
  · rename_i disk₁ e hopen
    rw [hopen] at hworking hnodes
    exact ⟨hclosed, hoptions, hworking, hnodes⟩
  · rename_i disk₁ w₁ hopen
    rw [← hoptions] at hlocation
    obtain ⟨rfl, hoptions', hlies, -⟩ := openWith_eq_ok hlocation hopen
    rw [Disk.placeOf_of_working w.working_close] at hlies
    rw [hopen] at hworking hnodes
    exact ⟨hlies, hoptions'.trans hoptions, hworking, hnodes⟩

/-- A plain path at which a database is opened leads to the file at it. -/
theorem ofPath_of_openWith (hplain : Location.IsPlain options.path)
    (h : openWith options disk = (disk', .ok w)) :
    Location.ofPath options.path = .ok (.file options.path) := by
  obtain ⟨disk₁, database, hopen, -, -⟩ := exists_of_openWith h
  exact ofPath_of_openPlain hplain hopen

end Workspace

end Ripple
