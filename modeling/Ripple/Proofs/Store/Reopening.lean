import Ripple.Proofs.Store.Connection
import Ripple.Proofs.Store.Location
import Ripple.Proofs.Store.Writes

/-!
# Opening a file again

A database rests on its file if the path at which it was opened leads to the file, through
directories that are there, and if the file holds tables (`Workspace.Rests`). So does one that has
just been opened at a plain path (`Workspace.rests_of_openWith`). It goes on resting there while its
tables are read and written (`Workspace.Rests.of_rewrites`) and when it is closed
(`Workspace.Rests.close`).

A database that rests on its file can be opened again, and then it holds the tables that it held
before, if these are up to date (`Workspace.Rests.reopen`).
-/

namespace Ripple

namespace Workspace

variable {w w' : Workspace} {place : Place} {disk disk' : Disk Tables} {options : DatabaseOptions}
  {database : Database} {t : Tables} {path : String} {backing : Backing}

/-! ## Opening a file -/

/-- How a file is opened: there is a connection, and if the path does not lead there again, then it
    is of no use. -/
theorem openFile_eq_ok (h : openFile options path disk = (disk', .ok backing)) :
    disk.reaches path ∧ ∃ disk₁ backing₁,
      disk.connect options.journalMode (disk.placeOf path) = (disk₁, .ok backing₁) ∧
      (backing = backing₁ ∧ disk' = disk₁ ∨ (∃ fault, backing = .adrift fault) ∧
        disk' = disk₁.release options.journalMode (disk.placeOf path)) := by
  rw [openFile] at h
  split at h
  · rename_i hreaches
    refine ⟨hreaches, ?_⟩
    split at h
    · rename_i disk₁ place hconnect
      refine ⟨disk₁, .file place, hconnect, ?_⟩
      split at h
      · obtain ⟨rfl, hbacking⟩ := Prod.mk.inj h
        exact .inl ⟨(Except.ok.inj hbacking).symm, rfl⟩
      · obtain ⟨rfl, hbacking⟩ := Prod.mk.inj h
        rw [(Disk.serves_of_connect hconnect).1]
        exact .inr ⟨⟨_, (Except.ok.inj hbacking).symm⟩, rfl⟩
    · exact ⟨disk', backing, h, .inl ⟨rfl, rfl⟩⟩
  · cases (Prod.mk.inj h).2

/-- Whatever comes of it, the second disk is what a connection leaves, but for companions. -/
theorem changesBeside_openFile (options : DatabaseOptions) (path : String) (disk : Disk Tables) :
    (openFile options path disk).1 = disk ∨
      Disk.ChangesBeside options.journalMode (disk.placeOf path)
        (disk.connect options.journalMode (disk.placeOf path)).1
        (openFile options path disk).1 := by
  rw [openFile]
  split
  · right
    split
    · rename_i hconnect
      rw [hconnect]
      split
      · exact .refl _
      · rw [(Disk.serves_of_connect hconnect).1]
        exact Disk.changesBeside_release _ _ _
    · exact .refl _
  · exact .inl rfl

theorem keptIn_openFile (options : DatabaseOptions) (path : String) (disk : Disk Tables) :
    disk.KeptIn (openFile options path disk).1 := by
  rcases changesBeside_openFile options path disk with hsame | hbeside
  · rw [hsame]
    exact .refl disk
  · exact (disk.keptIn_connect _ _).trans hbeside.keptIn

/-- No tables are in a file that were not in it before. -/
theorem tablesAt_openFile (options : DatabaseOptions) (path : String) (disk : Disk Tables)
    (other : Place) : (openFile options path disk).1.tablesAt other = disk.tablesAt other ∨
      (openFile options path disk).1.tablesAt other = .empty := by
  rcases changesBeside_openFile options path disk with hsame | hbeside
  · exact .inl (by rw [hsame])
  · rcases hbeside.tablesAt other with hsame | hempty
    · rw [hsame]
      exact disk.tablesAt_connect _ _ _
    · exact .inr hempty

/-! ## Resting on a file -/

/-- The path of the database leads to the file in which its tables are, as long as the directories
    are there that are there now, and nothing is in the way of a connection to it. -/
structure Rests (w : Workspace) (place : Place) : Prop where
  backing : w.database.backing = .file place
  location : ∃ path, Location.ofPath w.database.options.path = .ok (.file path) ∧
    w.disk.placeOf path = place ∧ ∀ disk', w.disk.KeptIn disk' → disk'.reaches path
  parent : ∀ parent, Path.parent? w.database.options.path = some parent →
    parent = "" ∨ w.disk.hasDirectory parent
  serves : w.disk.Serves w.database.options.journalMode place

/-- The directory in which a database lies is there when it has been prepared. -/
theorem has_of_prepareDirectory {path : String}
    (h : prepareDirectory path disk = (disk', .ok ())) (hpath : path ≠ Location.memoryPath) :
    ∀ parent, Path.parent? path = some parent → parent = "" ∨ disk'.has parent := by
  intro parent hparent
  rw [prepareDirectory, hparent] at h
  dsimp only at h
  split at h
  · rename_i hthere
    obtain ⟨rfl, -⟩ := Prod.mk.inj h
    exact hthere.resolve_left hpath
  · rename_i hthere
    push Not at hthere
    split at h
    · rename_i hmade
      obtain ⟨rfl, -⟩ := Prod.mk.inj h
      exact .inr (Disk.has_of_makeDirectories hmade hthere.2.1)
    · cases h

/-- A plain path at which a database is opened leads to the file at it. -/
theorem ofPath_of_openPlain (hplain : Location.IsPlain options.path)
    (h : openPlain options disk = (disk', .ok database)) :
    Location.ofPath options.path = .ok (.file options.path) := by
  refine Location.ofPath_of_isPlain hplain ?_
  rw [openPlain] at h
  split at h
  · cases h
  dsimp only at h
  split at h
  · cases h
  · exact Location.not_mem_of_ofPath hplain ‹_› (by simp)
  · exact Location.not_mem_of_ofPath hplain ‹_› (by simp)
  · cases h
  · exact Location.not_mem_of_ofPath hplain ‹_› (by simp)

/-- A database is opened at the path of a file when its directory has been prepared. -/
theorem openPlain_of_ofPath (hlocation : Location.ofPath options.path = .ok (.file path))
    (h : openPlain options disk = (disk', .ok database)) :
    ∃ disk₁, prepareDirectory options.path disk = (disk₁, .ok ()) ∧
      openFile options path disk₁ = (disk', .ok database.backing) ∧
      database.options = options := by
  rw [openPlain] at h
  split at h
  · cases h
  rename_i disk₁ hprepare
  simp only [hlocation] at h
  split at h
  · cases h
  rename_i disk₂ backing hopen
  obtain ⟨rfl, hdatabase⟩ := Prod.mk.inj h
  obtain rfl := Except.ok.inj hdatabase
  exact ⟨disk₁, hprepare, hopen, rfl⟩

theorem rests_of_openPlain (hplain : Location.IsPlain options.path)
    (h : openPlain options disk = (disk', .ok database))
    (hfile : database.backing = .file place) :
    (⟨disk', database⟩ : Workspace).Rests place := by
  have hlocation := ofPath_of_openPlain hplain h
  obtain ⟨disk₁, hprepare, hopen, rfl⟩ := openPlain_of_ofPath hlocation h
  obtain ⟨hreaches, disk₂, backing, hconnect, hmade⟩ := openFile_eq_ok hopen
  obtain ⟨hbacking, rfl⟩ | ⟨⟨fault, hadrift⟩, -⟩ := hmade
  · rw [← hbacking, hfile] at hconnect
    obtain ⟨rfl, hserves⟩ := Disk.serves_of_connect hconnect
    have hkept := disk₁.keptIn_connect database.options.journalMode
      (disk₁.placeOf database.options.path)
    rw [hconnect] at hkept
    -- The path is one of a file, in a directory.
    obtain ⟨hlies, hentry, -⟩ := Disk.admits_iff.1 (Disk.connect_eq_ok hconnect).1
    obtain ⟨hparent, front, last, here, hnamed, hfront⟩ :=
      Disk.descend_of_parent (has_of_prepareDirectory hprepare hplain.stored) hentry hlies
    exact {
      backing := hfile
      location := ⟨_, hlocation, hkept.placeOf _, fun disk hdisk =>
        (hkept.trans hdisk).reaches hnamed hfront hreaches⟩
      parent := fun parent hpath => (hparent parent hpath).imp_right hkept.hasDirectory
      serves := hserves }
  · rw [hadrift] at hfile
    cases hfile

/-! ## Reading and writing -/

/-- The second workspace is the first one, or what writing tables makes of it. -/
def Rewrites (w w' : Workspace) : Prop := w' = w ∨ ∃ t, w' = w.withTables t

theorem rewrites_write {α : Type} (w : Workspace) (f : Tables → Tables × Except StorageFault α) :
    w.Rewrites (w.write f).1 := by
  rw [write]
  split
  · exact .inl rfl
  · exact .inr ⟨_, rfl⟩

theorem rewrites_setUp {α : Type} (w : Workspace) (f : Tables → Tables × Except StorageFault α) :
    w.Rewrites (w.setUp f).1 := by
  rcases w.setUp_cases f with hwrite | ⟨fault, hfault⟩
  · exact hwrite ▸ rewrites_write w f
  · exact .inl (by rw [hfault])

namespace Rests

/-- A database goes on resting on its file if the directories are kept and the file is served. -/
theorem of_keptIn (h : w.Rests place) (hbacking : w'.database.backing = w.database.backing)
    (hoptions : w'.database.options = w.database.options) (hkept : w.disk.KeptIn w'.disk)
    (hserves : w'.disk.Serves w.database.options.journalMode place) : w'.Rests place := by
  obtain ⟨path, hpath, hplace, hreaches⟩ := h.location
  exact {
    backing := hbacking.trans h.backing
    location := ⟨path, hoptions ▸ hpath, (hkept.placeOf path).trans hplace,
      fun disk hdisk => hreaches disk (hkept.trans hdisk)⟩
    parent := fun parent hparent => (h.parent parent (hoptions ▸ hparent)).imp_right
      hkept.hasDirectory
    serves := hoptions ▸ hserves }

theorem withTables (h : w.Rests place) (t : Tables) : (w.withTables t).Rests place := by
  have hwith : w.withTables t = { w with disk := w.disk.put place (.database t) } := by
    rw [Workspace.withTables, h.backing]
  obtain ⟨old, hold⟩ := h.serves.stored
  rw [hwith]
  exact h.of_keptIn rfl rfl (Disk.keptIn_put (by simp [hold])) (h.serves.put t)

/-- A database goes on resting on its file while it is read and written. -/
theorem of_rewrites (h : w.Rests place) (hw : w.Rewrites w') : w'.Rests place := by
  rcases hw with rfl | ⟨t, rfl⟩
  · exact h
  · exact h.withTables t

/-- It does not matter whether the schema would be brought up to date. -/
theorem withAutoMigrate (h : w.Rests place) (migrates : Bool) :
    ({ w with database.options.autoMigrate := migrates } : Workspace).Rests place :=
  ⟨h.backing, h.location, h.parent, h.serves⟩

/-- What changes beside a file changes nothing of the tables in it. -/
theorem contents_of_changesBeside (h : w.Rests place) (hbacking : w'.database.backing = .file place)
    (hbeside : Disk.ChangesBeside w.database.options.journalMode place w.disk w'.disk) :
    w'.contents = w.contents := by
  have hplace := hbeside.at?_of_not_mem
    (Disk.not_mem_beside (Disk.ne_nil_of_admits h.serves.admitted))
  simp only [contents, hbacking, h.backing, hplace]

theorem close (h : w.Rests place) : w.close.Rests place ∧ w.close.contents = w.contents := by
  have hbeside := w.disk.changesBeside_release w.database.options.journalMode place
  have hclose : w.close = ⟨w.disk.release w.database.options.journalMode place,
      { w.database with isOpen := false }⟩ := by
    simp only [Workspace.close, h.backing]
  rw [hclose]
  exact ⟨h.of_keptIn rfl rfl hbeside.keptIn (h.serves.of_changesBeside hbeside),
    h.contents_of_changesBeside h.backing hbeside⟩

/-! ## Opening again -/

/-- A database that rests on its file is opened without a change to the disk but beside the file. -/
theorem openPlain (h : w.Rests place) :
    ∃ disk', Workspace.openPlain w.database.options w.disk =
        (disk', .ok ⟨w.database.options, .file place, true⟩) ∧
      Disk.ChangesBeside w.database.options.journalMode place w.disk disk' := by
  have hprepare : prepareDirectory w.database.options.path w.disk = (w.disk, .ok ()) := by
    rw [prepareDirectory]
    split
    · rfl
    · rename_i parent hparent
      rw [if_pos (.inr ((h.parent parent hparent).imp_right Disk.has_of_hasDirectory))]
  obtain ⟨path, hlocation, hplace, hreaches⟩ := h.location
  obtain ⟨disk', hconnect, hbeside⟩ := h.serves.connect
  have hopen : openFile w.database.options path w.disk = (disk', .ok (.file place)) := by
    rw [openFile, if_pos (hreaches _ (.refl _)), hplace, hconnect]
    exact if_pos (.inr (hreaches _ hbeside.keptIn))
  refine ⟨disk', ?_, hbeside⟩
  rw [Workspace.openPlain, hprepare]
  simp only [hlocation, hopen]

/-- A database that rests on its file is opened with the tables that it held, if these are up to
    date. -/
theorem openWith (h : w.Rests place) (ht : w.contents.IsCurrent) :
    ∃ w', Workspace.openWith w.database.options w.disk = (w'.disk, .ok w') ∧ w'.Rests place ∧
      w'.tables? = some w.contents := by
  obtain ⟨disk', hopen, hbeside⟩ := h.openPlain
  set opened : Workspace := ⟨disk', ⟨w.database.options, .file place, true⟩⟩ with hopened
  have hrests : opened.Rests place :=
    h.of_keptIn h.backing.symm rfl hbeside.keptIn (h.serves.of_changesBeside hbeside)
  have htables : opened.tables? = some w.contents := by
    rw [tables?_eq, if_pos rfl, h.contents_of_changesBeside rfl hbeside]
  rw [Workspace.openWith, hopen]
  cases hmigrates : w.database.options.autoMigrate with
  | false => exact ⟨opened, by simp [hopened], hrests, htables⟩
  | true =>
    have hmigrate : opened.migrate = (opened.withTables w.contents, .ok ()) := by
      simp [migrate, setUp_of_tables? htables ht.ne_empty, ht.migrate, Except.mapError]
    refine ⟨opened.withTables w.contents, ?_, hrests.withTables _,
      tables?_withTables htables ht.ne_empty _⟩
    simp only [if_true, ← hopened, hmigrate]

/-- A database that rests on its file can be closed and opened again, and then it holds the tables
    that it held before, if these are up to date. -/
theorem reopen (h : w.Rests place) (ht : w.contents.IsCurrent) :
    ∃ w', w.reopen = (w', .ok ()) ∧ w'.Rests place ∧ w'.tables? = some w.contents := by
  obtain ⟨hclosed, hcontents⟩ := h.close
  obtain ⟨w', hopen, hrests, htables⟩ := hclosed.openWith (hcontents ▸ ht)
  refine ⟨w', ?_, hrests, hcontents ▸ htables⟩
  simp only [Workspace.reopen, hopen]

end Rests

theorem rewrites_migrate (w : Workspace) : w.Rewrites w.migrate.1 := rewrites_setUp w Tables.migrate

/-- To bring the schema up to date is to write the tables and nothing else. -/
theorem exists_of_openWith (h : openWith options disk = (disk', .ok w)) :
    ∃ disk₁ database, openPlain options disk = (disk₁, .ok database) ∧
      Rewrites ⟨disk₁, database⟩ w ∧ w.disk = disk' := by
  rw [openWith] at h
  split at h
  · cases h
  rename_i disk₁ database hplain
  refine ⟨disk₁, database, hplain, ?_⟩
  split at h
  · have hwrite := rewrites_migrate ⟨disk₁, database⟩
    dsimp only at h
    split at h
    · cases h
    · rename_i w₁ hmigrate
      rw [hmigrate] at hwrite
      obtain ⟨rfl, hw⟩ := Prod.mk.inj h
      obtain rfl := Except.ok.inj hw
      exact ⟨hwrite, rfl⟩
  · obtain ⟨rfl, hw⟩ := Prod.mk.inj h
    exact ⟨.inl (Except.ok.inj hw).symm, congrArg Workspace.disk (Except.ok.inj hw).symm⟩

/-- A database that has just been opened at a plain path rests on its file. -/
theorem rests_of_openWith (hplain : Location.IsPlain options.path)
    (h : openWith options disk = (disk', .ok w)) (hfile : w.database.backing = .file place) :
    w.Rests place := by
  obtain ⟨disk₁, database, hopen, hrewrites, -⟩ := exists_of_openWith h
  have hbacking : database.backing = .file place := by
    rcases hrewrites with rfl | ⟨t, rfl⟩
    · exact hfile
    · rw [withTables] at hfile
      split at hfile
      · cases hfile
      · exact hfile
      · exact hfile
  exact (rests_of_openPlain hplain hopen hbacking).of_rewrites hrewrites

end Workspace

end Ripple
