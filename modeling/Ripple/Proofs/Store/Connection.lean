import Ripple.Store.Connection
import Ripple.Proofs.Except
import Ripple.Proofs.Files.Disk

/-!
# What a connection leaves

A connection leaves the tables of the file that it is made to, and of other files it changes only
those that lie where companions belong (`Disk.at?_of_connect`). No tables are in a file afterwards
that were not in it before, even if no connection is made (`Disk.tablesAt_connect`). Nor are any
when the database is closed (`Disk.changesBeside_release`).

A disk serves a place if a connection to it can be made and finds the tables there
(`Disk.Serves.connect`). It does once there has been a connection (`Disk.serves_of_connect`), and
goes on when tables are written (`Disk.Serves.put`) and when the companions change
(`Disk.Serves.of_changesBeside`).

A path that the engine follows through directories is followed as long as these are there
(`Disk.KeptIn.reaches`).
-/

namespace Ripple

/-- No companion takes the place of its database. -/
theorem Companion.place_ne {place : Place} (h : place ≠ []) (companion : Companion) :
    companion.place place ≠ place := by
  obtain ⟨front, name, rfl⟩ := (List.eq_nil_or_concat place).resolve_left h
  cases companion <;> simp [Companion.place, Companion.name, suffix]

/-- The name of the log is shorter than that of the journal, which there is beside a log. -/
theorem Disk.overlong_log {mode : JournalMode} {place : Place}
    (h : overlong mode place .journal = false) : overlong mode place .log = false := by
  cases mode <;> simp [overlong, JournalMode.companions] at h ⊢
  refine Nat.le_trans ?_ h
  simp only [nameBytes, Companion.name, Companion.suffix, String.ofList_append,
    String.utf8ByteSize_append, String.ofList_toList]
  exact Nat.add_le_add_left (by decide) _

namespace Disk

variable {disk disk' : Disk Tables} {mode : JournalMode} {place other : Place} {places : List Place}

/-! ## Tables in files -/

/-- The tables in the file at a place; none if there is no database. -/
def tablesAt (disk : Disk Tables) (place : Place) : Tables :=
  match disk.at? place with
  | some (.database tables) => tables
  | _ => .empty

theorem tablesAt_of_at?_eq (h : disk'.at? place = disk.at? place) :
    disk'.tablesAt place = disk.tablesAt place := by
  rw [tablesAt, tablesAt, h]

theorem tablesAt_put (disk : Disk Tables) (place : Place) (t : Tables) (other : Place) :
    (disk.put place (.database t)).tablesAt other =
      if other = place ∧ disk.isBase place = false then t else disk.tablesAt other := by
  by_cases hother : other = place
  · subst hother
    cases hbase : disk.isBase other with
    | false => rw [if_pos ⟨rfl, rfl⟩, tablesAt, at?_put_self disk hbase]
    | true => simp [tablesAt, at?, hbase]
  · rw [if_neg fun h => hother h.1, tablesAt_of_at?_eq (disk.at?_put_of_ne _ hother)]

/-! ## Entries that are made -/

theorem at?_create (h : disk.at? place ≠ some .directory) (other : Place) :
    (disk.create place).at? other =
      if other = place then some (.database (disk.tablesAt place)) else disk.at? other := by
  rw [create]
  split
  · rename_i t hdatabase
    split
    · rename_i hother
      rw [hother, hdatabase, tablesAt, hdatabase]
    · rfl
  · rename_i hnone
    have hempty : disk.tablesAt place = .empty := by
      rw [tablesAt]
      split
      · exact absurd ‹_› (hnone _)
      · rfl
    rw [hempty]
    split
    · rename_i hother
      rw [hother, at?_put_self disk (isBase_eq_false h)]
    · exact disk.at?_put_of_ne _ ‹_›

theorem keptIn_create (h : disk.at? place ≠ some .directory) : disk.KeptIn (disk.create place) := by
  refine keptIn_of_others ?_ h fun other hne => ?_
  · rw [create]
    split <;> rfl
  · rw [at?_create h, if_neg hne]

/-! ## Beside a database -/

/-- The second disk is the first one but for files that lie where companions belong: there is a
    companion or nothing instead. -/
structure ChangesBeside (mode : JournalMode) (place : Place) (disk disk' : Disk Tables) : Prop where
  working : disk'.working = disk.working
  changes : ∀ other, disk'.at? other = disk.at? other ∨
    other ∈ mode.beside place ∧ disk.at? other ≠ some .directory ∧
      (disk'.at? other = some .companion ∨ disk'.at? other = none)

namespace ChangesBeside

theorem refl (disk : Disk Tables) : ChangesBeside mode place disk disk := ⟨rfl, fun _ => .inl rfl⟩

theorem trans {disk'' : Disk Tables} (h : ChangesBeside mode place disk disk')
    (h' : ChangesBeside mode place disk' disk'') : ChangesBeside mode place disk disk'' := by
  refine ⟨h'.working.trans h.working, fun other => ?_⟩
  rcases h.changes other with hsame | ⟨hmem, hfile, hother⟩
  · rw [← hsame]
    exact h'.changes other
  · rcases h'.changes other with hsame' | ⟨-, -, hother'⟩
    · rw [hsame']
      exact .inr ⟨hmem, hfile, hother⟩
    · exact .inr ⟨hmem, hfile, hother'⟩

theorem keptIn (h : ChangesBeside mode place disk disk') : disk.KeptIn disk' where
  working := h.working
  directory {other} hother := by
    rcases h.changes other with hsame | ⟨-, hfile, -⟩
    · rw [hsame, hother]
    · exact absurd hother hfile

theorem at?_of_not_mem (h : ChangesBeside mode place disk disk')
    (hother : other ∉ mode.beside place) :
    disk'.at? other = disk.at? other :=
  (h.changes other).resolve_right fun hchange => hother hchange.1

/-- No directory is made. -/
theorem not_directory (h : ChangesBeside mode place disk disk')
    (hother : disk.at? other ≠ some .directory) : disk'.at? other ≠ some .directory := by
  rcases h.changes other with hsame | ⟨-, -, hcompanion | hnone⟩
  · rwa [hsame]
  · simp [hcompanion]
  · simp [hnone]

theorem tablesAt (h : ChangesBeside mode place disk disk') (other : Place) :
    disk'.tablesAt other = disk.tablesAt other ∨ disk'.tablesAt other = .empty := by
  rcases h.changes other with hsame | ⟨-, -, hcompanion | hnone⟩
  · exact .inl (tablesAt_of_at?_eq hsame)
  · exact .inr (by rw [Disk.tablesAt, hcompanion])
  · exact .inr (by rw [Disk.tablesAt, hnone])

end ChangesBeside

theorem changesBeside_remove (hother : other ∈ mode.beside place)
    (h : disk.at? other ≠ some .directory) : ChangesBeside mode place disk (disk.remove other) := by
  refine ⟨?_, fun next => ?_⟩
  · rw [remove]
    split <;> rfl
  · rw [at?_remove disk h]
    split
    · rename_i hnext
      exact .inr ⟨hnext ▸ hother, hnext ▸ h, .inr rfl⟩
    · exact .inl rfl

theorem changesBeside_settle {companion : Companion} (hcompanion : companion ∈ mode.companions)
    (h : disk.at? (companion.place place) ≠ some .directory) :
    ChangesBeside mode place disk (settle mode place disk companion) := by
  have hmem : companion.place place ∈ mode.beside place := List.mem_map_of_mem hcompanion
  rw [settle]
  split
  · refine ⟨rfl, fun other => ?_⟩
    by_cases hother : other = companion.place place
    · rw [hother, at?_put_self disk (isBase_eq_false h)]
      exact .inr ⟨hmem, h, .inl rfl⟩
    · exact .inl (disk.at?_put_of_ne _ hother)
  · exact changesBeside_remove hmem h

theorem changesBeside_foldl_settle {companions : List Companion}
    (hmem : companions ⊆ mode.companions)
    (h : ∀ companion ∈ companions, disk.at? (companion.place place) ≠ some .directory) :
    ChangesBeside mode place disk (companions.foldl (settle mode place) disk) := by
  induction companions generalizing disk with
  | nil => exact .refl disk
  | cons companion companions ih =>
    rw [List.forall_mem_cons] at h
    have hsettle := changesBeside_settle (hmem List.mem_cons_self) h.1
    exact hsettle.trans (ih (fun next hnext => hmem (List.mem_cons_of_mem _ hnext))
      fun next hnext => hsettle.not_directory (h.2 next hnext))

theorem changesBeside_dismiss (hother : other ∈ mode.beside place) (disk : Disk Tables) :
    ChangesBeside mode place disk (disk.dismiss other) := by
  rw [dismiss]
  split
  · exact changesBeside_remove hother (by simp [*])
  · exact .refl disk

/-- To close a database is to change nothing but what lies beside it. -/
theorem changesBeside_release (disk : Disk Tables) (mode : JournalMode) (place : Place) :
    ChangesBeside mode place disk (disk.release mode place) := by
  cases mode with
  | wal =>
    have hmem : ∀ companion ∈ [Companion.log, .index],
        companion.place place ∈ JournalMode.wal.beside place := by
      simp [JournalMode.beside, JournalMode.companions]
    exact (changesBeside_dismiss (hmem .log (by simp)) disk).trans
      (changesBeside_dismiss (hmem .index (by simp)) _)
  | _ => exact .refl disk

/-! ## Connections -/

theorem hasDirectoryAt_eq_false :
    disk.hasDirectoryAt place = false ↔ disk.at? place ≠ some .directory := by
  rw [hasDirectoryAt]
  split <;> simp_all

theorem admits_iff : disk.admits place ↔ disk.at? place.dropLast = some .directory ∧
    disk.at? place ≠ some .directory ∧ nameBytes (place.getLast?.getD []) ≤ maxNameBytes ∧
    pathBytes place ≤ maxPathBytes := by
  have hdirectory (other : Place) :
      disk.hasDirectoryAt other ↔ disk.at? other = some .directory := by
    rw [← not_iff_not, Bool.not_eq_true, hasDirectoryAt_eq_false]
  simp only [admits, Bool.and_eq_true, hdirectory, Bool.not_eq_true', hasDirectoryAt_eq_false,
    decide_eq_true_eq, and_assoc]

theorem ne_nil_of_admits (h : disk.admits place) : place ≠ [] := by
  rintro rfl
  exact (admits_iff.1 h).2.1 (if_pos rfl)

theorem KeptIn.admits (h : disk.KeptIn disk') (hentry : disk'.at? place ≠ some .directory)
    (hplace : disk.admits place) : disk'.admits place := by
  obtain ⟨hlies, -, hsizes⟩ := admits_iff.1 hplace
  exact admits_iff.2 ⟨h.directory hlies, hentry, hsizes⟩

/-- A file that can be used is no directory, and neither are its companions, but for the index. -/
theorem of_fault?_eq_none (h : disk.fault? mode place = none) :
    disk.blocks mode place .journal = false ∧ disk.blocks mode place .log = false ∧
      overlong mode place .log = false := by
  rw [fault?] at h
  have hcreated (h : (if disk.blocks mode place .log then some (.diskIo 2570)
      else if disk.blocks mode place .journal ∨ overlong mode place .journal then some .cannotOpen
      else none : Option EngineFault) = none) :
      disk.blocks mode place .journal = false ∧ disk.blocks mode place .log = false ∧
        overlong mode place .log = false := by
    split_ifs at h with hlog hjournal
    rw [not_or] at hjournal
    exact ⟨by simpa using hjournal.1, by simpa using hlog,
      overlong_log (by simpa using hjournal.2)⟩
  split at h
  · exact hcreated h
  · split at h
    · exact hcreated h
    · split_ifs at h
  · split_ifs at h with hjournal hlog
    rw [not_or] at hlog
    exact ⟨by simpa using hjournal, by simpa using hlog.1, by simpa using hlog.2⟩
  · cases h

/-- Where no directory is in the way of a companion, there is none. -/
theorem blocks_eq_false_iff : (∀ companion, disk.blocks mode place companion = false) ↔
    ∀ other ∈ mode.beside place, disk.at? other ≠ some .directory := by
  simp only [blocks, decide_eq_false_iff_not, not_and, Bool.not_eq_true, hasDirectoryAt_eq_false,
    JournalMode.beside, List.forall_mem_map]

theorem not_mem_beside (h : place ≠ []) : place ∉ mode.beside place := by
  intro hmem
  obtain ⟨companion, -, heq⟩ := List.mem_map.1 hmem
  exact companion.place_ne h heq

/-- What a connection that is made has found, and what it does. -/
theorem connect_eq_ok {backing : Backing} (h : disk.connect mode place = (disk', .ok backing)) :
    disk.admits place ∧ disk.fault? mode place = none ∧
      (backing = .file place ∧ (∀ other ∈ mode.beside place, disk.at? other ≠ some .directory) ∧
          ChangesBeside mode place (disk.create place) disk' ∨
        backing = .adrift (.engine .readOnly) ∧ disk' = disk.create place) := by
  rw [connect] at h
  split at h
  · rename_i hadmits
    refine ⟨hadmits, ?_⟩
    split at h
    · cases (Prod.mk.inj h).2
    · rename_i hfault
      refine ⟨hfault, ?_⟩
      split at h
      · obtain ⟨rfl, hbacking⟩ := Prod.mk.inj h
        exact .inr ⟨(Except.ok.inj hbacking).symm, rfl⟩
      · rename_i hindex
        obtain ⟨rfl, hbacking⟩ := Prod.mk.inj h
        obtain ⟨hjournal, hlog, -⟩ := of_fault?_eq_none hfault
        have hfree := blocks_eq_false_iff.1 fun companion => by
          cases companion
          · exact hjournal
          · exact hlog
          · exact Bool.not_eq_true _ ▸ hindex
        refine .inl ⟨(Except.ok.inj hbacking).symm, hfree,
          changesBeside_foldl_settle (List.Subset.refl _) fun companion hcompanion => ?_⟩
        rw [at?_create (admits_iff.1 hadmits).2.1]
        split
        · simp
        · exact hfree _ (List.mem_map_of_mem hcompanion)
  · cases (Prod.mk.inj h).2

/-- A connection leaves the tables of the file to which it is made. Of other files it changes only
    those that lie where companions belong. -/
theorem at?_of_connect {backing : Backing} (h : disk.connect mode place = (disk', .ok backing)) :
    disk'.at? place = some (.database (disk.tablesAt place)) ∧
      ∀ other ≠ place, disk'.at? other = disk.at? other ∨
        other ∈ mode.beside place ∧
          (disk'.at? other = some .companion ∨ disk'.at? other = none) := by
  obtain ⟨hadmits, -, hmade⟩ := connect_eq_ok h
  have hcreate := at?_create (admits_iff.1 hadmits).2.1
  have hbeside : ChangesBeside mode place (disk.create place) disk' := by
    rcases hmade with ⟨-, -, hbeside⟩ | ⟨-, rfl⟩
    · exact hbeside
    · exact .refl _
  refine ⟨?_, fun other hne => ?_⟩
  · rw [hbeside.at?_of_not_mem (not_mem_beside (ne_nil_of_admits hadmits)), hcreate, if_pos rfl]
  · have hchange := hbeside.changes other
    rw [hcreate, if_neg hne] at hchange
    exact hchange.imp_right fun h => ⟨h.1, h.2.2⟩

theorem connect_eq_error {fault : EngineFault}
    (h : disk.connect mode place = (disk', .error fault)) :
    disk' = disk ∨ disk' = disk.put place (.file .empty) ∧ disk.at? place = none := by
  rw [connect] at h
  split at h
  · split at h
    · obtain ⟨rfl, -⟩ := Prod.mk.inj h
      split
      · exact .inl rfl
      · exact .inr ⟨rfl, Option.not_isSome_iff_eq_none.1 ‹_›⟩
    · split at h <;> cases (Prod.mk.inj h).2
  · exact .inl (Prod.mk.inj h).1.symm

/-- Whatever comes of a connection, directories are kept. -/
theorem keptIn_connect (disk : Disk Tables) (mode : JournalMode) (place : Place) :
    disk.KeptIn (disk.connect mode place).1 := by
  rcases hconnect : disk.connect mode place with ⟨disk', fault | backing⟩
  · obtain rfl | ⟨rfl, hnone⟩ := connect_eq_error hconnect
    · exact .refl _
    · exact keptIn_put (by simp [hnone])
  · obtain ⟨hadmits, -, hmade⟩ := connect_eq_ok hconnect
    have hcreate := keptIn_create (admits_iff.1 hadmits).2.1
    rcases hmade with ⟨-, -, hbeside⟩ | ⟨-, rfl⟩
    · exact hcreate.trans hbeside.keptIn
    · exact hcreate

/-- Whatever comes of a connection, no tables are in a file that were not in it before. -/
theorem tablesAt_connect (disk : Disk Tables) (mode : JournalMode) (place other : Place) :
    (disk.connect mode place).1.tablesAt other = disk.tablesAt other ∨
      (disk.connect mode place).1.tablesAt other = .empty := by
  rcases hconnect : disk.connect mode place with ⟨disk', fault | backing⟩
  · obtain rfl | ⟨rfl, hnone⟩ := connect_eq_error hconnect
    · exact .inl rfl
    · by_cases hother : other = place
      · have hentry : disk.at? place ≠ some .directory := by simp [hnone]
        exact .inr (by rw [hother, tablesAt, at?_put_self disk (isBase_eq_false hentry)])
      · exact .inl (tablesAt_of_at?_eq (disk.at?_put_of_ne _ hother))
  · obtain ⟨hplace, hothers⟩ := at?_of_connect hconnect
    by_cases hother : other = place
    · exact .inl (by rw [hother, tablesAt, hplace])
    · rcases hothers other hother with hsame | ⟨-, hcompanion | hnone⟩
      · exact .inl (tablesAt_of_at?_eq hsame)
      · exact .inr (by rw [tablesAt, hcompanion])
      · exact .inr (by rw [tablesAt, hnone])

/-! ## Connections to tables that are there -/

/-- A disk on which nothing is in the way of a connection to the tables at a place. -/
structure Serves (disk : Disk Tables) (mode : JournalMode) (place : Place) : Prop where
  admitted : disk.admits place
  named : overlong mode place .log = false
  stored : ∃ t, disk.at? place = some (.database t)
  free : ∀ other ∈ mode.beside place, disk.at? other ≠ some .directory

namespace Serves

/-- A place goes on being served when what lies beside it changes. -/
theorem of_changesBeside (h : disk.Serves mode place)
    (hbeside : ChangesBeside mode place disk disk') : disk'.Serves mode place := by
  obtain ⟨t, ht⟩ := h.stored
  have hplace : disk'.at? place = some (.database t) := by
    rw [hbeside.at?_of_not_mem (not_mem_beside (ne_nil_of_admits h.admitted)), ht]
  exact ⟨hbeside.keptIn.admits (by simp [hplace]) h.admitted, h.named, ⟨t, hplace⟩,
    fun other hother => hbeside.not_directory (h.free other hother)⟩

/-- A place goes on being served when tables are written to its file. -/
theorem put (h : disk.Serves mode place) (t : Tables) :
    (disk.put place (.database t)).Serves mode place := by
  obtain ⟨old, hold⟩ := h.stored
  have hentry : disk.at? place ≠ some .directory := by simp [hold]
  have hput := at?_put_self disk (isBase_eq_false hentry) (.database t)
  refine ⟨(keptIn_put hentry).admits (by simp [hput]) h.admitted, h.named, ⟨t, hput⟩,
    fun other hother => ?_⟩
  have hne : other ≠ place :=
    ne_of_mem_of_not_mem hother (not_mem_beside (ne_nil_of_admits h.admitted))
  rw [disk.at?_put_of_ne _ hne]
  exact h.free other hother

/-- A connection to a place that is served changes nothing but what lies beside it. -/
theorem connect (h : disk.Serves mode place) :
    ∃ disk', disk.connect mode place = (disk', .ok (.file place)) ∧
      ChangesBeside mode place disk disk' := by
  obtain ⟨t, ht⟩ := h.stored
  have hblocks := blocks_eq_false_iff.2 h.free
  have hfault : disk.fault? mode place = none := by
    simp [fault?, ht, hblocks, h.named]
  have hcreate : disk.create place = disk := by
    simp [create, ht]
  rw [Disk.connect, if_pos h.admitted, hfault, hcreate]
  refine ⟨_, if_neg (by simp [hblocks]), ?_⟩
  exact changesBeside_foldl_settle (List.Subset.refl _) fun companion hcompanion =>
    h.free _ (List.mem_map_of_mem hcompanion)

end Serves

/-- The disk that a connection to a file leaves serves the place of the file. -/
theorem serves_of_connect (h : disk.connect mode place = (disk', .ok (.file other))) :
    other = place ∧ disk'.Serves mode place := by
  obtain ⟨hplace, -⟩ := at?_of_connect h
  have hkept := disk.keptIn_connect mode place
  rw [h] at hkept
  obtain ⟨hadmits, hfault, ⟨hbacking, hfree, hbeside⟩ | ⟨hbacking, -⟩⟩ := connect_eq_ok h
  · refine ⟨Backing.file.inj hbacking, hkept.admits (by simp [hplace]) hadmits,
      (of_fault?_eq_none hfault).2.2, ⟨_, hplace⟩, fun other hother => hbeside.not_directory ?_⟩
    rw [at?_create (admits_iff.1 hadmits).2.1]
    split
    · simp
    · exact hfree other hother
  · cases hbacking

/-! ## Paths that the engine follows -/

section Paths

open Ripple.Path (named isIdle)

variable {front : List (List Char)} {last : List Char} {here : Place} {path : String}

theorem follows_filter (disk : Disk Tables) (here : Place) (pieces : List (List Char)) :
    disk.follows here (pieces.filter (!isIdle ·)) = disk.follows here pieces := by
  induction pieces generalizing here with
  | nil => rfl
  | cons piece pieces ih =>
    cases hidle : isIdle piece with
    | true =>
      have hpasses : disk.passes here piece = true := if_pos (by simp [hidle])
      rw [List.filter_cons_of_neg (by simp [hidle]), ih, follows, hpasses, enter, if_pos hidle,
        Bool.true_and]
    | false =>
      rw [List.filter_cons_of_pos (by simp [hidle]), follows, follows, ih]

/-- From a directory that is kept, the engine goes on as before. -/
theorem passes_of_keptIn (hkept : disk.KeptIn disk') (hhere : disk.at? here = some .directory)
    (piece : List Char) : disk'.passes here piece = disk.passes here piece := by
  rw [passes, passes, hhere, hkept.directory hhere]

/-- Names that lead through directories, and another one, are followed as long as the directories
    are kept. -/
theorem follows_of_keptIn (hkept : disk.KeptIn disk') {start : Place}
    (hstart : ∀ other, other <+: start → disk.at? other = some .directory)
    (hfront : disk.descend start front = .ok here)
    (hfollows : disk.follows start (front ++ [last])) : disk'.follows start (front ++ [last]) := by
  induction front generalizing start with
  | nil =>
    rw [List.nil_append, follows] at hfollows ⊢
    rwa [passes_of_keptIn hkept (hstart start (List.prefix_refl _))]
  | cons piece front ih =>
    rw [descend_cons] at hfront
    obtain ⟨next, hnext, hfront⟩ := bind_eq_ok.1 hfront
    have henter := foldl_enter_of_descend hnext
    rw [List.foldl_cons, List.foldl_nil] at henter
    rw [List.cons_append, follows, Bool.and_eq_true, henter] at hfollows ⊢
    rw [passes_of_keptIn hkept (hstart start (List.prefix_refl _))]
    exact ⟨hfollows.1, ih (directory_of_descend hnext hstart) hfront hfollows.2⟩

/-- The engine comes to the place of a path as long as the directories are kept through which it
    came there. -/
theorem KeptIn.reaches (hkept : disk.KeptIn disk') (hpath : named path = front ++ [last])
    (hfront : disk.descend (disk.base (Path.isAbsolute path)) front = .ok here)
    (hreaches : disk.reaches path) : disk'.reaches path := by
  have hbase : disk'.base (Path.isAbsolute path) = disk.base (Path.isAbsolute path) := by
    rw [base, base, hkept.working]
  rw [Disk.reaches, ← follows_filter] at hreaches ⊢
  change disk.follows _ (named path) at hreaches
  change disk'.follows _ (named path)
  rw [hpath] at hreaches ⊢
  rw [hbase]
  exact follows_of_keptIn hkept (disk.directory_of_prefix_base _) hfront hreaches

end Paths

end Disk

end Ripple
