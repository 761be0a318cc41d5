import Ripple.Files.Disk
import Ripple.Proofs.Files.Path

/-!
# Disks that grow

What is put at a place is found there, and nothing else is changed (`Disk.at?_put`).

A disk is kept in another one if the other one has all of its directories (`Disk.KeptIn`). Then a
path that leads somewhere still leads there (`Disk.KeptIn.locate`). Putting an entry keeps a disk
unless it replaces a directory (`Disk.keptIn_put`).

The place of a path is where it leads, if it leads anywhere (`Disk.placeOf_of_locate`). If there is
something at the parent of a path and the path is one of a file, then the parent is a directory, and
all pieces of the path but the last lead there (`Disk.descend_of_parent`).

A directory that has been made is there (`Disk.has_of_makeDirectories`), and nothing else has been
made but directories, even if the last one cannot be (`Disk.gainsDirectories_makeDirectories`).

A file can be written where its path allows it, whatever is written
(`Disk.exists_write_iff`), and a text that has been written can be read
(`Disk.readText_of_write`).
-/

namespace Ripple.Disk

variable {δ : Type} {disk disk' : Disk δ} {path : String} {place here : Place}

/-! ## Places -/

theorem lookup_filter_ne {entries : List (Place × Entry δ)} {place other : Place}
    (h : other ≠ place) : (entries.filter (·.1 != place)).lookup other = entries.lookup other := by
  induction entries with
  | nil => rfl
  | cons entry entries ih =>
    obtain ⟨first, entry⟩ := entry
    by_cases hfirst : first = place
    · have hother : (other == first) = false := by simpa [hfirst] using h
      rw [List.filter_cons_of_neg (by simp [hfirst]), ih, List.lookup_cons, hother]
    · rw [List.filter_cons_of_pos (by simpa using hfirst), List.lookup_cons, List.lookup_cons, ih]

@[simp] theorem isBase_put (disk : Disk δ) (place : Place) (entry : Entry δ) (other : Place) :
    (disk.put place entry).isBase other = disk.isBase other := rfl

theorem at?_put (disk : Disk δ) (place : Place) (entry : Entry δ) (other : Place) :
    (disk.put place entry).at? other =
      if disk.isBase other then some .directory
      else if other = place then some entry else disk.at? other := by
  rw [at?, at?, isBase_put]
  split
  · rfl
  · rw [put, List.lookup_cons]
    by_cases h : other = place
    · simp [h]
    · have hother : (other == place) = false := by simpa using h
      rw [hother, if_neg h, lookup_filter_ne h]

theorem at?_put_self (disk : Disk δ) (hplace : disk.isBase place = false) (entry : Entry δ) :
    (disk.put place entry).at? place = some entry := by
  simp [at?_put, hplace]

theorem at?_put_of_ne (disk : Disk δ) (entry : Entry δ) {other : Place} (h : other ≠ place) :
    (disk.put place entry).at? other = disk.at? other := by
  rw [at?_put, if_neg h]
  split
  · rename_i hbase
    rw [at?, if_pos hbase]
  · rfl

/-- A path leads to one place from the same directory. -/
theorem placeOf_of_working (h : disk'.working = disk.working) (path : String) :
    disk'.placeOf path = disk.placeOf path := by
  rw [placeOf, placeOf, base, base, h]

/-- The working directory lies in directories. -/
theorem isBase_eq_false (h : disk.at? place ≠ some .directory) : disk.isBase place = false := by
  by_contra hbase
  rw [Bool.not_eq_false] at hbase
  exact h (if_pos hbase)

theorem at?_remove (disk : Disk δ) (h : disk.at? place ≠ some .directory) (other : Place) :
    (disk.remove place).at? other = if other = place then none else disk.at? other := by
  have hremove : disk.remove place =
      { disk with entries := disk.entries.filter (·.1 != place) } := by
    rw [remove]
    split
    · exact absurd ‹_› h
    · rfl
  have hat : (disk.remove place).at? other = if disk.isBase other then some .directory
      else (disk.entries.filter (·.1 != place)).lookup other := by
    rw [hremove]
    rfl
  rw [hat, at?]
  by_cases hother : other = place
  · rw [hother, if_neg (by simp [isBase_eq_false h]), if_pos rfl, List.lookup_eq_none_iff]
    intro entry hentry
    rw [bne_comm]
    exact (List.mem_filter.1 hentry).2
  · rw [if_neg hother, lookup_filter_ne hother]

/-! ## Keeping -/

/-- The second disk has all directories of the first. -/
structure KeptIn (disk disk' : Disk δ) : Prop where
  working : disk'.working = disk.working
  directory : ∀ {place}, disk.at? place = some .directory → disk'.at? place = some .directory

namespace KeptIn

theorem refl (disk : Disk δ) : disk.KeptIn disk := ⟨rfl, id⟩

theorem trans {disk'' : Disk δ} (h : disk.KeptIn disk') (h' : disk'.KeptIn disk'') :
    disk.KeptIn disk'' :=
  ⟨h'.working.trans h.working, fun hplace => h'.directory (h.directory hplace)⟩

end KeptIn

/-- A disk is kept when only an entry that is no directory changes. -/
theorem keptIn_of_others (hworking : disk'.working = disk.working)
    (h : disk.at? place ≠ some .directory)
    (hothers : ∀ other ≠ place, disk'.at? other = disk.at? other) : disk.KeptIn disk' where
  working := hworking
  directory {other} hother := by
    have hne : other ≠ place := by
      rintro rfl
      exact h hother
    rw [hothers other hne, hother]

/-- A disk is kept when something is put in the place of no directory. -/
theorem keptIn_put {entry : Entry δ} (h : disk.at? place ≠ some .directory) :
    disk.KeptIn (disk.put place entry) :=
  keptIn_of_others rfl h fun _ hne => disk.at?_put_of_ne entry hne

theorem hasDirectory_iff : disk.hasDirectory path ↔
    (∃ place, disk.locate path = .ok (.directory place)) ∨
      ∃ place slash, disk.locate path = .ok (.name place slash) ∧
        disk.at? place = some .directory := by
  rw [hasDirectory, find]
  rcases disk.locate path with e | ⟨place⟩ | ⟨place, slash⟩
  · simp
  · simp
  · cases hentry : disk.at? place with
    | none => simp [hentry]
    | some entry => cases entry <;> cases slash <;> simp [hentry]

/-- Only a directory is found under a path that goes on with a slash. -/
theorem has_of_locate {slash : Bool} (h : disk.locate path = .ok (.name place slash)) :
    disk.has path ↔ disk.at? place = some .directory ∨ (disk.at? place).isSome ∧ slash = false := by
  rw [has, find, h]
  cases hentry : disk.at? place with
  | none => simp [hentry, Except.toOption]
  | some entry => cases entry <;> cases slash <;> simp [hentry, Except.toOption]

namespace KeptIn

variable {spot : Spot}

theorem descend (h : disk.KeptIn disk') {pieces : List (List Char)}
    (hplace : disk.descend here pieces = .ok place) : disk'.descend here pieces = .ok place := by
  induction pieces generalizing here with
  | nil => exact hplace
  | cons piece pieces ih =>
    rw [Disk.descend] at hplace ⊢
    by_cases hidle : Path.isIdle piece
    · rw [if_pos hidle] at hplace ⊢
      exact ih hplace
    rw [if_neg hidle] at hplace ⊢
    by_cases hup : piece == ['.', '.']
    · rw [if_pos hup] at hplace ⊢
      exact ih hplace
    rw [if_neg hup] at hplace ⊢
    split at hplace
    · cases hplace
    rename_i hlong
    rw [if_neg hlong]
    split at hplace
    · rename_i hentry
      rw [h.directory hentry]
      exact ih hplace
    · cases hplace
    · cases hplace

theorem locate (h : disk.KeptIn disk') (hspot : disk.locate path = .ok spot) :
    disk'.locate path = .ok spot := by
  simp only [Disk.locate, base, h.working] at hspot ⊢
  split at hspot
  · cases hspot
  · rename_i hnul
    rw [if_neg hnul]
    split at hspot
    · cases hspot
    · rename_i hempty
      rw [if_neg hempty]
      split at hspot
      · exact hspot
      · split at hspot
        · cases hspot
        · rename_i hhere
          rw [h.descend hhere]
          exact hspot

/-- Paths lead to the same places. -/
theorem placeOf (h : disk.KeptIn disk') (path : String) :
    disk'.placeOf path = disk.placeOf path :=
  placeOf_of_working h.working path

/-- A directory stays one. -/
theorem hasDirectory (h : disk.KeptIn disk') (hpath : disk.hasDirectory path) :
    disk'.hasDirectory path := by
  rw [hasDirectory_iff] at hpath ⊢
  rcases hpath with ⟨place, hspot⟩ | ⟨place, slash, hspot, hentry⟩
  · exact .inl ⟨place, h.locate hspot⟩
  · exact .inr ⟨place, slash, h.locate hspot, h.directory hentry⟩

end KeptIn

/-! ## Places of paths -/

section Paths

open Ripple.Path (named isIdle)

variable {pieces front : List (List Char)} {spot : Spot}

theorem foldl_enter_filter (pieces : List (List Char)) (here : Place) :
    (pieces.filter (!isIdle ·)).foldl enter here = pieces.foldl enter here := by
  induction pieces generalizing here with
  | nil => rfl
  | cons piece pieces ih =>
    cases hidle : isIdle piece with
    | true =>
      rw [List.filter_cons_of_neg (by simp [hidle]), List.foldl_cons, enter, if_pos hidle, ih]
    | false =>
      rw [List.filter_cons_of_pos (by simp [hidle]), List.foldl_cons, List.foldl_cons, ih]

theorem placeOf_eq (disk : Disk δ) (path : String) :
    disk.placeOf path = (named path).foldl enter (disk.base (Path.isAbsolute path)) :=
  (foldl_enter_filter _ _).symm

theorem descend_cons (disk : Disk δ) (here : Place) (piece : List Char)
    (pieces : List (List Char)) :
    disk.descend here (piece :: pieces) =
      (disk.descend here [piece]).bind fun place => disk.descend place pieces := by
  rw [descend, descend]
  split_ifs
  · rfl
  · rfl
  · rfl
  · split <;> rfl

theorem descend_append (disk : Disk δ) (here : Place) (pieces rest : List (List Char)) :
    disk.descend here (pieces ++ rest) =
      (disk.descend here pieces).bind fun place => disk.descend place rest := by
  induction pieces generalizing here with
  | nil => rfl
  | cons piece pieces ih =>
    rw [List.cons_append, descend_cons, descend_cons _ _ _ pieces]
    cases disk.descend here [piece] with
    | error e => rfl
    | ok place => exact ih place

theorem descend_filter (disk : Disk δ) (here : Place) (pieces : List (List Char)) :
    disk.descend here (pieces.filter (!isIdle ·)) = disk.descend here pieces := by
  induction pieces generalizing here with
  | nil => rfl
  | cons piece pieces ih =>
    cases hidle : isIdle piece with
    | true => rw [List.filter_cons_of_neg (by simp [hidle]), ih, descend, if_pos hidle]
    | false =>
      rw [List.filter_cons_of_pos (by simp [hidle]), descend_cons, descend_cons _ _ _ pieces]
      exact congrArg _ (funext ih)

/-- Pieces that lead through directories lead where they say. -/
theorem foldl_enter_of_descend (h : disk.descend here pieces = .ok place) :
    pieces.foldl enter here = place := by
  induction pieces generalizing here with
  | nil => exact Except.ok.inj h
  | cons piece pieces ih =>
    rw [descend] at h
    rw [List.foldl_cons, enter]
    split at h
    · rw [if_pos ‹_›]
      exact ih h
    rw [if_neg ‹_›]
    split at h
    · rw [if_pos ‹_›]
      exact ih h
    rw [if_neg ‹_›]
    split at h
    · cases h
    split at h
    · exact ih h
    · cases h
    · cases h

/-- From a directory, pieces lead to directories, each of which lies in directories. -/
theorem directory_of_descend (h : disk.descend here pieces = .ok place)
    (hhere : ∀ other, other <+: here → disk.at? other = some .directory) :
    ∀ other, other <+: place → disk.at? other = some .directory := by
  induction pieces generalizing here with
  | nil =>
    obtain rfl := Except.ok.inj h
    exact hhere
  | cons piece pieces ih =>
    rw [descend] at h
    split at h
    · exact ih h hhere
    split at h
    · exact ih h fun other hother => hhere other (hother.trans (List.dropLast_prefix here))
    split at h
    · cases h
    split at h
    · refine ih h fun other hother => ?_
      rcases List.prefix_concat_iff.1 hother with rfl | hprefix
      · assumption
      · exact hhere other hprefix
    · cases h
    · cases h

/-- A path begins in a directory that lies in directories. -/
theorem directory_of_prefix_base (disk : Disk δ) (isAbsolute : Bool) :
    ∀ other, other <+: disk.base isAbsolute → disk.at? other = some .directory := by
  intro other h
  have hbase : disk.isBase other := by
    rw [isBase, List.isPrefixOf_iff_prefix]
    rw [base] at h
    split at h
    · obtain rfl := List.prefix_nil.1 h
      exact List.nil_prefix
    · exact h
  exact if_pos hbase

/-- What is found at a path is what it leads to through directories, or has the name that the path
    ends with in such a directory. -/
theorem locate_eq_ok (h : disk.locate path = .ok spot) :
    (∃ place, spot = .directory place ∧
      disk.descend (disk.base (Path.isAbsolute path)) (named path) = .ok place) ∨
    ∃ front last here slash, spot = .name (here ++ [last]) slash ∧ named path = front ++ [last] ∧
      disk.descend (disk.base (Path.isAbsolute path)) front = .ok here ∧
      last ≠ ['.', '.'] ∧ nameBytes last ≤ maxNameBytes := by
  have hnamed : named path = (Path.pieces path.toList).filter (!isIdle ·) := rfl
  have hidle {piece : List Char} (hpiece : piece.isEmpty) : isIdle piece := by
    simp [isIdle, hpiece]
  rw [locate] at h
  split at h
  · cases h
  split at h
  · cases h
  dsimp only at h
  split at h
  · rename_i hempty
    refine .inl ⟨_, (Except.ok.inj h).symm, ?_⟩
    rw [List.dropWhile_eq_nil_iff] at hempty
    rw [hnamed, Path.filter_eq_nil_of_isIdle fun piece hpiece =>
      hidle (hempty piece (List.mem_reverse.2 hpiece))]
    rfl
  rename_i last before hsplit
  obtain ⟨ends, hpieces, hends, hlast⟩ := Path.exists_eq_of_dropWhile hsplit
  have hends := Path.filter_eq_nil_of_isIdle fun piece hpiece => hidle (hends piece hpiece)
  split at h
  · cases h
  rename_i here hhere
  rw [← descend_filter] at hhere
  rw [hpieces, List.filter_append] at hnamed
  split at h
  · rename_i hdot
    rw [beq_iff_eq] at hdot
    refine .inl ⟨_, (Except.ok.inj h).symm, ?_⟩
    rw [hnamed, hdot, List.filter_cons_of_neg (by decide), hends, List.append_nil, hhere]
  rename_i hdot
  have hlast : isIdle last = false := by
    simp [isIdle, hlast, hdot]
  rw [List.filter_cons_of_pos (by simp [hlast]), hends] at hnamed
  split at h
  · rename_i hup
    refine .inl ⟨_, (Except.ok.inj h).symm, ?_⟩
    rw [hnamed, descend_append, hhere, Except.bind, descend, hlast, if_neg Bool.false_ne_true,
      if_pos hup]
    rfl
  split at h
  · cases h
  rename_i hup hlong
  exact .inr ⟨_, last, here, _, (Except.ok.inj h).symm, hnamed, hhere, by simpa using hup,
    Nat.le_of_not_lt hlong⟩

/-- The operating system finds a path at its place, if it finds it. -/
theorem placeOf_of_locate {slash : Bool} (h : disk.locate path = .ok (.name place slash)) :
    disk.placeOf path = place := by
  obtain ⟨_, hspot, -⟩ | ⟨front, last, here, _, hspot, hnamed, hhere, hup, -⟩ := locate_eq_ok h
  · cases hspot
  obtain ⟨rfl, -⟩ := Spot.name.inj hspot
  rw [placeOf_eq, hnamed, List.foldl_append, foldl_enter_of_descend hhere, List.foldl_cons, enter,
    Path.isIdle_last hnamed, if_neg Bool.false_ne_true, if_neg (by simpa using hup)]
  rfl

/-- If there is something at the parent of a path, and the path is one of a file, then the parent is
    a directory, and what the path names leads there but for the last name. -/
theorem descend_of_parent (hparent : ∀ parent, Path.parent? path = some parent →
      parent = "" ∨ disk.has parent)
    (hplace : disk.at? (disk.placeOf path) ≠ some .directory)
    (hlies : disk.at? (disk.placeOf path).dropLast = some .directory) :
    (∀ parent, Path.parent? path = some parent → parent = "" ∨ disk.hasDirectory parent) ∧
      ∃ front last here, named path = front ++ [last] ∧
        disk.descend (disk.base (Path.isAbsolute path)) front = .ok here := by
  have hbase := disk.directory_of_prefix_base (Path.isAbsolute path)
  rw [placeOf_eq] at hplace hlies
  obtain hnothing | ⟨parent, last, hpath, hnamed, habsolute⟩ := Path.parent?_cases path
  · rw [hnothing] at hplace
    exact absurd (hbase _ (List.prefix_refl _)) hplace
  by_cases hempty : parent = ""
  · refine ⟨fun other hother => .inl ?_, [], last, _, ?_, rfl⟩
    · exact (Option.some.inj (hother.symm.trans hpath)).trans hempty
    · rw [hnamed, hempty]
      rfl
  suffices hdirectory : disk.hasDirectory parent ∧
      ∃ here, disk.descend (disk.base (Path.isAbsolute path)) (named parent) = .ok here by
    obtain ⟨hdirectory, here, hhere⟩ := hdirectory
    refine ⟨fun other hother => .inr ?_, named parent, last, here, hnamed, hhere⟩
    rwa [Option.some.inj (hother.symm.trans hpath)]
  rw [hnamed, List.foldl_append, ← habsolute hempty, ← placeOf_eq] at hplace hlies
  rw [← habsolute hempty] at hbase ⊢
  rw [hasDirectory_iff]
  have hthere := (hparent parent hpath).resolve_left hempty
  cases hlocate : disk.locate parent with
  | error e => simp [has, find, hlocate, Except.toOption] at hthere
  | ok spot =>
    obtain ⟨place, rfl, hdescend⟩ | ⟨front, name, here, slash, rfl, hfront, hhere, hup, hname⟩ :=
      locate_eq_ok hlocate
    · exact ⟨.inl ⟨place, rfl⟩, place, hdescend⟩
    have hhere' := directory_of_descend hhere hbase here (List.prefix_refl _)
    rw [placeOf_of_locate hlocate] at hplace hlies
    -- A file is no parent: what lies below it is not there, and it lies in a directory.
    have hentry : disk.at? (here ++ [name]) = some .directory := by
      rw [List.foldl_cons, List.foldl_nil, enter, Path.isIdle_last hnamed,
        if_neg Bool.false_ne_true] at hplace hlies
      split at hplace
      · rw [List.dropLast_concat] at hplace
        exact absurd hhere' hplace
      · rwa [if_neg ‹_›, List.dropLast_concat] at hlies
    refine ⟨.inr ⟨_, slash, rfl, hentry⟩, here ++ [name], ?_⟩
    rw [hfront, descend_append, hhere, Except.bind, descend, Path.isIdle_last hfront,
      if_neg Bool.false_ne_true, if_neg (by simpa using hup), if_neg (by simpa using hname), hentry]
    rfl

end Paths

/-! ## Files -/

/-- A file that has been written is found. -/
theorem find_of_write {bytes : ByteArray} (h : disk.write path bytes = .ok disk') :
    disk'.find path = .ok (.file bytes) := by
  rw [write] at h
  split at h
  · cases h
  · cases h
  · rename_i place slash hspot
    have hput (hentry : disk.at? place ≠ some .directory)
        (h : disk.put place (.file bytes) = disk') (hslash : ¬slash) :
        disk'.find path = .ok (.file bytes) := by
      subst h
      rw [find, (keptIn_put hentry).locate hspot]
      simp only [at?_put_self disk (isBase_eq_false hentry)]
      rw [if_neg hslash]
    split at h
    · cases h
    · rename_i entry hdirectory hentry
      split at h
      · cases h
      · exact hput (by simpa [hentry] using hdirectory) (Except.ok.inj h) ‹_›
    · rename_i hnone
      split at h
      · cases h
      · exact hput (by simp [hnone]) (Except.ok.inj h) ‹_›

/-- A path at which a file can be written: it leads to a name in a directory that is there, and
    there is no directory under this name. -/
def Takes (disk : Disk δ) (path : String) : Prop :=
  ∃ place, disk.locate path = .ok (.name place false) ∧ disk.at? place ≠ some .directory

/-- It depends on the path alone whether a file can be written. -/
theorem exists_write_iff {bytes : ByteArray} :
    (∃ disk', disk.write path bytes = .ok disk') ↔ disk.Takes path := by
  rw [write, Takes]
  cases disk.locate path with
  | error e => simp
  | ok spot =>
    cases spot with
    | directory place => simp
    | name place slash =>
      cases hentry : disk.at? place with
      | none => cases slash <;> simp [hentry]
      | some entry => cases entry <;> cases slash <;> simp [hentry]

theorem readText_of_find {text : String} (h : disk.find path = .ok (.file text.toUTF8)) :
    disk.readText path = .ok text := by
  have hdecode : String.fromUTF8? text.toUTF8 = some text := dif_pos text.isValidUTF8
  rw [readText, h]
  simp only [hdecode]

/-- A text that has been written is read. -/
theorem readText_of_write {text : String} (h : disk.write path text.toUTF8 = .ok disk') :
    disk'.readText path = .ok text :=
  readText_of_find (find_of_write h)

theorem has_of_readText {text : String} (h : disk.readText path = .ok text) : disk.has path := by
  rw [readText] at h
  rw [has]
  cases hfind : disk.find path with
  | ok entry => rfl
  | error e =>
    rw [hfind] at h
    cases h

/-! ## Making directories -/

theorem has_of_hasDirectory (h : disk.hasDirectory path) : disk.has path := by
  rw [hasDirectory] at h
  rw [has]
  cases hfind : disk.find path with
  | ok entry => rfl
  | error e => simp [hfind] at h

theorem makeDirectory_eq_ok :
    disk.makeDirectory path = .ok disk' ↔
      ∃ place slash, disk.locate path = .ok (.name place slash) ∧
        disk.at? place = none ∧ disk' = disk.put place .directory := by
  rw [makeDirectory]
  cases disk.locate path with
  | error e => simp
  | ok spot =>
    cases spot with
    | directory place => simp
    | name place slash => cases hentry : disk.at? place <;> simp [hentry, eq_comm]

theorem has_of_makeDirectory (h : disk.makeDirectory path = .ok disk') : disk'.has path := by
  obtain ⟨place, slash, hspot, hnone, rfl⟩ := makeDirectory_eq_ok.1 h
  have hkept : disk.KeptIn (disk.put place .directory) := keptIn_put (by simp [hnone])
  rw [has_of_locate (hkept.locate hspot)]
  exact .inl (by simp [at?_put])

/-- A directory that has been made is there. -/
theorem has_of_makeDirectories (h : disk.makeDirectories path = (disk', none)) (hpath : path ≠ "") :
    disk'.has path := by
  have hfound {disk : Disk δ} {e : DiskError}
      (h : (disk, if disk.hasDirectory path then none else some e) = (disk', none)) :
      disk'.has path := by
    obtain ⟨rfl, hnone⟩ := Prod.mk.inj h
    exact has_of_hasDirectory (by by_contra hdirectory; simp [hdirectory] at hnone)
  rw [makeDirectories, makeDirectoriesWith, if_neg hpath] at h
  -- It has been made at once, or in a directory that has been made before, or it was there.
  split at h
  · rename_i disk₁ hmade
    obtain ⟨rfl, -⟩ := Prod.mk.inj h
    exact has_of_makeDirectory hmade
  · split at h
    · cases h
    · split at h
      · cases h
      · split at h
        · rename_i disk₁ hmade
          obtain ⟨rfl, -⟩ := Prod.mk.inj h
          exact has_of_makeDirectory hmade
        · exact hfound h
  · exact hfound h

/-! ## Nothing but directories -/

/-- The second disk has what the first one has, and directories besides. -/
structure GainsDirectories (disk disk' : Disk δ) : Prop where
  working : disk'.working = disk.working
  gains : ∀ place, disk'.at? place = disk.at? place ∨
    disk.at? place = none ∧ disk'.at? place = some .directory

namespace GainsDirectories

theorem refl (disk : Disk δ) : disk.GainsDirectories disk := ⟨rfl, fun _ => .inl rfl⟩

theorem trans {disk'' : Disk δ} (h : disk.GainsDirectories disk')
    (h' : disk'.GainsDirectories disk'') : disk.GainsDirectories disk'' := by
  refine ⟨h'.working.trans h.working, fun place => ?_⟩
  rcases h.gains place with hsame | ⟨hnone, hsome⟩
  · rw [← hsame]
    exact h'.gains place
  · rcases h'.gains place with hsame' | ⟨hnone', -⟩
    · exact .inr ⟨hnone, hsame'.trans hsome⟩
    · rw [hsome] at hnone'
      cases hnone'

theorem placeOf (h : disk.GainsDirectories disk') (path : String) :
    disk'.placeOf path = disk.placeOf path :=
  placeOf_of_working h.working path

end GainsDirectories

theorem gainsDirectories_makeDirectory (h : disk.makeDirectory path = .ok disk') :
    disk.GainsDirectories disk' := by
  obtain ⟨place, slash, -, hnone, rfl⟩ := makeDirectory_eq_ok.1 h
  refine ⟨rfl, fun other => ?_⟩
  by_cases hother : other = place
  · have hentry : disk.at? place ≠ some .directory := by simp [hnone]
    rw [hother, at?_put_self disk (isBase_eq_false hentry)]
    exact .inr ⟨hnone, rfl⟩
  · exact .inl (disk.at?_put_of_ne _ hother)

theorem gainsDirectories_makeDirectoriesWith (path : String) (fuel : ℕ) (disk : Disk δ) :
    disk.GainsDirectories (makeDirectoriesWith path fuel disk).1 := by
  induction fuel generalizing path disk with
  | zero => exact .refl disk
  | succ fuel ih =>
    rw [makeDirectoriesWith]
    split
    · exact .refl disk
    -- It is made at once, or after the directory in which it lies, or it is not made.
    split
    · exact gainsDirectories_makeDirectory ‹_›
    · split
      · exact .refl disk
      · rename_i parent _
        have hparent := ih parent disk
        split
        · rename_i hmade
          rwa [hmade] at hparent
        · rename_i hmade
          rw [hmade] at hparent
          split
          · exact hparent.trans (gainsDirectories_makeDirectory ‹_›)
          · exact hparent
    · exact .refl disk

/-- To make directories is to make nothing else, even if they cannot all be made. -/
theorem gainsDirectories_makeDirectories (disk : Disk δ) (path : String) :
    disk.GainsDirectories (disk.makeDirectories path).1 :=
  gainsDirectories_makeDirectoriesWith path _ disk

end Ripple.Disk
