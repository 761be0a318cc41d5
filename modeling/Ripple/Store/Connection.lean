import Ripple.Files.Disk
import Ripple.Store.Tables

/-!
# Connections to database files

`Disk.connect` opens a database file, which is made if there is none. Beside the file the
engine keeps others, its `Companion`s, under longer names. It takes their places whatever
file lies there, and fails if a directory does. Some of them it removes at once, and others
when the database is closed (`Disk.release`).

The engine follows a path by its text, as `Disk.placeOf` does, but looks at each name on
the way (`Disk.reaches`).
-/

namespace Ripple

/-- How what a write replaces is kept until the write is done. -/
inductive JournalMode where
  /-- In a file that is deleted. -/
  | delete
  /-- In a file that is cut to nothing. -/
  | truncate
  /-- In a file that is left. -/
  | persist
  /-- Not in a file. -/
  | memory
  /-- It stays where it is, and what is written goes to a log. -/
  | wal
  /-- Not at all. -/
  | off
deriving DecidableEq, Repr

/-- When what is written has to be durable. -/
inductive Synchronous where
  /-- The engine does not wait for it. -/
  | off
  /-- At the most critical moments. -/
  | normal
  /-- After each write. -/
  | full
  /-- After each write, and the directory too. -/
  | extra
deriving DecidableEq, Repr

/-! ## Files beside a database -/

/-- A file of the engine beside a database. -/
inductive Companion where
  /-- What a write replaces. -/
  | journal
  /-- What has been written ahead. -/
  | log
  /-- Where in the log connections find what they look for. -/
  | index
deriving DecidableEq, Repr

namespace Companion

/-- What is added to the name of the database. -/
def suffix : Companion → String
  | .journal => "-journal"
  | .log => "-wal"
  | .index => "-shm"

/-- The name beside that of a database. -/
def name (companion : Companion) (database : List Char) : List Char :=
  database ++ companion.suffix.toList

/-- The place beside that of a database. -/
def place (companion : Companion) (database : Place) : Place :=
  database.dropLast ++ [companion.name (database.getLast?.getD [])]

end Companion

/-- The files that are used beside a database. -/
def JournalMode.companions : JournalMode → List Companion
  | .wal => [.journal, .log, .index]
  | .delete | .truncate | .persist => [.journal]
  | .memory | .off => []

/-- Those that are there as long as the database is open. -/
def JournalMode.lasting : JournalMode → List Companion
  | .wal => [.log, .index]
  | .truncate | .persist => [.journal]
  | .delete | .memory | .off => []

/-- The places of companions beside that of a database. -/
def JournalMode.beside (mode : JournalMode) (database : Place) : List Place :=
  mode.companions.map fun companion => companion.place database

/-! ## Paths -/

namespace Disk

/-- The most bytes of a path in the engine, in which there is room for a companion. -/
def maxPathBytes : Nat := 504

/-- The most bytes of a path on the way. -/
def maxFollowedBytes : Nat := 511

/-- The bytes of the path to a place, each name with the slash before it. -/
def pathBytes : Place → Nat
  | [] => 0
  | name :: place => nameBytes name + 1 + pathBytes place

/-- Whether the engine goes on from a place with a piece of a path. There may be nothing on the
    way, but nothing is below a file. -/
def passes (disk : Disk Tables) (here : Place) (piece : List Char) : Bool :=
  if Path.isIdle piece || piece == ['.', '.'] then true
  else if pathBytes (here ++ [piece]) > maxFollowedBytes then false
  else match disk.at? here with
    | some .directory => nameBytes piece ≤ maxNameBytes
    | some _ => false
    | none => true

/-- Whether the engine goes on from a place with all pieces of a path. -/
def follows (disk : Disk Tables) (here : Place) : List (List Char) → Bool
  | [] => true
  | piece :: rest => disk.passes here piece && disk.follows (enter here piece) rest

/-- Whether the engine comes to the place of a path. -/
def reaches (disk : Disk Tables) (path : String) : Bool :=
  disk.follows (disk.base (Path.isAbsolute path)) (Path.pieces path.toList)

end Disk

/-! ## Connections -/

/-- Where an open database keeps its tables. -/
inductive Backing where
  /-- Nowhere else. -/
  | memory (tables : Tables)
  /-- In a file. -/
  | file (place : Place)
  /-- Nowhere that lasts: there are no tables, and to make them fails. -/
  | adrift (fault : StorageFault)

namespace Disk

/-- Whether there is a directory at a place. -/
def hasDirectoryAt (disk : Disk Tables) (place : Place) : Bool :=
  match disk.at? place with
  | some .directory => true
  | _ => false

/-- Whether the engine can open a file at a place. -/
def admits (disk : Disk Tables) (place : Place) : Bool :=
  disk.hasDirectoryAt place.dropLast && !disk.hasDirectoryAt place &&
    nameBytes (place.getLast?.getD []) ≤ maxNameBytes && pathBytes place ≤ maxPathBytes

/-- Whether a directory lies where a companion belongs. -/
def blocks (disk : Disk Tables) (mode : JournalMode) (place : Place) (companion : Companion) :
    Bool :=
  companion ∈ mode.companions ∧ disk.hasDirectoryAt (companion.place place)

/-- Whether there can be no file of the name of a companion. -/
def overlong (mode : JournalMode) (place : Place) (companion : Companion) : Bool :=
  companion ∈ mode.companions ∧
    nameBytes (companion.name (place.getLast?.getD [])) > maxNameBytes

/-- Why the file at a place cannot be used as a database. A file of a byte at most is a new one. -/
def fault? (disk : Disk Tables) (mode : JournalMode) (place : Place) : Option EngineFault :=
  let created : Option EngineFault :=
    if disk.blocks mode place .log then some (.diskIo 2570)
    else if disk.blocks mode place .journal ∨ overlong mode place .journal then some .cannotOpen
    else none
  match disk.at? place with
  | none => created
  | some (.file bytes) =>
    if bytes.size ≤ 1 then created
    else if disk.blocks mode place .journal then some (.diskIo 266)
    else if disk.blocks mode place .log then some .cannotOpen
    else some .notDatabase
  | some (.database _) =>
    if disk.blocks mode place .journal then some (.diskIo 266)
    else if disk.blocks mode place .log ∨ overlong mode place .log then some .cannotOpen
    else none
  | some _ => some .notDatabase

/-- Makes a database at a place, if there is none. -/
def create (disk : Disk Tables) (place : Place) : Disk Tables :=
  match disk.at? place with
  | some (.database _) => disk
  | _ => disk.put place (.database .empty)

/-- Makes a companion of a database, or removes what lies in its place. -/
def settle (mode : JournalMode) (place : Place) (disk : Disk Tables) (companion : Companion) :
    Disk Tables :=
  if companion ∈ mode.lasting then disk.put (companion.place place) .companion
  else disk.remove (companion.place place)

/-- Connects to the database at a place. What cannot be used has been made all the same. If the
    index of the log cannot be made, nothing can be written. -/
def connect (disk : Disk Tables) (mode : JournalMode) (place : Place) :
    Disk Tables × Except EngineFault Backing :=
  if disk.admits place then
    match disk.fault? mode place with
    | some fault =>
      (if (disk.at? place).isSome then disk else disk.put place (.file .empty), .error fault)
    | none =>
      if disk.blocks mode place .index then
        (disk.create place, .ok (.adrift (.engine .readOnly)))
      else (mode.companions.foldl (settle mode place) (disk.create place), .ok (.file place))
  else (disk, .error .cannotOpen)

/-- Takes away a companion at a place. -/
def dismiss (disk : Disk Tables) (place : Place) : Disk Tables :=
  match disk.at? place with
  | some .companion => disk.remove place
  | _ => disk

/-- Takes away what is not left beside a database that is closed. -/
def release (disk : Disk Tables) (mode : JournalMode) (place : Place) : Disk Tables :=
  match mode with
  | .wal => (disk.dismiss (Companion.log.place place)).dismiss (Companion.index.place place)
  | _ => disk

end Disk

end Ripple
