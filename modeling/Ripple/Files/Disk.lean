import Ripple.Files.Path

/-!
# Files

A `Disk` holds directories and files under the names that lead to them from the root. A
file is a text, a database, whose contents are of the type `δ`, or one that the engine keeps
beside a database.

`Disk.locate` follows a path as an operating system does: all pieces but the last must
lead through directories. The other operations stand on it and fail with the
`DiskError` that says why. `Disk.placeOf` takes a path by its text alone.
-/

namespace Ripple

/-- Why a file operation fails. -/
inductive DiskError where
  /-- There is nothing at a path. -/
  | notFound
  /-- There is something at a path already. -/
  | exists
  /-- A path leads through a file. -/
  | notDirectory
  /-- There is a directory at a path. -/
  | isDirectory
  /-- A piece of a path is too long. -/
  | nameTooLong
  /-- A path holds a character that ends it. -/
  | nul
  /-- A file is no text. -/
  | notText
deriving DecidableEq, Repr

/-- A failure in the words of the operating system. -/
def DiskError.message : DiskError → String
  | .notFound => "No such file or directory (os error 2)"
  | .exists => "File exists (os error 17)"
  | .notDirectory => "Not a directory (os error 20)"
  | .isDirectory => "Is a directory (os error 21)"
  | .nameTooLong => "File name too long (os error 36)"
  | .nul => "file name contained an unexpected NUL byte"
  | .notText => "stream did not contain valid UTF-8"

/-- What can lie at a path. -/
inductive Entry (δ : Type) where
  /-- A directory. -/
  | directory
  /-- A file with some bytes. -/
  | file (bytes : ByteArray)
  /-- A database. -/
  | database (contents : δ)
  /-- A file that the engine keeps beside a database. -/
  | companion

/-- The names that lead to an entry from the root. -/
abbrev Place := List (List Char)

/-- Directories and files by their places. -/
structure Disk (δ : Type) where
  /-- The place of the working directory. -/
  working : Place
  /-- All entries, the one that was made last first. -/
  entries : List (Place × Entry δ)

namespace Disk

variable {δ : Type}

/-- A working directory without files. -/
def empty : Disk δ := ⟨["work".toList], []⟩

/-- Whether the working directory lies at a place or below it. -/
def isBase (disk : Disk δ) (place : Place) : Bool := place.isPrefixOf disk.working

/-- The entry at a place. -/
def at? (disk : Disk δ) (place : Place) : Option (Entry δ) :=
  if disk.isBase place then some .directory else disk.entries.lookup place

/-- Puts an entry at a place. -/
def put (disk : Disk δ) (place : Place) (entry : Entry δ) : Disk δ :=
  { disk with entries := (place, entry) :: disk.entries.filter (·.1 != place) }

/-- Takes away what lies at a place, unless it is a directory. -/
def remove (disk : Disk δ) (place : Place) : Disk δ :=
  match disk.at? place with
  | some .directory => disk
  | _ => { disk with entries := disk.entries.filter (·.1 != place) }

/-- The place in which a relative path begins, or an absolute one. -/
def base (disk : Disk δ) (isAbsolute : Bool) : Place := if isAbsolute then [] else disk.working

/-- The place that a piece of a path leads to. -/
def enter (here : Place) (piece : List Char) : Place :=
  if Path.isIdle piece then here
  else if piece == ['.', '.'] then here.dropLast
  else here ++ [piece]

/-- The place of a path, whatever lies on the way. -/
def placeOf (disk : Disk δ) (path : String) : Place :=
  (Path.pieces path.toList).foldl enter (disk.base (Path.isAbsolute path))

/-- The number of bytes of a name. -/
def nameBytes (name : List Char) : Nat := (String.ofList name).utf8ByteSize

/-- The most bytes of a name. -/
def maxNameBytes : Nat := 255

/-- The directory that some pieces lead to. -/
def descend (disk : Disk δ) (here : Place) : List (List Char) → Except DiskError Place
  | [] => .ok here
  | piece :: rest =>
    if Path.isIdle piece then descend disk here rest
    else if piece == ['.', '.'] then
      descend disk here.dropLast rest
    else if nameBytes piece > maxNameBytes then .error .nameTooLong
    else match disk.at? (here ++ [piece]) with
      | some .directory => descend disk (here ++ [piece]) rest
      | some _ => .error .notDirectory
      | none => .error .notFound

/-- Where a path leads. -/
inductive Spot where
  /-- A directory that is there, under a path that does not end in its name. -/
  | directory (place : Place)
  /-- A place in a directory that is there; `slash` if the path goes on with a slash. -/
  | name (place : Place) (slash : Bool)

/-- Where a path leads, provided that it leads through directories. -/
def locate (disk : Disk δ) (path : String) : Except DiskError Spot :=
  let cs := path.toList
  if cs.contains '\x00' then .error .nul
  else if cs.isEmpty then .error .notFound
  else
    let base := disk.base (Path.isAbsolute path)
    let pieces := Path.pieces cs
    let slash := pieces.getLast? == some []
    match pieces.reverse.dropWhile List.isEmpty with
    | [] => .ok (.directory base)
    | last :: before =>
      match disk.descend base before.reverse with
      | .error e => .error e
      | .ok here =>
        if last == ['.'] then .ok (.directory here)
        else if last == ['.', '.'] then
          .ok (.directory here.dropLast)
        else if nameBytes last > maxNameBytes then .error .nameTooLong
        else .ok (.name (here ++ [last]) slash)

/-- The entry at a path. -/
def find (disk : Disk δ) (path : String) : Except DiskError (Entry δ) :=
  match disk.locate path with
  | .error e => .error e
  | .ok (.directory _) => .ok .directory
  | .ok (.name place slash) =>
    match disk.at? place with
    | none => .error .notFound
    | some .directory => .ok .directory
    | some entry => if slash then .error .notDirectory else .ok entry

/-- Whether there is something at a path. -/
def has (disk : Disk δ) (path : String) : Bool := (disk.find path).toOption.isSome

/-- Whether there is a directory at a path. -/
def hasDirectory (disk : Disk δ) (path : String) : Bool :=
  match disk.find path with
  | .ok .directory => true
  | _ => false

/-- Makes a directory in a directory that is there. -/
def makeDirectory (disk : Disk δ) (path : String) : Except DiskError (Disk δ) :=
  match disk.locate path with
  | .error e => .error e
  | .ok (.directory _) => .error .exists
  | .ok (.name place _) =>
    if (disk.at? place).isSome then .error .exists else .ok (disk.put place .directory)

/-- Makes a directory and those in which it lies, at most `fuel` of them. What was made
    stays even if the last one cannot be made. -/
def makeDirectoriesWith (path : String) : (fuel : Nat) → Disk δ → Disk δ × Option DiskError
  | 0, disk => (disk, some .notFound)
  | fuel + 1, disk =>
    if path = "" then (disk, none)
    else match disk.makeDirectory path with
      | .ok disk => (disk, none)
      | .error .notFound =>
        match Path.parent? path with
        | none => (disk, some .notFound)
        | some parent =>
          match makeDirectoriesWith parent fuel disk with
          | (disk, some e) => (disk, some e)
          | (disk, none) =>
            match disk.makeDirectory path with
            | .ok disk => (disk, none)
            | .error e => (disk, if disk.hasDirectory path then none else some e)
      | .error e => (disk, if disk.hasDirectory path then none else some e)

/-- Makes a directory and those in which it lies. Each parent is shorter than its path,
    so the length of the path is enough. -/
def makeDirectories (disk : Disk δ) (path : String) : Disk δ × Option DiskError :=
  makeDirectoriesWith path (path.length + 1) disk

/-- Writes a file, in place of one that is there. -/
def write (disk : Disk δ) (path : String) (bytes : ByteArray) : Except DiskError (Disk δ) :=
  match disk.locate path with
  | .error e => .error e
  | .ok (.directory _) => .error .isDirectory
  | .ok (.name place slash) =>
    match disk.at? place with
    | some .directory => .error .isDirectory
    | some _ => if slash then .error .notDirectory else .ok (disk.put place (.file bytes))
    | none => if slash then .error .isDirectory else .ok (disk.put place (.file bytes))

/-- The text of a file. -/
def readText (disk : Disk δ) (path : String) : Except DiskError String :=
  match disk.find path with
  | .error e => .error e
  | .ok .directory => .error .isDirectory
  | .ok (.database _) | .ok .companion => .error .notText
  | .ok (.file bytes) =>
    match String.fromUTF8? bytes with
    | some text => .ok text
    | none => .error .notText

end Disk

end Ripple
