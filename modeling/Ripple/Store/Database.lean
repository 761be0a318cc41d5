import Ripple.Store.Connection
import Ripple.Store.Location
import Ripple.Store.Schema
import Ripple.Store.Search
import Ripple.Config.Basic

/-!
# Databases

A `Database` is opened at a path. Its tables lie in a file of the disk, or nowhere but in
the open database if its path says so. A closed database answers nothing.

A `Workspace` is a disk with a database on it. `Workspace.read` and `Workspace.write` are
how the tables are reached.
-/

namespace Ripple

/-- How a database is opened. -/
structure DatabaseOptions where
  /-- The path. -/
  path : String
  /-- How many connections there can be. -/
  maxConnections : UInt32
  /-- Whether the schema is brought up to date. -/
  autoMigrate : Bool
  /-- How what a write replaces is kept. -/
  journalMode : JournalMode
  /-- When what is written has to be durable. -/
  synchronous : Synchronous
deriving DecidableEq, Repr

namespace DatabaseOptions

/-- The number of connections by default. -/
def defaultConnections : UInt32 := 5

/-- A database at a path. The journal is written ahead, so that reading does not wait for
    writing. -/
def atPath (path : String) : DatabaseOptions := ⟨path, defaultConnections, true, .wal, .normal⟩

/-- The database of a storage section, with one connection at least. -/
def ofStorage (storage : StorageConfig) : DatabaseOptions :=
  { atPath storage.databasePath with maxConnections := max storage.maxConnections 1 }

/-- A database that lies nowhere. -/
def inMemory : DatabaseOptions := { atPath Location.memoryPath with maxConnections := 1 }

end DatabaseOptions

/-- A database. -/
structure Database where
  /-- How it was opened. -/
  options : DatabaseOptions
  /-- Where its tables are. -/
  backing : Backing
  /-- Whether it is open. -/
  isOpen : Bool

/-- A disk and a database on it. -/
structure Workspace where
  /-- The disk. -/
  disk : Disk Tables
  /-- The database. -/
  database : Database

namespace Workspace

/-- The tables of the database, if it is open. -/
def tables? (w : Workspace) : Option Tables :=
  if w.database.isOpen then
    match w.database.backing with
    | .memory tables => some tables
    | .file place =>
      match w.disk.at? place with
      | some (.database tables) => some tables
      | _ => some .empty
    | .adrift _ => some .empty
  else none

/-- The tables of the database. -/
def tables (w : Workspace) : Except StorageFault Tables :=
  match w.tables? with
  | some tables => .ok tables
  | none => .error .closed

/-- A workspace whose database has other tables. -/
def withTables (w : Workspace) (tables : Tables) : Workspace :=
  match w.database.backing with
  | .memory _ => { w with database := { w.database with backing := .memory tables } }
  | .file place => { w with disk := w.disk.put place (.database tables) }
  | .adrift _ => w

/-- What a read of the tables gives. -/
def read {α : Type} (w : Workspace) (f : Tables → Except GraphError α) : Except GraphError α := do
  f (← Tables.fault w.tables)

/-- A change of the tables that leaves them as they were if it fails. -/
def change {α : Type} (w : Workspace) (f : Tables → Except StorageFault (α × Tables)) :
    Workspace × Except StorageFault α :=
  match w.tables with
  | .error fault => (w, .error fault)
  | .ok tables =>
    match f tables with
    | .error fault => (w, .error fault)
    | .ok (value, tables) => (w.withTables tables, .ok value)

/-- A change of the tables that may fail after a part of it. -/
def write {α : Type} (w : Workspace) (f : Tables → Tables × Except StorageFault α) :
    Workspace × Except StorageFault α :=
  match w.tables with
  | .error fault => (w, .error fault)
  | .ok tables =>
    let (tables, result) := f tables
    (w.withTables tables, result)

/-- A write that makes tables, if they are not there. -/
def setUp {α : Type} (w : Workspace) (f : Tables → Tables × Except StorageFault α) :
    Workspace × Except StorageFault α :=
  match w.database.backing with
  | .memory _ | .file _ => w.write f
  | .adrift fault => (w, w.tables.bind fun _ => .error fault)

/-- Closes the database. What lies nowhere else is lost. -/
def close (w : Workspace) : Workspace :=
  let closed := { w.database with isOpen := false }
  match w.database.backing with
  | .memory _ => { w with database := { closed with backing := .memory .empty } }
  | .file place => ⟨w.disk.release w.database.options.journalMode place, closed⟩
  | .adrift _ => { w with database := closed }

/-! ## Schema versions -/

/-- Brings the schema up to date. -/
def migrate (w : Workspace) : Workspace × Except SetupError Unit :=
  let (w, result) := w.setUp Tables.migrate
  (w, result.mapError (.during "Failed to run database migrations"))

/-- The version of the schema. -/
def schemaStatus (w : Workspace) : Workspace × Except SetupError SchemaStatus :=
  let (w, result) := w.setUp Tables.schemaStatus
  (w, result.mapError (.during "Failed to check migration status"))

/-- Whether the schema is not up to date. -/
def needsMigration (w : Workspace) : Workspace × Except SetupError Bool :=
  let (w, result) := w.setUp Tables.schemaStatus
  (w, (result.map SchemaStatus.needsMigration).mapError .ofFault)

/-- Whether the database answers. -/
def healthCheck (w : Workspace) : Except SetupError Unit :=
  (w.tables.map fun _ => ()).mapError (.during "Database health check failed")

/-! ## Opening -/

/-- Makes the directory of a database file, if there is none. -/
def prepareDirectory (path : String) (disk : Disk Tables) : Disk Tables × Except SetupError Unit :=
  match Path.parent? path with
  | none => (disk, .ok ())
  | some parent =>
    if path = Location.memoryPath ∨ parent = "" ∨ disk.has parent then (disk, .ok ())
    else match disk.makeDirectories parent with
      | (disk, none) => (disk, .ok ())
      | (disk, some e) =>
        let message := "Failed to create database directory: " ++ Text.quotedPath parent
        (disk, .error ⟨message, [e.message]⟩)

/-- The tables of a database that lies nowhere, of which each connection has one of its own. If
    there can be others, then tables that have been made through one of them are missing in the
    next. -/
def unshared (maxConnections : UInt32) : Backing :=
  if maxConnections ≤ 1 then .memory .empty else .adrift (.engine (.noTable "_migrations"))

/-- Opens a database in the file at a path. What has been made may be in the way of another
    connection. -/
def openFile (options : DatabaseOptions) (path : String) (disk : Disk Tables) :
    Disk Tables × Except EngineFault Backing :=
  if disk.reaches path then
    match disk.connect options.journalMode (disk.placeOf path) with
    | (disk, .ok (.file place)) =>
      if options.maxConnections ≤ 1 ∨ disk.reaches path then (disk, .ok (.file place))
      else (disk.release options.journalMode place, .ok (.adrift (.engine .cannotOpen)))
    | made => made
  else (disk, .error .cannotOpen)

/-- Opens a database, before its schema is looked at. -/
def openPlain (options : DatabaseOptions) (disk : Disk Tables) :
    Disk Tables × Except SetupError Database :=
  match prepareDirectory options.path disk with
  | (disk, .error e) => (disk, .error e)
  | (disk, .ok ()) =>
    let failed (fault : StorageFault) : SetupError :=
      .during ("Failed to connect to database: " ++ Text.quotedPath options.path) fault
    match Location.ofPath options.path with
    | .error fault => (disk, .error (.ofFault fault))
    | .ok .memory => (disk, .ok ⟨options, .memory .empty, true⟩)
    | .ok .unshared => (disk, .ok ⟨options, unshared options.maxConnections, true⟩)
    | .ok (.unreachable fault) => (disk, .error (failed fault))
    | .ok (.file path) =>
      match openFile options path disk with
      | (disk, .error fault) => (disk, .error (failed (.engine fault)))
      | (disk, .ok backing) => (disk, .ok ⟨options, backing, true⟩)

/-- Opens a database. -/
def openWith (options : DatabaseOptions) (disk : Disk Tables) :
    Disk Tables × Except SetupError Workspace :=
  match openPlain options disk with
  | (disk, .error e) => (disk, .error e)
  | (disk, .ok database) =>
    let w : Workspace := ⟨disk, database⟩
    if options.autoMigrate then
      match w.migrate with
      | (w, .error e) => (w.close.disk, .error e)
      | (w, .ok ()) => (w.disk, .ok w)
    else (disk, .ok w)

/-- Closes the database and opens it again. If that fails it stays closed. -/
def reopen (w : Workspace) : Workspace × Except SetupError Unit :=
  let closed := w.close
  match openWith closed.database.options closed.disk with
  | (disk, .error e) => ({ closed with disk }, .error e)
  | (_, .ok w) => (w, .ok ())

end Workspace

end Ripple
