import Ripple.Json.Fault
import Ripple.Time.Rfc3339

/-!
# Failures of a store

`StorageFault` is what goes wrong between a program and its database; most of it the
database itself reports with a code. `GraphError` is how an operation on the graph
fails: by such a fault, or because stored metadata is no JSON.
-/

namespace Ripple

/-- A failure that the database reports. -/
inductive EngineFault where
  /-- There is no table of this name. -/
  | noTable (name : String)
  /-- A pattern for texts is too long. -/
  | patternTooComplex
  /-- The database file cannot be opened. -/
  | cannotOpen
  /-- The database file is something else. -/
  | notDatabase
  /-- Nothing can be written to the database. -/
  | readOnly
  /-- A file cannot be read or written, for the reason of the code. -/
  | diskIo (code : Nat)
  /-- There is no file system of this name. -/
  | noFileSystem (name : String)
  /-- A schema version is recorded twice. -/
  | duplicateVersion
deriving DecidableEq, Repr

/-- The code and the words of a failure. -/
def EngineFault.message : EngineFault → String
  | .noTable name => "(code: 1) no such table: " ++ name
  | .patternTooComplex => "(code: 1) LIKE or GLOB pattern too complex"
  | .cannotOpen => "(code: 14) unable to open database file"
  | .notDatabase => "(code: 26) file is not a database"
  | .readOnly => "(code: 8) attempt to write a readonly database"
  | .diskIo code => "(code: " ++ toString code ++ ") disk I/O error"
  | .noFileSystem name => "(code: 1) no such vfs: " ++ name
  | .duplicateVersion => "(code: 1555) UNIQUE constraint failed: _migrations.version"

/-- What goes wrong between a program and its database. -/
inductive StorageFault where
  /-- The database is closed. -/
  | closed
  /-- There is no row where one was expected. -/
  | noRow
  /-- No connection became free in time. -/
  | timedOut
  /-- The database reports a failure. -/
  | engine (fault : EngineFault)
  /-- The location of the database is malformed. -/
  | location (reason : String)
  /-- The name of the database file holds a character that ends it. -/
  | nul
  /-- A timestamp in a row is malformed. -/
  | timestamp (fault : Instant.Fault)
  /-- The number in the first column does not fit: it is too large, or too small. -/
  | version (tooLarge : Bool)
deriving DecidableEq, Repr

namespace StorageFault

/-- What lies behind a fault, if anything does. -/
def cause? : StorageFault → Option String
  | .closed | .noRow | .timedOut => none
  | .engine fault => some fault.message
  | .location reason => some reason
  | .nul => some "filename passed to SQLite must not contain nul bytes"
  | .timestamp fault => some fault.message
  | .version true => some "number too large to fit in target type"
  | .version false => some "number too small to fit in target type"

/-- What a fault is, apart from what lies behind it. -/
def kind : StorageFault → String
  | .closed => "attempted to acquire a connection on a closed pool"
  | .noRow => "no rows returned by a query that expected to return at least one row"
  | .timedOut => "pool timed out while waiting for an open connection"
  | .engine _ => "error returned from database"
  | .location _ => "error with configuration"
  | .nul => "error communicating with database"
  | .timestamp _ => "error occurred while decoding"
  | .version _ => "error occurred while decoding column 0"

/-- A fault in words. -/
def message (fault : StorageFault) : String :=
  match fault.cause? with
  | none => fault.kind
  | some cause => fault.kind ++ ": " ++ cause

/-- A fault in words, and what lies behind it. -/
def chain (fault : StorageFault) : List String := fault.message :: fault.cause?.toList

end StorageFault

/-- How an operation on the graph fails. -/
inductive GraphError where
  /-- The store fails. -/
  | storage (fault : StorageFault)
  /-- Stored metadata is no JSON. -/
  | metadata (error : JsonError)
deriving DecidableEq, Repr

namespace GraphError

/-- The code of a failure. -/
def code : GraphError → String
  | .storage _ => "E400"
  | .metadata _ => "E401"

/-- A failure in words. -/
def message : GraphError → String
  | .storage fault => "Storage failure: " ++ fault.message
  | .metadata error => "Metadata serialization failed: " ++ error.message

/-- What can be done about a failure. -/
def suggestion : GraphError → String
  | .storage _ => "Check that the graph database file is readable and not corrupted"
  | .metadata _ => "Node and edge metadata must be valid JSON"

/-- Whether the store could not complete a read or a write. -/
def isStorageFailure : GraphError → Bool
  | .storage _ => true
  | .metadata _ => false

end GraphError

/-- How setting up a database fails: a message and what lies behind it. -/
structure SetupError where
  /-- What could not be done. -/
  message : String
  /-- What lies behind it, the nearest first. -/
  causes : List String
deriving DecidableEq, Repr

/-- A fault by itself. -/
def SetupError.ofFault (fault : StorageFault) : SetupError := ⟨fault.message, fault.cause?.toList⟩

/-- A fault during something else. -/
def SetupError.during (activity : String) (fault : StorageFault) : SetupError :=
  ⟨activity, fault.chain⟩

end Ripple
