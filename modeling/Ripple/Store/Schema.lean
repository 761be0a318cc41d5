import Ripple.Store.Tables

/-!
# Schema versions

The tables of a database are made in versions: the first makes the tables of nodes and
edges, the second the text index. A table of versions records which have been applied,
and the greatest recorded one is the version of the database.

`Tables.migrate` applies what is missing, statement by statement. Each statement makes
only what is not there, and a version is recorded after all of its statements, so that
an attempt that stops anywhere can be made again.
-/

namespace Ripple

/-- A statement that changes the schema. -/
inductive SchemaStatement where
  /-- Makes the table of versions. -/
  | createVersions
  /-- Makes the table of nodes. -/
  | createNodes
  /-- Makes the index of nodes by file. -/
  | indexNodesByFile
  /-- Makes the index of nodes by kind. -/
  | indexNodesByKind
  /-- Makes the table of edges. -/
  | createEdges
  /-- Makes the index of edges by source. -/
  | indexEdgesBySource
  /-- Makes the index of edges by target. -/
  | indexEdgesByTarget
  /-- Makes the text index. -/
  | createIndex
  /-- Records that a version has been applied. -/
  | record (version : Int)
deriving DecidableEq, Repr

namespace SchemaStatement

/-- What a statement does. -/
def apply (t : Tables) : SchemaStatement → Except StorageFault Tables
  | .createVersions => .ok { t with versions := some (t.versions.getD []) }
  | .createNodes => .ok { t with nodes := some (t.nodes.getD .empty) }
  | .indexNodesByFile => do
    let table ← t.needNodes
    return { t with nodes := some { table with byFile := true } }
  | .indexNodesByKind => do
    let table ← t.needNodes
    return { t with nodes := some { table with byKind := true } }
  | .createEdges => .ok { t with edges := some (t.edges.getD ⟨[], 0, false, false⟩) }
  | .indexEdgesBySource => do
    let table ← t.needEdges
    return { t with edges := some { table with bySource := true } }
  | .indexEdgesByTarget => do
    let table ← t.needEdges
    return { t with edges := some { table with byTarget := true } }
  | .createIndex => .ok { t with index := some (t.index.getD []) }
  | .record version =>
    match t.versions with
    | none => Tables.missing "_migrations"
    | some versions =>
      if version ∈ versions then .error (.engine .duplicateVersion)
      else .ok { t with versions := some (versions ++ [version]) }

/-- What the first version makes. -/
def firstVersion : List SchemaStatement :=
  [.createNodes, .indexNodesByFile, .indexNodesByKind,
    .createEdges, .indexEdgesBySource, .indexEdgesByTarget]

/-- What the second version makes. -/
def secondVersion : List SchemaStatement := [.createIndex]

/-- What a database of a version lacks. -/
def pending (version : Int) : List SchemaStatement :=
  (if version < 1 then firstVersion ++ [.record 1] else []) ++
    (if version < 2 then secondVersion ++ [.record 2] else [])

end SchemaStatement

/-- The version that a database should have. -/
def targetVersion : Int := 2

/-- How the version of a database compares with the one that it should have. -/
structure SchemaStatus where
  /-- The version of the database. -/
  current : Int
  /-- The version that it should have. -/
  target : Int
  /-- Whether something has to be done. -/
  needsMigration : Bool
deriving DecidableEq, Repr

namespace Tables

/-- Runs statements up to the first that fails. What was done before stays. -/
def runAll (t : Tables) : List SchemaStatement → Tables × Except StorageFault Unit
  | [] => (t, .ok ())
  | statement :: rest =>
    match statement.apply t with
    | .error fault => (t, .error fault)
    | .ok t => t.runAll rest

/-- The tables with a table of versions. -/
def withVersions (t : Tables) : Tables := { t with versions := some (t.versions.getD []) }

/-- The greatest recorded version, if it is a number of 32 bits; zero if there is none. -/
def version (t : Tables) : Except StorageFault Int :=
  match (t.versions.getD []).max? with
  | none => .ok 0
  | some version =>
    if version < -2147483648 then .error (.version false)
    else if 2147483648 ≤ version then .error (.version true)
    else .ok version

/-- Applies the versions that are missing. -/
def migrate (t : Tables) : Tables × Except StorageFault Unit :=
  let t := t.withVersions
  match t.version with
  | .error fault => (t, .error fault)
  | .ok version => t.runAll (SchemaStatement.pending version)

/-- The version of a database and the one that it should have. Looking makes the table
    of versions. -/
def schemaStatus (t : Tables) : Tables × Except StorageFault SchemaStatus :=
  let t := t.withVersions
  (t, t.version.map fun current => ⟨current, targetVersion, current < targetVersion⟩)

end Tables

end Ripple
