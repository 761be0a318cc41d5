import Ripple.Config.Basic
import Ripple.Files.Disk
import Ripple.Toml.Reader

/-!
# Configuration files

A configuration is kept in a TOML file with a table for each section. `Config.ofToml?`
takes it from the entries of such a file: a section that is left out has its default
values, one that is there must have all its values, and other keys do not count. A section
can also be written as an array of its values in order. `Config.toToml?` writes all three
sections.

`Config.load` and `Config.save` do this with a file of a disk, `Config.loadDefault` and
`Config.saveDefault` with the file that the environment names. A configuration that cannot
be worked with is neither loaded nor saved.
-/

namespace Ripple

/-! ## Text -/

/-- The integer of a value, if it is one below a bound. -/
def Toml.countBelow? (bound : Nat) : Toml → Option Nat
  | .integer n => if 0 ≤ n ∧ n < bound then some n.toNat else none
  | _ => none

/-- The text of a value, if it is one. -/
def Toml.text? : Toml → Option String
  | .string text => some text
  | _ => none

/-- The values of a section, in the order of some names. -/
def Toml.fields? (names : List String) : Toml → Option (List Toml)
  | .table entries => names.mapM (List.lookup · entries)
  | .array items => if names.length ≤ items.length then some (items.take names.length) else none
  | _ => none

/-- The storage section of a value. -/
def StorageConfig.ofToml? (part : Toml) : Option StorageConfig := do
  match ← part.fields? ["database_path", "max_connections"] with
  | [path, max] => return ⟨← path.text?, .ofNat (← max.countBelow? UInt32.size)⟩
  | _ => none

/-- The impact section of a value. -/
def ImpactConfig.ofToml? (part : Toml) : Option ImpactConfig := do
  match ← part.fields? ["max_depth"] with
  | [depth] => return ⟨.ofNat (← depth.countBelow? UInt32.size)⟩
  | _ => none

/-- The search section of a value. -/
def SearchConfig.ofToml? (part : Toml) : Option SearchConfig := do
  match ← part.fields? ["default_limit"] with
  | [limit] => return ⟨.ofNat (← limit.countBelow? UInt64.size)⟩
  | _ => none

namespace Config

/-- A section of some entries, or its default. -/
def sectionOf {α : Type} (read : Toml → Option α) (standard : α) : Option Toml → Option α
  | none => some standard
  | some part => read part

/-- The configuration of some entries. -/
def ofToml? (standard : Config) (entries : List (String × Toml)) : Option Config := do
  return {
    storage := ← sectionOf StorageConfig.ofToml? standard.storage (entries.lookup "storage")
    impact := ← sectionOf ImpactConfig.ofToml? standard.impact (entries.lookup "impact")
    search := ← sectionOf SearchConfig.ofToml? standard.search (entries.lookup "search") }

/-- The configuration of a text. -/
def ofText? (standard : Config) (text : String) : Option Config := do
  ofToml? standard (← Toml.ofText? text)

end Config

/-- The storage section as text. -/
def StorageConfig.toToml (s : StorageConfig) : List Char :=
  "[storage]\ndatabase_path = ".toList ++ Toml.Quoted.write s.databasePath.toList ++
    "\nmax_connections = ".toList ++ (toString s.maxConnections.toNat).toList ++ ['\n']

/-- The impact section as text. -/
def ImpactConfig.toToml (s : ImpactConfig) : List Char :=
  "[impact]\nmax_depth = ".toList ++ (toString s.maxDepth.toNat).toList ++ ['\n']

/-- The search section as text. -/
def SearchConfig.toToml (s : SearchConfig) : List Char :=
  "[search]\ndefault_limit = ".toList ++ (toString s.defaultLimit.toNat).toList ++ ['\n']

/-- A configuration as text, unless a number in it is too large for TOML. -/
def Config.toToml? (config : Config) : Option String :=
  if (config.search.defaultLimit.toNat : Int) ≤ Toml.maxInteger then
    some (String.ofList (config.storage.toToml ++ '\n' :: config.impact.toToml ++
      '\n' :: config.search.toToml))
  else none

/-! ## Files -/

/-- Why a configuration is not loaded or saved. -/
inductive ConfigFileError where
  /-- The environment names no directory for it. -/
  | noLocation
  /-- It cannot be worked with. -/
  | refused (error : ConfigError)
  /-- The file cannot be read. -/
  | unreadable (path : String) (error : DiskError)
  /-- The file holds no configuration. -/
  | malformed (path : String)
  /-- The directory of the file cannot be made. -/
  | noDirectory (path : String) (error : DiskError)
  /-- The configuration has no text. -/
  | unwritable
  /-- The file cannot be written. -/
  | notWritten (path : String) (error : DiskError)
deriving DecidableEq, Repr

namespace ConfigFileError

/-- A failure in words. -/
def message : ConfigFileError → String
  | .noLocation => "Could not determine config directory"
  | .refused error => error.message
  | .unreadable path _ => "Failed to read config file: " ++ path
  | .malformed path => "Failed to parse config file: " ++ path
  | .noDirectory path _ => "Failed to create config directory: " ++ path
  | .unwritable => "Failed to serialize config"
  | .notWritten path _ => "Failed to write config file: " ++ path

/-- What lies behind a failure. -/
def causes : ConfigFileError → List String
  | .refused error => error.causes
  | .unreadable _ error | .noDirectory _ error | .notWritten _ error => [error.message]
  | .noLocation | .malformed _ | .unwritable => []

end ConfigFileError

namespace Config

variable {δ : Type}

/-- The configuration of a file, or the default one if there is no file. -/
def load (standard : Config) (path : String) (disk : Disk δ) : Except ConfigFileError Config :=
  if disk.has path then
    match disk.readText path with
    | .error e => .error (.unreadable path e)
    | .ok text =>
      match ofText? standard text with
      | none => .error (.malformed path)
      | some config =>
        match config.validate with
        | .error e => .error (.refused e)
        | .ok () => .ok config
  else .ok standard

/-- Makes the directory of a file. -/
def prepareDirectory (path : String) (disk : Disk δ) : Disk δ × Except ConfigFileError Unit :=
  match Path.parent? path with
  | none => (disk, .ok ())
  | some parent =>
    match disk.makeDirectories parent with
    | (disk, none) => (disk, .ok ())
    | (disk, some e) => (disk, .error (.noDirectory parent e))

/-- Writes a configuration into a file, whose directory is made first. -/
def save (config : Config) (path : String) (disk : Disk δ) :
    Disk δ × Except ConfigFileError Unit :=
  match config.validate with
  | .error e => (disk, .error (.refused e))
  | .ok () =>
    match prepareDirectory path disk with
    | (disk, .error e) => (disk, .error e)
    | (disk, .ok ()) =>
      match config.toToml? with
      | none => (disk, .error .unwritable)
      | some text =>
        match disk.write path text.toUTF8 with
        | .error e => (disk, .error (.notWritten path e))
        | .ok disk => (disk, .ok ())

/-- The configuration of the default file. -/
def loadDefault (env : Environment) (disk : Disk δ) : Except ConfigFileError Config :=
  match env.configFile with
  | some path => load (standard env) path disk
  | none => .error .noLocation

/-- Writes a configuration into the default file. -/
def saveDefault (config : Config) (env : Environment) (disk : Disk δ) :
    Disk δ × Except ConfigFileError Unit :=
  match env.configFile with
  | some path => config.save path disk
  | none => (disk, .error .noLocation)

end Config

end Ripple
