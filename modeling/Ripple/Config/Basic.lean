import Ripple.Config.Location
import Ripple.Text.Blank

/-!
# Configuration

A `Config` has three sections: where the graph is stored, how far an impact analysis
goes and how much a search returns. `Config.get` and `Config.set` know its four values
by their keys; a value is given and taken as text.

`Config.validate` refuses what no run can work with. `Config.set` refuses it one value
at a time, and a blank database path as well.
-/

namespace Ripple

/-- Where the graph is stored. -/
structure StorageConfig where
  /-- The database file. -/
  databasePath : String
  /-- How many connections to it there can be. -/
  maxConnections : UInt32
deriving DecidableEq, Repr

/-- How far an analysis goes. -/
structure ImpactConfig where
  /-- The number of hops if nobody asks for another. -/
  maxDepth : UInt32
deriving DecidableEq, Repr

/-- How much a search returns. -/
structure SearchConfig where
  /-- The number of results if nobody asks for another. -/
  defaultLimit : UInt64
deriving DecidableEq, Repr

/-- The configuration. -/
structure Config where
  /-- Where the graph is stored. -/
  storage : StorageConfig
  /-- How far an analysis goes. -/
  impact : ImpactConfig
  /-- How much a search returns. -/
  search : SearchConfig
deriving DecidableEq, Repr

/-- The number of hops of an analysis by default. -/
def ImpactConfig.defaultDepth : UInt32 := 3

/-- The number of results of a search by default. -/
def SearchConfig.defaultResults : UInt64 := 10

/-- Why a text is no number. -/
inductive NumberFault where
  /-- It is empty. -/
  | empty
  /-- Something in it is no digit. -/
  | notDigits
  /-- The number is too large. -/
  | tooLarge
deriving DecidableEq, Repr

/-- Why a text is no number, in words. -/
def NumberFault.message : NumberFault → String
  | .empty => "cannot parse integer from empty string"
  | .notDigits => "invalid digit found in string"
  | .tooLarge => "number too large to fit in target type"

/-- Why a configuration or a change of it is refused. -/
inductive ConfigError where
  /-- There is no value of this key. -/
  | unknownKey (key : String)
  /-- The database path is blank. -/
  | blankPath
  /-- A value is no number. -/
  | badNumber (name value : String) (fault : NumberFault)
  /-- A value that must not be zero is set to zero. -/
  | zero (name : String)
deriving DecidableEq, Repr

/-- A refusal in words. -/
def ConfigError.message : ConfigError → String
  | .unknownKey key => "Unknown configuration key: " ++ key
  | .blankPath => "Database path must not be empty"
  | .badNumber name value _ => "Invalid " ++ name ++ " value: " ++ value
  | .zero name => name ++ " must be at least 1"

/-- What lies behind a refusal. -/
def ConfigError.causes : ConfigError → List String
  | .badNumber _ _ fault => [fault.message]
  | _ => []

namespace Config

/-- The configuration by default. -/
def standard (env : Environment) : Config where
  storage := ⟨env.databaseFile, 5⟩
  impact := ⟨ImpactConfig.defaultDepth⟩
  search := ⟨SearchConfig.defaultResults⟩

/-- Whether all values can be worked with. -/
def validate (config : Config) : Except ConfigError Unit :=
  if config.storage.maxConnections = 0 then .error (.zero "storage.max_connections")
  else if config.search.defaultLimit = 0 then .error (.zero "search.default_limit")
  else .ok ()

/-- The keys, in the order in which they are listed. -/
def keys : List String :=
  ["storage.database_path", "storage.max_connections", "impact.max_depth", "search.default_limit"]

/-- The value of a key. -/
def get (config : Config) (key : String) : Except ConfigError String :=
  if key = "storage.database_path" then .ok config.storage.databasePath
  else if key = "storage.max_connections" then .ok (toString config.storage.maxConnections.toNat)
  else if key = "impact.max_depth" then .ok (toString config.impact.maxDepth.toNat)
  else if key = "search.default_limit" then .ok (toString config.search.defaultLimit.toNat)
  else .error (.unknownKey key)

/-- The number that some digits write, below a bound. -/
def digitsBelow (bound number : Nat) : List Char → Except NumberFault Nat
  | [] => .ok number
  | c :: rest =>
    if c.isDigit then
      let next := number * 10 + (c.toNat - 48)
      if next < bound then digitsBelow bound next rest else .error .tooLarge
    else .error .notDigits

/-- The number that a text writes: digits, after a plus sign or none. -/
def numberBelow (bound : Nat) (text : String) : Except NumberFault Nat :=
  match text.toList with
  | [] => .error .empty
  | c :: rest =>
    if c = '+' ∧ rest ≠ [] then digitsBelow bound 0 rest else digitsBelow bound 0 (c :: rest)

/-- A configuration with another value of a key. -/
def set (config : Config) (key value : String) : Except ConfigError Config :=
  let number (name : String) (bound : Nat) : Except ConfigError Nat :=
    (numberBelow bound value).mapError (.badNumber name value)
  if key = "storage.database_path" then
    if Text.allBlank value then .error .blankPath
    else .ok { config with storage.databasePath := value }
  else if key = "storage.max_connections" then do
    let n ← number "max_connections" UInt32.size
    if n = 0 then throw (.zero "max_connections")
    return { config with storage.maxConnections := .ofNat n }
  else if key = "impact.max_depth" then do
    let n ← number "max_depth" UInt32.size
    return { config with impact.maxDepth := .ofNat n }
  else if key = "search.default_limit" then do
    let n ← number "default_limit" UInt64.size
    if n = 0 then throw (.zero "default_limit")
    return { config with search.defaultLimit := .ofNat n }
  else .error (.unknownKey key)

/-- All keys with their values. -/
def entries (config : Config) : List (String × String) :=
  keys.filterMap fun key => (config.get key).toOption.map (key, ·)

end Config

end Ripple
