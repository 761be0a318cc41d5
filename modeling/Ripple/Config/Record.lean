import Ripple.Config.Basic
import Ripple.Record.Fields

/-!
# Records of the configuration

The codec of configurations. A section that is left out has its default values.
-/

namespace Ripple

open Record (Fields)

/-- The codec of the storage section. -/
def StorageConfig.codec : Codec StorageConfig :=
  (Record.codec "struct StorageConfig" <|
    .field "database_path" (.stringAs "path string") .never <|
    .field "max_connections" .word32 .never .done).map
    (fun s => (s.databasePath, s.maxConnections, ())) fun (path, max, _) => ⟨path, max⟩

/-- The codec of the impact section. -/
def ImpactConfig.codec : Codec ImpactConfig :=
  (Record.codec "struct ImpactConfig" (.field "max_depth" .word32 .never .done)).map
    (fun s => (s.maxDepth, ())) fun (depth, _) => ⟨depth⟩

/-- The codec of the search section. -/
def SearchConfig.codec : Codec SearchConfig :=
  (Record.codec "struct SearchConfig" (.field "default_limit" (.word64 "usize") .never .done)).map
    (fun s => (s.defaultLimit, ())) fun (limit, _) => ⟨limit⟩

/-- The codec of configurations, given the default values. -/
def Config.codec (standard : Config) : Codec Config :=
  (Record.codec "struct Config" <|
    .field "storage" StorageConfig.codec (.anywhere standard.storage) <|
    .field "impact" ImpactConfig.codec (.anywhere standard.impact) <|
    .field "search" SearchConfig.codec (.anywhere standard.search) .done).map
    (fun c => (c.storage, c.impact, c.search, ()))
    fun (storage, impact, search, _) => ⟨storage, impact, search⟩

end Ripple
