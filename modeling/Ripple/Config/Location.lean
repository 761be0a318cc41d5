import Ripple.Files.Path

/-!
# Locations

Where the configuration and the database lie by default, as the environment says. The
configuration has a directory of its own below the user's directory of configurations,
unless the environment names another one.
-/

namespace Ripple

/-- What the environment says about locations. -/
structure Environment where
  /-- The user's home directory, if there is one. -/
  home : Option String
  /-- The user's directory of configurations, which counts if it is absolute. -/
  configHome : Option String
  /-- The directory of this program's configuration, in place of the usual one. -/
  configDirectory : Option String
deriving DecidableEq, Repr

namespace Environment

/-- The program's name in directories. -/
def directoryName : String := "impactgraph"

/-- The name of the configuration file. -/
def configFileName : String := "config.toml"

/-- The name of the database file. -/
def databaseFileName : String := "graph.db"

/-- The user's directory of configurations, if there is one. -/
def userDirectory (env : Environment) : Option String :=
  (env.configHome.filter Path.isAbsolute).or (env.home.map (Path.join · ".config"))

/-- The directory of the configuration, if there is one. -/
def configPath (env : Environment) : Option String :=
  env.configDirectory.or (env.userDirectory.map (Path.join · directoryName))

/-- The configuration file, if there is a directory for it. -/
def configFile (env : Environment) : Option String :=
  env.configPath.map (Path.join · configFileName)

/-- The database file. Without a directory for it, it lies in the working directory. -/
def databaseFile (env : Environment) : String :=
  match env.userDirectory with
  | some directory => Path.join (Path.join directory directoryName) databaseFileName
  | none => databaseFileName

end Environment

end Ripple
