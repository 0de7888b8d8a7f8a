import LogicConsole.Engine
import LogicConsole.FileSystem
import LogicConsole.Theme
import LogicConsole.Toml.Document
/-!
The configuration: its settings and their defaults, how a TOML document sets them, and where the
file is looked for. Settings that a document does not mention keep their defaults, and what is no
setting is ignored.
-/
namespace LogicConsole

/-- The directory under the home directory that holds configuration and history. -/
def appDirectory : String := ".plconsole"

/-- Names the configuration file, if set and not empty. -/
def configVariable : String := "PLCONSOLE_CONFIG"

def defaultHistoryEntries : Nat := 500

structure HistorySettings where
  /-- Keep the queries of a session in a file. -/
  persist : Bool := true
  path : Option String := none
  /-- The number of most recent entries the file keeps. -/
  maxEntries : Nat := defaultHistoryEntries
  deriving DecidableEq, Repr

structure Config where
  theme : Theme := .default
  prompt : String := defaultPrompt
  debugLogging : Bool := false
  history : HistorySettings := {}
  deriving DecidableEq, Repr

/-- What the program is told by the process it runs in. -/
structure Environment where
  home : Option String := none
  configFile : Option String := none
  logFilter : Option String := none

inductive ConfigError
  | unreadable (path : String) (cause : IoError)
  | malformed (path : String)
  /-- The file keeps a history of no entries. -/
  | noEntries
  deriving DecidableEq, Repr

namespace ConfigError

def message : ConfigError → String
  | .unreadable path _ => "Failed to read config file: " ++ path
  | .malformed path => "Failed to parse config file: " ++ path
  | .noEntries => "Configuration validation failed"

def noEntriesText : String :=
  "history.max_entries must be at least 1 when history.persist is enabled"

end ConfigError

open Toml (Value Entries)

def asBool : Value → Option Bool
  | .boolean value => some value
  | _ => none

def asString : Value → Option String
  | .string text => some text
  | _ => none

def asCount : Value → Option Nat
  | .integer (.ofNat n) => some n
  | _ => none

def isEmptyCollection : Value → Bool
  | .array [] | .table _ [] | .tables [] => true
  | _ => false

/-- A theme is named by a string, or by the one key of a table whose value holds nothing. -/
def asTheme : Value → Option Theme
  | .string name => Theme.ofName? name
  | .table _ [(name, value)] => if isEmptyCollection value then Theme.ofName? name else none
  | _ => none

/-- A setting as the value gives it, or the default where there is no value. -/
def setting {α : Type} (read : Value → Option α) (default : α) : Option Value → Option α
  | none => some default
  | some value => read value

namespace HistorySettings

def read (persist path maxEntries : Option Value) : Option HistorySettings := do
  return {
    persist := ← setting asBool true persist
    path := ← setting (fun v => (asString v).map some) none path
    maxEntries := ← setting asCount defaultHistoryEntries maxEntries }

/-- The settings as a table by their names, or as an array in their order. A point in time counts
as a table that holds none of them. -/
def ofValue? : Value → Option HistorySettings
  | .table _ entries =>
    read (entries.lookup "persist") (entries.lookup "path") (entries.lookup "max_entries")
  | .array values | .tables values => read values[0]? values[1]? values[2]?
  | .moment => some {}
  | _ => none

end HistorySettings

namespace Config

def ofEntries? (entries : Entries) : Option Config := do
  return {
    theme := ← setting asTheme .default (entries.lookup "theme")
    prompt := ← setting asString defaultPrompt (entries.lookup "prompt")
    debugLogging := ← setting asBool false (entries.lookup "debug_logging")
    history := ← setting HistorySettings.ofValue? {} (entries.lookup "history") }

/-- A history that is kept has room for an entry. -/
def isValid (c : Config) : Bool := !(c.history.persist && c.history.maxEntries == 0)

/-- The file the history is kept in, if it is kept. -/
def historyPath (c : Config) (env : Environment) : Option String :=
  if c.history.persist then
    c.history.path <|>
      env.home.map fun home => Path.join (Path.join home appDirectory) "history"
  else none

/-- The configuration in a file; a missing file gives the defaults. -/
def loadFrom (fs : FileSystem) (path : String) : Except ConfigError Config :=
  if !fs.exists? (.ofString path) then .ok {}
  else
    match fs.readText (.ofString path) with
    | .error cause => .error (.unreadable path cause)
    | .ok text =>
      match (Toml.parse text).bind ofEntries? with
      | none => .error (.malformed path)
      | some config => if config.isValid then .ok config else .error .noEntries

/-- Where the file is looked for. -/
def defaultPath (env : Environment) : Option String :=
  match env.configFile with
  | some path => if path ≠ "" then some path else underHome
  | none => underHome
where
  underHome := env.home.map fun home => Path.join (Path.join home appDirectory) "config.toml"

end Config

/-- Where the configuration came from. -/
inductive ConfigSource
  | file (path : String)
  | defaults
  deriving DecidableEq, Repr

namespace ConfigSource

def text : ConfigSource → String
  | .file path => path
  | .defaults => "built-in defaults"

/-- A file counts when it exists. -/
def ofPath (fs : FileSystem) : Option String → ConfigSource
  | some path => if fs.exists? (.ofString path) then .file path else .defaults
  | none => .defaults

end ConfigSource

/-- The configuration of a process, and its source. -/
def Config.load (fs : FileSystem) (env : Environment) :
    Except ConfigError (Config × ConfigSource) := do
  match ConfigSource.ofPath fs (Config.defaultPath env) with
  | .file path => return (← loadFrom fs path, .file path)
  | .defaults => return ({}, .defaults)

end LogicConsole
