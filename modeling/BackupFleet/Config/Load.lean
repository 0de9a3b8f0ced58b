import BackupFleet.Config.Fleet
import BackupFleet.Config.Section
import BackupFleet.Diagnostic.Fault
import BackupFleet.Toml.Document

/-!
# `BackupFleet.Config.Load` — reading the configuration

The configuration file has a table of settings and a table of servers. The settings may name a directory
with more files; their servers are added in the order of the files' names, and the first definition of a
server counts. The settings in those files must be well-formed and mean nothing.

Without an explicit choice, the configuration file is the first of three default places that exists.

## Contents

* `findConfiguration` — the choice of the file;
* `ConfigFile`, `ConfigFile.read` — what a file says;
* `Fleet.load` — the fleet that the files describe.
-/

namespace BackupFleet

open Toml (Value)

/-! ## Finding the file -/

/-- Where the configuration file is looked for; `~` stands for the home directory. -/
def defaultPlaces : List String := ["~/.bman.toml", "/etc/bman.toml", "/etc/bman/bman.toml"]

/-- The path with the home directory in place of a leading `~`. -/
def expandHome (home path : String) : String :=
  match path.toList with
  | '~' :: r => home ++ String.ofList r
  | _ => path

/-- The explicit file, or else the first default place where there is something. -/
def findConfiguration (explicit home : Option String) (fs : FileSystem) : Except Fault String :=
  match explicit with
  | some path => .ok path
  | none =>
    match (defaultPlaces.map (expandHome (home.getD ""))).find? fs.exists_ with
    | some path => .ok path
    | none => .error (.noConfiguration defaultPlaces)

/-! ## What a file says -/

/-- The settings that a file sets. -/
structure SettingsSection where
  home : Option String := none
  lockDirectory : Option String := none
  logFile : Option String := none
  logLevel : Option String := none
  filesDirectory : Option String := none
deriving DecidableEq, Repr

namespace SettingsSection

/-- The names of the settings, in the order of their values in an array. -/
def names : List String :=
  ["home", "lock_directory", "log_file", "log_level", "configuration_files_directory"]

/-- A text, if there is a value at all. -/
def readText : Option Value → Option (Option String)
  | none => some none
  | some (.text s) => some (some s)
  | some _ => none

/-- The section whose settings have these values. -/
def ofValues (values : List (Option Value)) : Option SettingsSection := do
  match ← values.mapM readText with
  | [home, lockDirectory, logFile, logLevel, filesDirectory] =>
    pure { home, lockDirectory, logFile, logLevel, filesDirectory }
  | _ => none

/-- The section of a value: a table by names, an array by places. -/
def read : Value → Option SettingsSection
  | .array items => ofValues ((items.take names.length).map some)
  | v => v.fields?.bind fun fields => ofValues (names.map fun name => fields.lookup name)

/-- The settings with all that a section sets. A home directory moves the lock with it, unless the lock
    directory is set too. -/
def configure (s : SettingsSection) (configFile : String) : Settings :=
  let base := Settings.new configFile
  let home := s.home.getD base.home
  { base with
    home
    lockDirectory := s.lockDirectory.getD (s.home.getD base.lockDirectory)
    logFile := s.logFile
    logLevel := s.logLevel.getD base.logLevel
    filesDirectory := s.filesDirectory }

end SettingsSection

/-- Settings, and the values that describe servers, by names. -/
structure ConfigFile where
  settings : SettingsSection
  servers : List (String × Value)

/-- What a file says, if its table has the right shape. -/
def ConfigFile.ofValue (v : Value) : Option ConfigFile := do
  let settings ← match v.get? "global" with
    | some v => SettingsSection.read v
    | none => some {}
  let servers ← match v.get? "servers" with
    | some v => v.fields?
    | none => some []
  pure ⟨settings, servers⟩

/-- What the file at a path says. -/
def ConfigFile.read (fs : FileSystem) (path : String) : Except Fault ConfigFile := do
  let content ← match fs.readText path with
    | .ok cs => .ok cs
    | .error e => .error (.file .readConfiguration path e)
  match (Toml.readDocument content).bind ConfigFile.ofValue with
  | some f => pure f
  | none => .error (.badConfiguration path)

/-! ## More files -/

/-- The configuration files in a directory, in the order of their names. -/
def configFilesIn (fs : FileSystem) (dir : String) : Except Fault (List String) :=
  match fs.listDirectory dir with
  | .ok names =>
    .ok ((names.filter (Path.hasExtension "toml")).map (Path.join dir) |>.filter fs.isFile)
  | .error e => .error (.file .readDirectory dir e)

/-- The servers of files, one file after the other. -/
def readServers (fs : FileSystem) : List String → Except Fault (List (String × Value))
  | [] => .ok []
  | path :: r => do
    let first ← ConfigFile.read fs path
    let rest ← readServers fs r
    pure (first.servers ++ rest)

/-- The servers of the files in the directory that the settings name, if they name one. -/
def readMoreServers (fs : FileSystem) : Option String → Except Fault (List (String × Value))
  | none => .ok []
  | some dir => do readServers fs (← configFilesIn fs dir)

/-- The map in which the first of several values of a name counts. -/
def firstOfEach {α : Type} (l : List (String × α)) : OrderedMap α :=
  l.foldl (fun m e => if m.contains e.1 then m else m.insert e.1 e.2) .empty

/-! ## The fleet -/

/-- The fleet with these settings and these servers, with the conflicts among them. -/
def Fleet.ofServers (settings : Settings) (servers : List ServerConfig) : Fleet :=
  ⟨settings, servers, (findConflicts servers).map Conflict.message⟩

/-- The fleet that a configuration file describes. -/
def Fleet.load (fs : FileSystem) (path : String) : Except Fault Fleet := do
  let main ← ConfigFile.read fs path
  let settings := main.settings.configure path
  let more ← readMoreServers fs settings.filesDirectory
  -- The main file stands first, so its definitions count before all others.
  let sections := firstOfEach (main.servers ++ more)
  pure (.ofServers settings
    (sections.entries.map fun (name, v) => ServerConfig.ofValue name settings.home v))

end BackupFleet
