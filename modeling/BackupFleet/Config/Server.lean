import BackupFleet.Json
import BackupFleet.Path

/-!
# `BackupFleet.Config.Server` — a server and the settings of the program

What the configuration says about one database server: where its backups and its WAL files are stored,
which commands copy and restore them, and how a copy is made. A server whose configuration has problems
is kept, together with the problems; it is then disabled.

## Contents

* `ReuseBackup` — what a copy does with files that have not changed;
* `StorageOption`, `ServerConfig`, `ServerConfig.new`, `disable`, `paths` — a server;
* `Settings` — what concerns all servers.
-/

namespace BackupFleet

/-! ## Reuse of a previous backup -/

/-- Every file is copied, unchanged files come from the previous backup, or they are linked to it. -/
inductive ReuseBackup where
  | off
  | copy
  | link
deriving DecidableEq, Repr

namespace ReuseBackup

/-- The value of the option. -/
def name : ReuseBackup → String
  | off => "off"
  | copy => "copy"
  | link => "link"

/-- What is wrong with a value of the option. -/
def complaint (value : String) : String :=
  "invalid reuse_backup value '" ++ value ++ "' (expected off, copy or link)"

/-- The meaning of a value of the option. -/
def read (s : String) : Except String ReuseBackup :=
  if s = "off" then .ok off
  else if s = "copy" then .ok copy
  else if s = "link" then .ok link
  else .error (complaint s)

@[simp] theorem read_name (r : ReuseBackup) : read r.name = .ok r := by cases r <;> rfl

end ReuseBackup

/-! ## Servers -/

/-- The four directories of a server. -/
inductive StorageOption where
  | backup
  | basebackups
  | wals
  | incomingWals
deriving DecidableEq, Repr

/-- The option that sets the directory. -/
def StorageOption.name : StorageOption → String
  | backup => "backup_directory"
  | basebackups => "basebackups_directory"
  | wals => "wals_directory"
  | incomingWals => "incoming_wals_directory"

/-- A configured server. `problems` are in the order in which they were found. -/
structure ServerConfig where
  name : String
  description : String
  active : Bool
  backupDirectory : String
  basebackupsDirectory : String
  walsDirectory : String
  incomingWalsDirectory : String
  backupCommand : Option String
  recoveryCommand : Option String
  sshCommand : Option String
  reuseBackup : ReuseBackup
  immediateCheckpoint : Bool
  retryTimes : Nat
  retrySleep : Nat
  problems : List String
deriving DecidableEq, Repr

namespace ServerConfig

/-- The server with its three lower directories at their places below the backup directory. -/
def storeAt (c : ServerConfig) (dir : String) : ServerConfig :=
  { c with
    backupDirectory := dir
    basebackupsDirectory := Path.join dir "base"
    walsDirectory := Path.join dir "wals"
    incomingWalsDirectory := Path.join dir "incoming" }

/-- A server of which only the name is known. -/
def new (name home : String) : ServerConfig :=
  storeAt
    { name
      description := ""
      active := true
      backupDirectory := ""
      basebackupsDirectory := ""
      walsDirectory := ""
      incomingWalsDirectory := ""
      backupCommand := none
      recoveryCommand := none
      sshCommand := none
      reuseBackup := .off
      immediateCheckpoint := false
      retryTimes := 0
      retrySleep := 30
      problems := [] }
    (Path.join home name)

/-- The configuration has problems. -/
def disabled (c : ServerConfig) : Bool := !c.problems.isEmpty

/-- The server with one more problem. -/
def disable (c : ServerConfig) (problem : String) : ServerConfig :=
  { c with problems := c.problems ++ [problem] }

/-- The four directories with the options that set them. -/
def paths (c : ServerConfig) : List (StorageOption × String) :=
  [(.backup, c.backupDirectory), (.basebackups, c.basebackupsDirectory), (.wals, c.walsDirectory),
    (.incomingWals, c.incomingWalsDirectory)]

@[simp] theorem disabled_disable (c : ServerConfig) (p : String) : (c.disable p).disabled = true := by
  simp [disabled, disable]

@[simp] theorem name_new (name home : String) : (new name home).name = name := rfl

/-- The server as a report shows it. -/
def toJson (c : ServerConfig) : Json :=
  .ofFields
    [("name", .text c.name), ("description", .text c.description), ("active", .bool c.active),
      ("backup_directory", .text c.backupDirectory),
      ("basebackups_directory", .text c.basebackupsDirectory),
      ("wals_directory", .text c.walsDirectory),
      ("incoming_wals_directory", .text c.incomingWalsDirectory),
      ("backup_command", .ofOption c.backupCommand), ("recovery_command", .ofOption c.recoveryCommand),
      ("ssh_command", .ofOption c.sshCommand), ("reuse_backup", .text c.reuseBackup.name),
      ("immediate_checkpoint", .bool c.immediateCheckpoint),
      ("basebackup_retry_times", .count c.retryTimes), ("basebackup_retry_sleep", .count c.retrySleep),
      ("msg_list", .list (c.problems.map .text))]

end ServerConfig

/-! ## Settings -/

/-- Settings of the program: the file they were read from, where servers are stored by default, where
    the maintenance lock is, the log, and a directory with more server definitions. -/
structure Settings where
  configFile : String
  home : String
  lockDirectory : String
  logFile : Option String
  logLevel : String
  filesDirectory : Option String
deriving DecidableEq, Repr

namespace Settings

/-- Where servers are stored unless the configuration says otherwise. -/
def defaultHome : String := "/var/lib/bman"

/-- The settings of an empty configuration file. -/
def new (configFile : String) : Settings :=
  ⟨configFile, defaultHome, defaultHome, none, "info", none⟩

/-- The settings as a report shows them. -/
def toJson (s : Settings) : Json :=
  .ofFields
    [("config_file", .text s.configFile), ("home", .text s.home),
      ("lock_directory", .text s.lockDirectory), ("log_file", .ofOption s.logFile),
      ("log_level", .text s.logLevel), ("configuration_files_directory", .ofOption s.filesDirectory)]

end Settings

/-- The level of detail that a value of the log level option means. -/
def readLogLevel (value : String) : Option String :=
  match String.ofList ((Text.trim value.toList).map Char.toLower) with
  | "trace" => some "trace"
  | "debug" => some "debug"
  | "info" => some "info"
  | "warn" | "warning" => some "warn"
  | "error" | "critical" => some "error"
  | _ => none

end BackupFleet
