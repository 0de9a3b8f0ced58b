import BackupFleet.Storage.Host

/-!
# `BackupFleet.Storage.Reading` — what the files say about a server

Each backup of a server has a directory below the directory of base backups, named by its id; the file
`backup.info` in it holds the record, and `data` holds the copy. Archived WAL files are in a directory of
their own, with a catalog `xlog.db` of their names, one a line. All answers about a server are read from
these files; the catalog of backups is in ascending order of the ids in the records.

A backup is looked up by the name of its directory. A text that is no plain name (empty, with a slash or
a backslash, or starting with a point) names no backup.

## Contents

* `backupDir`, `recordPath`, `walCatalogPath` — the places;
* `loadRecord`, `listBackups`, `getBackup`, `firstId`, `lastId` — the catalog of backups;
* `readWalCatalog` — the catalog of WAL files;
* `status`, `describe`, `check`, `listFiles`, `diagnose` — answers.
-/

namespace BackupFleet.Storage

open Catalog

/-! ## Places -/

/-- The directory of a backup. -/
def backupDir (c : ServerConfig) (id : String) : String := Path.join c.basebackupsDirectory id

/-- The copy that a backup consists of. -/
def dataDir (c : ServerConfig) (id : String) : String := Path.join (backupDir c id) "data"

/-- The name of the file with a record. -/
def recordName : String := "backup.info"

/-- The record of a backup. -/
def recordPath (c : ServerConfig) (id : String) : String := Path.join (backupDir c id) recordName

/-- The name of the catalog of WAL files. -/
def walCatalogName : String := "xlog.db"

/-- The catalog of WAL files. -/
def walCatalogPath (c : ServerConfig) : String := Path.join c.walsDirectory walCatalogName

/-! ## The catalog of backups -/

/-- The record in a file. -/
def loadRecord (fs : FileSystem) (path : String) : Except Fault Record := do
  match Record.decode (← attemptTo .openFile path (fs.readFile path)) with
  | .ok r => pure r
  | .error e => .error (.undecodable path e)

/-- The records in files, one after the other. -/
def loadRecords (fs : FileSystem) : List String → Except Fault (List Record)
  | [] => .ok []
  | path :: r => do
    let first ← loadRecord fs path
    let rest ← loadRecords fs r
    pure (first :: rest)

/-- The files with records below the directory of base backups. -/
def recordPaths (fs : FileSystem) (c : ServerConfig) (names : List String) : List String :=
  (names.map (recordPath c)).filter fs.isFile

/-- All backups, in ascending order of ids; none without a directory of base backups. -/
def listBackups (c : ServerConfig) : Question FileSystem (List Record) := fun fs => do
  let base := c.basebackupsDirectory
  if fs.exists_ base then
    let names ← attemptTo .readDirectory base (fs.listDirectory base)
    let records ← loadRecords fs (recordPaths fs c names)
    pure (sortOn (·.id) records)
  else pure []

/-- The text can be the name of a backup's directory. -/
def isPlainName (id : String) : Bool :=
  match id.toList with
  | [] => false
  | '.' :: _ => false
  | cs => !cs.contains '/' && !cs.contains '\\'

/-- The backup in the directory with this name. -/
def getBackup (c : ServerConfig) (id : String) : Question FileSystem (Option Record) := fun fs =>
  if isPlainName id && fs.isFile (recordPath c id) then (loadRecord fs (recordPath c id)).map some
  else .ok none

/-- The id of the first backup. -/
def firstId (c : ServerConfig) : Question FileSystem (Option String) := fun fs =>
  (listBackups c fs).map fun l => l.head?.map (·.id)

/-- The id of the last backup. -/
def lastId (c : ServerConfig) : Question FileSystem (Option String) := fun fs =>
  (listBackups c fs).map fun l => l.getLast?.map (·.id)

/-! ## The catalog of WAL files -/

/-- The names in the text of a catalog: its lines without blanks around them, empty ones left out. -/
def walNames (content : List Char) : List String :=
  (((Text.lines content).map Text.trim).filter (· ≠ [])).map String.ofList

/-- The names of the archived WAL files. -/
def readWalCatalog (c : ServerConfig) : Question FileSystem (List String) := fun fs =>
  let path := walCatalogPath c
  if fs.exists_ path then (attemptTo .readWalCatalog path (fs.readText path)).map walNames else .ok []

/-! ## Answers -/

/-- The word for a flag. -/
def flag (b : Bool) : String := if b then "true" else "false"

/-- A backup with its status, or a dash. -/
def describeBackup : Option Record → String
  | some r => r.id ++ " (" ++ r.status.name ++ ")"
  | none => "-"

/-- How a server is doing. -/
def status (c : ServerConfig) : Question FileSystem (List (String × String)) := fun fs => do
  let backups ← listBackups c fs
  let wals ← readWalCatalog c fs
  pure
    [("Description", c.description), ("Active", flag c.active), ("Disabled", flag c.disabled),
      ("No. of available backups", toString backups.length),
      ("First available backup", describeBackup backups.head?),
      ("Last available backup", describeBackup backups.getLast?),
      ("No. of WAL files", toString wals.length), ("Backup directory", c.backupDirectory)]

/-- How a server is configured. -/
def describe (c : ServerConfig) : List (String × String) :=
  [("active", flag c.active), ("description", c.description), ("disabled", flag c.disabled),
    ("backup_directory", c.backupDirectory), ("basebackups_directory", c.basebackupsDirectory),
    ("wals_directory", c.walsDirectory), ("incoming_wals_directory", c.incomingWalsDirectory),
    ("backup_command", c.backupCommand.getD ""), ("recovery_command", c.recoveryCommand.getD ""),
    ("ssh_command", c.sshCommand.getD ""), ("reuse_backup", c.reuseBackup.name),
    ("immediate_checkpoint", flag c.immediateCheckpoint),
    ("basebackup_retry_times", toString c.retryTimes),
    ("basebackup_retry_sleep", toString c.retrySleep)]

/-- The check that all directories are there. -/
def checkDirectories (c : ServerConfig) (fs : FileSystem) : CheckResult :=
  let missing := (c.paths.filter fun (_, p) => !fs.isDirectory p).map fun (o, p) => o.name ++ "=" ++ p
  if missing = [] then ⟨"directories", true, none⟩
  else ⟨"directories", false, some ("missing " ++ ", ".intercalate missing)⟩

/-- The check that the catalog of backups can be read. -/
def checkCatalog (c : ServerConfig) (fs : FileSystem) : CheckResult :=
  match listBackups c fs with
  | .ok _ => ⟨"backup catalog", true, none⟩
  | .error f => ⟨"backup catalog", false, some f.chain⟩

/-- The checks of a server. -/
def check (c : ServerConfig) (fs : FileSystem) : List CheckResult :=
  [checkDirectories c fs, ⟨"backup_command", c.backupCommand.isSome, none⟩, checkCatalog c fs]

/-- The files of a backup's copy. -/
def dataFiles (c : ServerConfig) (r : Record) (fs : FileSystem) : List String :=
  fs.filesUnder (dataDir c r.id)

/-- How a range of WAL names ends: with a name that is still in it, before a name, or not at all. -/
inductive WalEnd where
  | through (wal : String)
  | before (wal : String)
  | open_
deriving DecidableEq, Repr

/-- The name is not past the end. -/
def WalEnd.covers : WalEnd → String → Bool
  | through last, wal => decide (wal ≤ last)
  | before next, wal => decide (wal < next)
  | open_, _ => true

/-- The paths of the catalogued WAL files in a range, in the order of the catalog. -/
def walFiles (c : ServerConfig) (first : String) (last : WalEnd) : Question FileSystem (List String) :=
  fun fs => (readWalCatalog c fs).map fun wals =>
    (wals.filter fun wal => decide (first ≤ wal) && last.covers wal).map (Path.join c.walsDirectory)

/-- The backup after one, in the order of ids. -/
def nextBackup (c : ServerConfig) (r : Record) : Question FileSystem (Option Record) := fun fs =>
  (listBackups c fs).map fun l => l.find? fun b => decide (r.id < b.id)

/-- The WAL files from a backup up to the next one. -/
def walsUntilNext (c : ServerConfig) (r : Record) (beginWal : String) :
    Question FileSystem (List String) := fun fs => do
  -- A next backup without WAL files of its own leaves the range open.
  let next ← nextBackup c r fs
  let last := match next.bind (·.beginWal) with
    | some wal => WalEnd.before wal
    | none => WalEnd.open_
  walFiles c beginWal last fs

/-- The files of a backup in a scope: the data, then the WAL files. -/
def listFiles (c : ServerConfig) (r : Record) (scope : FileScope) : Question FileSystem (List String) :=
  fun fs => do
    let data := match scope with
      | .standalone | .data | .full => dataFiles c r fs
      | .wal => []
    match r.beginWal with
    | none => pure data
    | some beginWal =>
      match scope with
      | .data => pure data
      | .standalone =>
        pure (data ++ (← walFiles c beginWal (.through (r.endWal.getD beginWal)) fs))
      | .wal | .full => pure (data ++ (← walsUntilNext c r beginWal fs))

/-- All about a server: its configuration, the status of each backup, and how many WAL files there are. -/
def diagnose (c : ServerConfig) : Question FileSystem Json := fun fs => do
  let backups ← listBackups c fs
  let wals ← readWalCatalog c fs
  let statuses := OrderedMap.ofList (backups.map fun r => (r.id, r.status.name))
  pure (.ofFields
    [("config", c.toJson), ("backups", .ofMap Json.text statuses), ("wal_files", .count wals.length)])

end BackupFleet.Storage
