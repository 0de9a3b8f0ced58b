import BackupFleet.Catalog.Codec
import BackupFleet.FileSystem.Error
import BackupFleet.Hook.Outcome

/-!
# `BackupFleet.Diagnostic.Fault` — what a command cannot cope with

A fault is not the user's mistake: a file that cannot be read or written, a record that does not decode,
a hook that fails. It ends the command. Its message says what was attempted, its cause why that failed.

## Contents

* `Attempt` — what is done with files;
* `Fault`, `message`, `cause?`, `chain` — faults and their wording.
-/

namespace BackupFleet

/-- What is done with a file or a directory. -/
inductive Attempt where
  | openFile
  | createDirectory
  | createFile
  | readDirectory
  | readWalCatalog
  | writeWalCatalog
  | openWalCatalog
  | archiveWal
  | deleteBackup
  | openLock
  | readConfiguration
deriving DecidableEq, Repr

/-- How an attempt is told, before the path. -/
def Attempt.text : Attempt → String
  | openFile => "Failed to open file"
  | createDirectory => "Failed to create directory"
  | createFile => "Failed to create file"
  | readDirectory => "Failed to read directory"
  | readWalCatalog => "Failed to read WAL catalog"
  | writeWalCatalog => "Failed to write WAL catalog"
  | openWalCatalog => "Failed to open WAL catalog"
  | archiveWal => "Failed to archive WAL file"
  | deleteBackup => "Failed to delete backup directory"
  | openLock => "Failed to open lock file"
  | readConfiguration => "Failed to read configuration file"

/-- What ends a command. -/
inductive Fault where
  | file (attempt : Attempt) (path : String) (cause : FileError)
  | undecodable (path : String) (cause : Catalog.DecodeError)
  | noBackupCommand
  | noRecoveryCommand
  | backupExists (id : String)
  | hookNotStarted (command : String)
  | hookFailed (command : String) (status : ExitStatus) (stderr : String)
  | badConfiguration (path : String)
  | noConfiguration (places : List String)
deriving DecidableEq

namespace Fault

/-- What was attempted. -/
def message : Fault → String
  | file attempt path _ => attempt.text ++ ": " ++ path
  | undecodable path _ => "Failed to deserialize data from file: " ++ path
  | noBackupCommand => "backup_command is not configured"
  | noRecoveryCommand => "recovery_command is not configured"
  | backupExists id => "backup '" ++ id ++ "' already exists"
  | hookNotStarted command => "Failed to execute '" ++ command ++ "'"
  | hookFailed command status stderr =>
    "'" ++ command ++ "' failed (" ++ status.text ++ "): " ++ stderr
  | badConfiguration path => "Failed to parse configuration file: " ++ path
  | noConfiguration places =>
    "Could not find any configuration file at default locations (" ++ ", ".intercalate places ++ ")"

/-- Why it failed, if that is another matter. -/
def cause? : Fault → Option String
  | file _ _ cause => some cause.message
  | undecodable _ cause => some cause.message
  | hookNotStarted _ => some "nul byte found in provided data"
  | _ => none

/-- The message and the cause. -/
def chain (f : Fault) : String :=
  match f.cause? with
  | some cause => f.message ++ ": " ++ cause
  | none => f.message

end Fault

end BackupFleet
