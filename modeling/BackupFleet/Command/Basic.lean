import BackupFleet.Server.Request

/-!
# `BackupFleet.Command.Basic` — the commands

## Contents

* `RecoverArgs` — what a recovery is asked with, unchecked;
* `Command` — the thirteen commands.
-/

namespace BackupFleet

/-- What a recovery is asked with. -/
structure RecoverArgs where
  server : String
  backup : String
  destination : String
  target : Recovery.TargetRequest
  rules : List String
  remoteCommand : Option String
  retryTimes : Option Nat
  retrySleep : Option Nat
deriving DecidableEq, Repr

/-- What a user can ask for. -/
inductive Command where
  | listServer (minimal : Bool)
  | cron
  | backup (names : List String) (overrides : BackupOverrides)
  | listBackup (names : List String) (minimal : Bool)
  | status (names : List String)
  | rebuildXlogdb (names : List String)
  | recover (args : RecoverArgs)
  | showServer (names : List String)
  | check (names : List String)
  | diagnose
  | showBackup (server backup : String)
  | listFiles (server backup : String) (scope : FileScope)
  | delete (server backup : String)
deriving DecidableEq, Repr

end BackupFleet
