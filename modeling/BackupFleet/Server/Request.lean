import BackupFleet.Config.Server
import BackupFleet.Recovery.Relocation
import BackupFleet.Recovery.Target

/-!
# `BackupFleet.Server.Request` — what is asked of a server

## Contents

* `BackupOverrides`, `BackupOptions`, `BackupOverrides.apply` — how a backup is made;
* `RecoveryRequest` — how a backup is restored;
* `FileScope` — which files of a backup are listed;
* `CheckResult` — the answer of a check.
-/

namespace BackupFleet

/-! ## Backups -/

/-- How a backup is made. -/
structure BackupOptions where
  reuse : ReuseBackup
  immediateCheckpoint : Bool
  retryTimes : Nat
  retrySleep : Nat
deriving DecidableEq, Repr

/-- What the user wants otherwise than the configuration. -/
structure BackupOverrides where
  immediateCheckpoint : Option Bool := none
  reuse : Option ReuseBackup := none
  retryTimes : Option Nat := none
  retrySleep : Option Nat := none
deriving DecidableEq, Repr

/-- The options for a server: what the user wants, or else what its configuration says. -/
def BackupOverrides.apply (o : BackupOverrides) (c : ServerConfig) : BackupOptions where
  reuse := o.reuse.getD c.reuseBackup
  immediateCheckpoint := o.immediateCheckpoint.getD c.immediateCheckpoint
  retryTimes := o.retryTimes.getD c.retryTimes
  retrySleep := o.retrySleep.getD c.retrySleep

/-! ## Recoveries -/

/-- A recovery whose parts have all been checked. -/
structure RecoveryRequest where
  destination : String
  relocations : Recovery.Relocations
  target : Recovery.Target
  remoteCommand : Option String
  retryTimes : Nat
  retrySleep : Nat

/-! ## Files -/

/-- The data and the WAL files that make it consistent; the data; the WAL files from the backup up to the
    next one; data and WAL files. -/
inductive FileScope where
  | standalone
  | data
  | wal
  | full
deriving DecidableEq, Repr

namespace FileScope

/-- The name of a scope. -/
def name : FileScope → String
  | standalone => "standalone"
  | data => "data"
  | wal => "wal"
  | full => "full"

/-- The scope with this name, or what to say about the name. -/
def read (s : String) : Except String FileScope :=
  if s = "standalone" then .ok standalone
  else if s = "data" then .ok data
  else if s = "wal" then .ok wal
  else if s = "full" then .ok full
  else .error ("invalid target '" ++ s ++ "' (expected standalone, data, wal or full)")

@[simp] theorem read_name (s : FileScope) : read s.name = .ok s := by cases s <;> rfl

end FileScope

/-! ## Checks -/

/-- The outcome of a check, with a hint. -/
structure CheckResult where
  name : String
  ok : Bool
  hint : Option String
deriving DecidableEq, Repr

end BackupFleet
