import BackupFleet.Hook.Output
import BackupFleet.Hook.Retry
import BackupFleet.Storage.Reading

/-!
# `BackupFleet.Storage.Backup` — making, restoring and deleting backups

A backup gets the current second as its id. Its record is stored before the hook runs, as started, and
again afterwards, as done or failed; so a backup that was cut off can be told from a complete one. A
failed hook fails the backup, not the command. Restoring is left to another hook, whose failure is a
fault. Deleting removes the directory that the record names.

## Contents

* `saveRecord` — a record stored;
* `runHook`, `runHookWithRetry` — hooks;
* `backup`, `recover`, `deleteBackup` — the services.
-/

namespace BackupFleet.Storage

open Catalog

/-! ## Records -/

/-- The record in its place, with the directory for it. -/
def saveRecord (c : ServerConfig) (r : Record) : Operation Host Unit := do
  let dir := backupDir c r.id
  Host.onFiles .createDirectory dir (FileSystem.makeDirectories dir)
  let path := recordPath c r.id
  Host.onFiles .createFile path (FileSystem.writeFile path r.encode)

/-! ## Hooks -/

/-- A NUL byte cannot be handed to a process. -/
def HookCall.hasNul (call : HookCall) : Bool :=
  call.command.toList.contains '\x00' || call.environment.any fun v => v.2.toList.contains '\x00'

/-- A hook, run for a server. Its answer is what it wrote. -/
def runHook (hooks : HookRunner) (c : ServerConfig) (command : String)
    (parameters : List (String × String)) : Operation Host (List Char) := fun h =>
  let call : HookCall := ⟨command, ("BMAN_SERVER", c.name) :: parameters⟩
  if HookCall.hasNul call then .error (.hookNotStarted command) h
  else
    let (outcome, tree) := hooks h.hookRuns call h.files
    let h := { h with files := h.files.withTree tree, hookRuns := h.hookRuns + 1 }
    if outcome.status.success then .ok (Text.decodeLossy outcome.out) h
    else
      let err := String.ofList (Text.trim (Text.decodeLossy outcome.err))
      .error (.hookFailed command outcome.status err) h

/-- A hook, run again while it fails and retries are left, each time `seconds` later. -/
def runHookWithRetry (hooks : HookRunner) (c : ServerConfig) (command : String)
    (parameters : List (String × String)) (retries seconds : Nat) : Operation Host (List Char) :=
  retry (runHook hooks c command parameters) (Host.pause seconds) retries

/-! ## Backups -/

/-- The parameters of a backup hook. -/
def backupParameters (c : ServerConfig) (id : String) (o : BackupOptions) : List (String × String) :=
  [("BMAN_BACKUP_ID", id), ("BMAN_BACKUP_DIR", dataDir c id), ("BMAN_REUSE_BACKUP", o.reuse.name),
    ("BMAN_IMMEDIATE_CHECKPOINT", flag o.immediateCheckpoint)]

/-- What the outcome of the hook adds to the record of a backup. -/
def finish (r : Record) : Except Fault (List Char) → Record
  | .ok out => { readHookOutput out r with status := .done }
  | .error f => { r with status := .failed, error := some f.chain }

/-- An operation whose failure is part of its answer. -/
def settle {σ α : Type} (op : Operation σ α) : Operation σ (Except Fault α) := fun s =>
  match op s with
  | .ok a s => .ok (.ok a) s
  | .error f s => .ok (.error f) s

/-- A new backup. -/
def backup (hooks : HookRunner) (c : ServerConfig) (o : BackupOptions) : Operation Host Record := do
  let some command := c.backupCommand | throw .noBackupCommand
  let beginTime ← Host.now
  let id := String.ofList beginTime.compact
  -- Ids are seconds, so a second backup within one second finds the directory of the first.
  if (← get).files.exists_ (backupDir c id) then throw (.backupExists id)
  else
    let data := dataDir c id
    Host.onFiles .createDirectory data (FileSystem.makeDirectories data)
    let started := { Record.new c.name id beginTime with status := .started }
    -- This record is what is left of a backup that is cut off.
    saveRecord c started
    -- A hook that fails makes a failed backup; only storing the record can still be a fault.
    let outcome ← settle
      (runHookWithRetry hooks c command (backupParameters c id o) o.retryTimes o.retrySleep)
    let endTime ← Host.now
    let record := { finish started outcome with endTime := some endTime }
    saveRecord c record
    pure record

/-! ## Recoveries -/

/-- The parameters of a recovery hook; what is not given is empty. -/
def recoveryParameters (c : ServerConfig) (r : Record) (q : RecoveryRequest) : List (String × String) :=
  [("BMAN_BACKUP_ID", r.id), ("BMAN_BACKUP_DIR", dataDir c r.id),
    ("BMAN_DESTINATION", q.destination),
    ("BMAN_TABLESPACES", "\n".intercalate (q.relocations.entries.map Recovery.ruleText)),
    ("BMAN_TARGET_TLI", (q.target.timeline.map toString).getD ""),
    ("BMAN_TARGET_TIME", (q.target.time.map fun s => String.ofList s.rfc3339).getD ""),
    ("BMAN_TARGET_XID", (q.target.transaction.map toString).getD ""),
    ("BMAN_TARGET_NAME", q.target.name.getD ""),
    ("BMAN_TARGET_EXCLUSIVE", flag q.target.exclusive),
    ("BMAN_REMOTE_COMMAND", q.remoteCommand.getD "")]

/-- A backup restored. -/
def recover (hooks : HookRunner) (c : ServerConfig) (r : Record) (q : RecoveryRequest) :
    Operation Host Unit := do
  let some command := c.recoveryCommand | throw .noRecoveryCommand
  let _ ← runHookWithRetry hooks c command (recoveryParameters c r q) q.retryTimes q.retrySleep

/-- A backup removed. -/
def deleteBackup (c : ServerConfig) (r : Record) : Operation Host Unit :=
  let dir := backupDir c r.id
  Host.onFiles .deleteBackup dir (FileSystem.removeAll dir)

end BackupFleet.Storage
