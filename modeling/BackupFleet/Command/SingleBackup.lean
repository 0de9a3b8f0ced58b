import BackupFleet.Command.Basic
import BackupFleet.Command.Session

/-!
# `BackupFleet.Command.SingleBackup` — commands on one backup

These commands name a server and a backup. They check what they are given, the cheapest checks first,
and only then have the server do something; the first check that fails is reported and ends the command.

## Contents

* `withServer`, `findBackup`, `withBackup` — the server and the backup that are meant;
* `showBackup`, `listFiles`, `delete`, `recover` — the commands.
-/

namespace BackupFleet.Run

variable {σ : Type}

/-! ## Server and backup -/

/-- `act` on the server with a name, if a policy admits it. -/
def withServer (f : Fleet) (name : String) (policy : Policy) (act : ServerConfig → Run σ Unit) :
    Run σ Unit := do
  let (messages, outcome) := resolveOne f name policy
  say messages
  match outcome with
  | .ready c => act c
  | .unknown => report (.unknownServer name)
  | .aborted => pure ()

/-- The backup that a text means. -/
def findBackup (s : Services σ) (c : ServerConfig) (backup : String) :
    Run σ (Option Catalog.Record) :=
  ask fun world => (Catalog.Identifier.read backup).resolve (s.lookup c world)

/-- `act` on the backup that a text means, if there is one. -/
def withBackup (s : Services σ) (c : ServerConfig) (backup : String)
    (act : Catalog.Record → Run σ Unit) : Run σ Unit := do
  match ← findBackup s c backup with
  | some r => act r
  | none => report (.unknownBackup c.name backup)

/-! ## Looking at a backup -/

/-- All that a record says, line by line. -/
def recordLines (r : Catalog.Record) : List String :=
  let time (t : Time.Moment) := String.ofList t.spelled
  ["Backup " ++ r.id ++ ":",
    "  Server Name            : " ++ r.server,
    "  Status                 : " ++ r.status.name,
    "  Begin time             : " ++ time r.beginTime,
    "  End time               : " ++ (r.endTime.map time).getD "-",
    "  Begin WAL              : " ++ r.beginWal.getD "-",
    "  End WAL                : " ++ r.endWal.getD "-"] ++
  (if r.tablespaces = [] then []
    else "  Tablespaces:" :: r.tablespaces.map fun t =>
      "    " ++ t.name ++ ": " ++ t.location ++ " (oid: " ++ toString t.oid.toNat ++ ")") ++
  match r.error with
  | some error => ["  Error                  : " ++ error]
  | none => []

/-- What the catalog knows of a backup. -/
def showBackup (f : Fleet) (s : Services σ) (server backup : String) : Run σ Unit :=
  withServer f server .warn fun c => withBackup s c backup fun r =>
    say ((recordLines r).map .result)

/-- The files of a backup. -/
def listFiles (f : Fleet) (s : Services σ) (server backup : String) (scope : FileScope) :
    Run σ Unit :=
  withServer f server .warn fun c => withBackup s c backup fun r => do
    let files ← ask (s.listFiles c r scope)
    say (files.map .result)

/-! ## Work on a backup -/

/-- A backup deleted. -/
def delete (f : Fleet) (s : Services σ) (server backup : String) : Run σ Unit :=
  withServer f server .blocking fun c => withBackup s c backup fun r => do
    info ("Deleting backup " ++ r.id ++ " for server " ++ server)
    perform (s.deleteBackup c r)
    info "Done"

/-- What can be checked before the server is looked up: the destination, the point to stop at, the form of
    the relocation rules. -/
def checkArgs (zone : Time.Zone) (a : RecoverArgs) :
    Except UserError (Recovery.Target × Recovery.Relocations) := do
  Recovery.checkDestination a.destination
  let target ← match a.target.read zone with
    | .ok target => .ok target
    | .error p => .error p.toUserError
  let rules ← Recovery.readRules a.rules
  pure (target, rules)

/-- The request for the recovery of a backup of a server. -/
def recoveryRequest (c : ServerConfig) (a : RecoverArgs) (target : Recovery.Target)
    (rules : Recovery.Relocations) : RecoveryRequest where
  destination := a.destination
  relocations := rules
  target := target
  remoteCommand := a.remoteCommand
  retryTimes := a.retryTimes.getD c.retryTimes
  retrySleep := a.retrySleep.getD c.retrySleep

/-- A backup restored. Only a complete backup is known to this command. -/
def recover (f : Fleet) (s : Services σ) (zone : Time.Zone) (a : RecoverArgs) : Run σ Unit := do
  match checkArgs zone a with
  | .error e => report e
  | .ok (target, rules) =>
    withServer f a.server .blocking fun c => do
      -- To this command, a backup that is not complete is as good as none.
      match (← findBackup s c a.backup).filter (·.status = .done) with
      | none => report (.unknownBackup a.server a.backup)
      | some r =>
        match Recovery.checkNames rules r.tablespaceNames with
        | .error e => report e
        | .ok () =>
          info ("Starting recovery of backup " ++ r.id ++ " for server " ++ c.name ++ " into " ++
            a.destination)
          perform (s.recover c r (recoveryRequest c a target rules))
          info "Recovery completed"

end BackupFleet.Run
