import BackupFleet.Command.Session

/-!
# `BackupFleet.Command.Fleetwide` — commands on many servers

These commands take any number of server names. They expand the request, which may end them, and then go
through the servers in ascending order of names; what they do with a disabled or inactive server depends
on their policy. `cron` does so while it holds the maintenance lock.

## Contents

* `withTargets` — a request expanded;
* `listServer`, `backup`, `listBackup`, `status`, `rebuildXlogdb`, `showServer`, `check`, `cron`,
  `diagnose` — the commands.
-/

namespace BackupFleet.Run

variable {σ : Type}

/-- `act` on the servers of a request, unless conflicts end the command. -/
def withTargets (f : Fleet) (request : Request) (o : ExpandOptions) (act : Targets → Run σ Unit) :
    Run σ Unit := do
  let (messages, targets) := expand f request o
  say messages
  match targets with
  | some targets => act targets
  | none => pure ()

/-- `act` on each server of a request that a policy admits. -/
def onTargets (f : Fleet) (names : List String) (o : ExpandOptions) (policy : Policy)
    (act : ServerConfig → Run σ Unit) : Run σ Unit :=
  withTargets f (.ofNames names) o fun targets => forEachAdmitted policy act targets.entries

/-! ## Listings -/

/-- The description of a server, with a warning if it is disabled or inactive. -/
def serverText (c : ServerConfig) : String :=
  if c.disabled then
    c.description ++ "  (WARNING: Server temporarily disabled due to configuration errors)"
  else if c.active then c.description
  else c.description ++ "  (WARNING: Server is not active)"

/-- One server a line; the names only, if `minimal`. -/
def listServer (f : Fleet) (minimal : Bool) : Run σ Unit :=
  withTargets f .all {} fun targets =>
    say (targets.entries.filterMap fun (name, c) =>
      c.map fun c => .result (if minimal then name else name ++ " - " ++ serverText c))

/-- A backup in a listing. -/
def backupText (c : ServerConfig) (r : Catalog.Record) : String :=
  c.name ++ " " ++ r.id ++ " - " ++ String.ofList r.beginTime.spelled ++ " - " ++ r.status.name

/-- The backups of servers, the latest first; the ids only, if `minimal`. -/
def listBackup (f : Fleet) (s : Services σ) (names : List String) (minimal : Bool) : Run σ Unit :=
  onTargets f names {} .warn fun c => do
    let backups ← ask (s.listBackups c)
    say (backups.reverse.map fun r => .result (if minimal then r.id else backupText c r))

/-- Keys and values below the name of their server. -/
def sayProperties (c : ServerConfig) (properties : List (String × String)) : Run σ Unit :=
  say (.result ("Server " ++ c.name ++ ":") ::
    properties.map fun (key, value) => .result ("\t" ++ key ++ ": " ++ value))

/-- How servers are doing. -/
def status (f : Fleet) (s : Services σ) (names : List String) : Run σ Unit :=
  onTargets f names {} .warn fun c => do sayProperties c (← ask (s.status c))

/-- How servers are configured. -/
def showServer (f : Fleet) (s : Services σ) (names : List String) : Run σ Unit :=
  onTargets f names {} .warnIgnoreActive fun c => do sayProperties c (← ask (s.describe c))

/-! ## Work -/

/-- What is reported of a backup that was made. -/
def backupMessage (c : ServerConfig) (r : Catalog.Record) : Message :=
  if r.status = .done then .info ("Backup completed: " ++ r.id)
  else .error ("Backup " ++ r.id ++ " for server '" ++ c.name ++ "' ended with status " ++
    r.status.name ++ ": " ++ r.error.getD "unknown error")

/-- A new backup of each server. -/
def backup (f : Fleet) (s : Services σ) (names : List String) (o : BackupOverrides) : Run σ Unit :=
  onTargets f names { skipInactive := true, skipDisabled := true } .blocking fun c => do
    info ("Starting backup for server " ++ c.name)
    let r ← perform (s.backup c (o.apply c))
    say [backupMessage c r]

/-- The WAL catalog of each server, written anew. -/
def rebuildXlogdb (f : Fleet) (s : Services σ) (names : List String) : Run σ Unit :=
  onTargets f names {} .blocking fun c => do
    info ("Rebuilding xlogdb for server " ++ c.name)
    let count ← perform (s.rebuildWalCatalog c)
    info ("Done rebuilding xlogdb for server " ++ c.name ++ " (WAL files: " ++ toString count ++ ")")

/-- WAL files archived, for each active server. -/
def sweep (f : Fleet) (s : Services σ) : Run σ Unit :=
  onTargets f [] { skipInactive := true } .blocking fun c => do
    let archived ← perform (s.cron c)
    if 0 < archived then info (c.name ++ ": " ++ toString archived ++ " WAL file(s) archived")
    else pure ()

/-- `run`, with a lock let go after it however it ends. -/
def holding (s : Services σ) (l : Location) (run : Run σ Unit) : Run σ Unit := fun session =>
  let release (session : Session σ) : Session σ :=
    { session with world := s.releaseLock l session.world }
  match run session with
  | .ok () session => .ok () (release session)
  | .error f session => .error f (release session)

/-- The maintenance sweep, unless another one is running. -/
def cron (f : Fleet) (s : Services σ) : Run σ Unit := do
  match ← perform (s.acquireLock f.lockDirectory) with
  | .held l => holding s l (sweep f s)
  | .busy => info UserError.lockBusy.message
  | .denied path => report (.lockDenied path)

/-! ## Checks -/

/-- The name under which checks are reported. -/
def checkLabel (name : String) (c : ServerConfig) : String :=
  if c.active then name else name ++ " (not active)"

/-- The message of a check. -/
def checkMessage (label : String) (r : CheckResult) : Message :=
  .check label r.name r.ok (r.hint.getD "")

/-- The checks of each server. -/
def checkEach (s : Services σ) : List (String × Option ServerConfig) → Run σ Unit
  | [] => pure ()
  | (name, none) :: r => do
    report (.unknownServer name)
    checkEach s r
  | (name, some c) :: r => do
    let results ← ask (s.check c)
    say (results.map (checkMessage (checkLabel name c)))
    checkEach s r

/-- The checks of servers; disabled ones are not left out. -/
def check (f : Fleet) (s : Services σ) (names : List String) : Run σ Unit :=
  withTargets f (.ofNames names) { skipInactive := true } fun targets => checkEach s targets.entries

/-! ## The whole state -/

/-- The state of each server. -/
def diagnoseEach (s : Services σ) : List (String × Option ServerConfig) → Run σ (List (String × Json))
  | [] => pure []
  | (_, none) :: r => diagnoseEach s r
  | (name, some c) :: r => do
    let first ← ask (s.diagnose c)
    let rest ← diagnoseEach s r
    pure ((name, first) :: rest)

/-- The configuration and the state of all servers as one report, also with conflicts. -/
def diagnose (f : Fleet) (s : Services σ) : Run σ Unit := do
  let (messages, targets) := expand f .all { stopOnConflict := false, silent := true }
  say messages
  let targets := targets.getD .empty
  -- Without any server there is nothing that could conflict.
  let errors := if targets.entries.isEmpty then [] else f.conflicts
  let servers ← diagnoseEach s targets.entries
  let overall := Json.ofFields
    [("config", f.settings.toJson), ("errors_list", .list (errors.map .text))]
  result (Json.ofFields [("global", overall), ("servers", .object servers)]).render

end BackupFleet.Run
