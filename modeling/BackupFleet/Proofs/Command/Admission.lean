import BackupFleet.Proofs.Command.Rounds
import BackupFleet.Proofs.Config.Sources
import BackupFleet.Proofs.Storage.Backup

/-!
# `BackupFleet.Proofs.Command.Admission` — what a command can count on

Five commands stop at a server that is disabled or inactive, so the servers that they act on are enabled.
What has been checked when the configuration was loaded holds of these: they have a backup command, so a
backup never ends because there is none, and their name is not the reserved one.

That a command does not act on a server is said by its indifference: whatever the services would do for that
server, the command does the same.

## Contents

* `Command.stopsAtUnready`, `Services.AgreeOn` — commands that stop, and services that agree;
* `Run.onTargets_congr`, `Run.withServer_congr`, `Command.run_congr` — the servers that a command acts on;
* `Command.fault_of_raises`, `Run.raises_backup`, `Storage.raises_backup` — the faults of a command;
* `admitted_servers_are_well_configured` — the main statement.
-/

namespace BackupFleet

open Effect
open Toml (Value)

variable {σ : Type}

/-! ## Commands that stop -/

/-- The command stops at a server that is disabled or inactive. -/
def Command.stopsAtUnready : Command → Bool
  | .cron | .backup .. | .rebuildXlogdb .. | .recover .. | .delete .. => true
  | _ => false

/-- Two services do the same for the servers with a property, and with the lock. -/
structure Services.AgreeOn (p : ServerConfig → Prop) (s s' : Services σ) : Prop where
  backup : ∀ c, p c → s.backup c = s'.backup c
  recover : ∀ c, p c → s.recover c = s'.recover c
  deleteBackup : ∀ c, p c → s.deleteBackup c = s'.deleteBackup c
  rebuildWalCatalog : ∀ c, p c → s.rebuildWalCatalog c = s'.rebuildWalCatalog c
  cron : ∀ c, p c → s.cron c = s'.cron c
  listBackups : ∀ c, p c → s.listBackups c = s'.listBackups c
  getBackup : ∀ c, p c → s.getBackup c = s'.getBackup c
  firstId : ∀ c, p c → s.firstId c = s'.firstId c
  lastId : ∀ c, p c → s.lastId c = s'.lastId c
  status : ∀ c, p c → s.status c = s'.status c
  describe : ∀ c, p c → s.describe c = s'.describe c
  check : ∀ c, p c → s.check c = s'.check c
  listFiles : ∀ c, p c → s.listFiles c = s'.listFiles c
  diagnose : ∀ c, p c → s.diagnose c = s'.diagnose c
  acquireLock : s.acquireLock = s'.acquireLock
  releaseLock : s.releaseLock = s'.releaseLock

theorem Services.AgreeOn.lookup {p : ServerConfig → Prop} {s s' : Services σ} (h : s.AgreeOn p s')
    {c : ServerConfig} (hc : p c) : s.lookup c = s'.lookup c := by
  funext world
  unfold Services.lookup
  rw [h.firstId c hc, h.lastId c hc, h.getBackup c hc]

/-! ## The servers that a command acts on -/

namespace Run

variable {policy : Policy} {act act' : ServerConfig → Run σ Unit}

/-- What is done for a server that is not admitted does not matter. -/
theorem forEachAdmitted_congr {entries : List (String × Option ServerConfig)}
    (h : ∀ name c, (name, some c) ∈ entries → (classify c policy).admits = true → act c = act' c) :
    forEachAdmitted policy act entries = forEachAdmitted policy act' entries := by
  induction entries with
  | nil => rfl
  | cons e r ih =>
    have hr := ih fun name c hc => h name c (List.mem_cons_of_mem _ hc)
    obtain ⟨name, found⟩ := e
    cases found with
    | none => rw [forEachAdmitted, forEachAdmitted, hr]
    | some c =>
      rw [forEachAdmitted, forEachAdmitted, hr]
      by_cases hadmits : (classify c policy).admits = true
      · rw [h name c List.mem_cons_self hadmits]
      · simp only [if_neg hadmits]

theorem onTargets_congr {f : Fleet}
    (h : ∀ c ∈ f.servers, (classify c policy).admits = true → act c = act' c) (names : List String)
    (o : ExpandOptions) : onTargets f names o policy act = onTargets f names o policy act' := by
  unfold onTargets withTargets
  generalize hexpand : expand f (.ofNames names) o = expanded
  obtain ⟨messages, targets⟩ := expanded
  cases targets with
  | none => rfl
  | some targets =>
    have hservers : ∀ name c, (name, some c) ∈ targets.entries → c ∈ f.servers := by
      intro name c hc
      exact mem_servers_of_expand (by rw [hexpand]) hc
    dsimp only
    rw [forEachAdmitted_congr fun name c hc => h c (hservers name c hc)]

theorem withServer_congr {f : Fleet}
    (h : ∀ c ∈ f.servers, (classify c policy).admits = true → act c = act' c) (name : String) :
    withServer f name policy act = withServer f name policy act' := by
  unfold withServer
  generalize hresolve : resolveOne f name policy = resolved
  obtain ⟨messages, outcome⟩ := resolved
  cases outcome with
  | ready c =>
    dsimp only
    rw [h c (mem_servers_of_resolveOne hresolve) (ready_of_resolveOne hresolve).2]
  | unknown => rfl
  | aborted => rfl

end Run

/-- **A command that stops at a server that is not ready does the same whatever the services do for such a
    server.** -/
theorem Command.run_congr {f : Fleet} {s s' : Services σ} {p : ServerConfig → Prop} (h : s.AgreeOn p s')
    (hready : ∀ c ∈ f.servers, c.ready = true → p c) (zone : Time.Zone) {command : Command}
    (hstops : command.stopsAtUnready = true) : command.run f s zone = command.run f s' zone := by
  have hp : ∀ c ∈ f.servers, (classify c .blocking).admits = true → p c := by
    intro c hc hadmits
    rw [admits_blocking] at hadmits
    exact hready c hc hadmits
  cases command with
  | cron =>
    have hsweep : Run.sweep f s = Run.sweep f s' := by
      apply Run.onTargets_congr
      intro c hc hadmits
      rw [h.cron c (hp c hc hadmits)]
    show Run.cron f s = Run.cron f s'
    unfold Run.cron Run.holding
    rw [h.acquireLock, h.releaseLock, hsweep]
  | backup names overrides =>
    apply Run.onTargets_congr
    intro c hc hadmits
    rw [h.backup c (hp c hc hadmits)]
  | rebuildXlogdb names =>
    apply Run.onTargets_congr
    intro c hc hadmits
    rw [h.rebuildWalCatalog c (hp c hc hadmits)]
  | recover args =>
    show Run.recover f s zone args = Run.recover f s' zone args
    unfold Run.recover
    cases Run.checkArgs zone args with
    | error e => rfl
    | ok checked =>
      apply Run.withServer_congr
      intro c hc hadmits
      unfold Run.findBackup
      rw [h.lookup (hp c hc hadmits), h.recover c (hp c hc hadmits)]
  | delete server id =>
    apply Run.withServer_congr
    intro c hc hadmits
    unfold Run.withBackup Run.findBackup
    rw [h.lookup (hp c hc hadmits), h.deleteBackup c (hp c hc hadmits)]
  | listServer | listBackup | status | showServer | check | diagnose | showBackup | listFiles =>
    exact absurd hstops Bool.false_ne_true

/-! ## The faults of a command -/

/-- A command ends with a fault of its run. -/
theorem Command.fault_of_raises {P : Fault → Prop} {f : Fleet} {s : Services σ} {zone : Time.Zone}
    {command : Command} (h : Raises P (command.run f s zone)) {world : σ} {x : Fault}
    (hx : (command.execute f s zone world).fault = some x) : P x := by
  rw [Command.execute_eq] at hx
  cases hrun : command.run f s zone ⟨[], world⟩ with
  | ok u session =>
    rw [hrun] at hx
    cases hx
  | error e session =>
    rw [hrun] at hx
    cases hx
    exact h _ _ _ hrun

namespace Run

variable {P : Fault → Prop} {α : Type}

theorem raises_say (ms : List Message) : Raises P (say ms : Run σ Unit) := by
  intro session x session' h
  cases h

/-- A step has the faults of its operation. -/
theorem raises_perform {op : Operation σ α} (h : Raises P op) : Raises P (perform op) := by
  intro session x session' hx
  rw [perform_apply] at hx
  cases hop : op session.world with
  | ok a w =>
    rw [hop] at hx
    cases hx
  | error y w =>
    rw [hop] at hx
    cases hx
    exact h _ _ _ hop

variable {policy : Policy} {act : ServerConfig → Run σ Unit}

/-- **A round has the faults of the servers that are admitted.** -/
theorem raises_forEachAdmitted {entries : List (String × Option ServerConfig)}
    (h : ∀ name c, (name, some c) ∈ entries → (classify c policy).admits = true → Raises P (act c)) :
    Raises P (forEachAdmitted policy act entries) := by
  induction entries with
  | nil => exact .pure ()
  | cons e r ih =>
    have hr := ih fun name c hc => h name c (List.mem_cons_of_mem _ hc)
    obtain ⟨name, found⟩ := e
    cases found with
    | none =>
      rw [forEachAdmitted]
      exact .bind (raises_say _) fun _ => hr
    | some c =>
      rw [forEachAdmitted]
      refine Raises.bind (raises_say _) fun _ => ?_
      by_cases hadmits : (classify c policy).admits = true
      · rw [if_pos hadmits]
        exact .bind (h name c List.mem_cons_self hadmits) fun _ => hr
      · rw [if_neg hadmits]
        exact .pure ()

theorem raises_onTargets {f : Fleet} {names : List String} {o : ExpandOptions}
    (h : ∀ c ∈ f.servers, (classify c policy).admits = true → Raises P (act c)) :
    Raises P (onTargets f names o policy act) := by
  unfold onTargets withTargets
  generalize hexpand : expand f (.ofNames names) o = expanded
  obtain ⟨messages, targets⟩ := expanded
  refine Raises.bind (raises_say messages) fun _ => ?_
  cases targets with
  | none => exact .pure ()
  | some targets =>
    refine raises_forEachAdmitted fun name c hc => ?_
    exact h c (mem_servers_of_expand (by rw [hexpand]) hc)

/-- **A backup of servers has the faults of backups of servers that are ready.** -/
theorem raises_backup {f : Fleet} {s : Services σ} {names : List String} {overrides : BackupOverrides}
    (h : ∀ c ∈ f.servers, c.ready = true → ∀ o, Raises P (s.backup c o)) :
    Raises P (backup f s names overrides) := by
  refine raises_onTargets fun c hc hadmits => ?_
  rw [admits_blocking] at hadmits
  refine .bind (raises_say _) fun _ => .bind ?_ fun r => raises_say _
  exact raises_perform (h c hc hadmits _)

end Run

namespace Storage

variable {P : Fault → Prop}

theorem raises_onFiles {α : Type} (hP : ∀ attempt path e, P (.file attempt path e)) (attempt : Attempt)
    (path : String) (op : FileOp α) : Raises P (Host.onFiles attempt path op) := by
  intro h x h' hx
  rw [Host.onFiles_apply] at hx
  cases hop : op h.files with
  | ok a fs =>
    rw [hop] at hx
    cases hx
  | error e fs =>
    rw [hop] at hx
    cases hx
    exact hP attempt path e

/-- What is settled is no fault any more. -/
theorem raises_settle {α : Type} (op : Operation Host α) : Raises P (settle op) := by
  intro h x h' hx
  rw [settle_apply] at hx
  cases hx

theorem raises_now : Raises P Host.now := by
  intro h x h' hx
  cases hx

theorem raises_saveRecord (hP : ∀ attempt path e, P (.file attempt path e)) (c : ServerConfig)
    (r : Catalog.Record) : Raises P (saveRecord c r) :=
  .bind (raises_onFiles hP _ _ _) fun _ => raises_onFiles hP _ _ _

theorem raises_makeBackup (hP : ∀ attempt path e, P (.file attempt path e)) (hooks : HookRunner)
    (c : ServerConfig) (o : BackupOptions) (command : String) (started : Catalog.Record) :
    Raises P (makeBackup hooks c o command started) := by
  have hend : Raises P (endBackup hooks c o command started) := by
    refine .bind (raises_settle _) fun answer => .bind raises_now fun endTime => ?_
    exact .bind (raises_saveRecord hP c _) fun _ => .pure _
  refine .bind (raises_onFiles hP _ _ _) fun _ => ?_
  exact .bind (raises_saveRecord hP c started) fun _ => hend

/-- **With a backup command, only files and a backup of the same second keep a backup from being made.** -/
theorem raises_backup (hP : ∀ attempt path e, P (.file attempt path e))
    (hexists : ∀ id, P (.backupExists id)) {c : ServerConfig} (hcommand : c.backupCommand ≠ none)
    (hooks : HookRunner) (o : BackupOptions) : Raises P (backup hooks c o) := by
  intro h x h' hx
  rw [backup_apply] at hx
  cases hgiven : c.backupCommand with
  | none => exact absurd hgiven hcommand
  | some command =>
    rw [hgiven] at hx
    dsimp only at hx
    split at hx
    · cases hx
      exact hexists _
    · exact raises_makeBackup hP hooks c o command _ _ _ _ hx

end Storage

/-! ## What was checked when the configuration was loaded -/

theorem ServerConfig.disabled_of_ready {c : ServerConfig} (h : c.ready = true) : c.disabled = false := by
  unfold ServerConfig.ready at h
  simpa using (Bool.and_eq_true_iff.1 h).1

/-- **A server is disabled iff something is wrong with its name or its section, and its problems tell what,
    in order. So a server that a command admits has a backup command, and another name than the reserved
    one.** A backup never ends because there is no backup command, and a command that stops at a disabled
    server does the same whatever the services would do for a server with the reserved name. -/
theorem admitted_servers_are_well_configured {fs : FileSystem} {path : String} {f : Fleet}
    (h : Fleet.load fs path = .ok f) :
    (∃ s : Sources, s.Found fs path ∧ ∀ c ∈ f.servers, ∃ v, s.definitions.lookup c.name = some v ∧
      (c.disabled = true ↔ ∃ p : ConfigProblem, p.Holds c.name v) ∧
      ∃ ps : List ConfigProblem, c.problems = ps.map (ConfigProblem.message c.name) ∧
        (∀ p, p ∈ ps ↔ p.Holds c.name v) ∧ ps.Pairwise fun p q => p.rank < q.rank) ∧
    (∀ hooks zone names overrides host,
      (Command.execute f (Storage.services hooks) zone (.backup names overrides) host).fault
        ≠ some .noBackupCommand) ∧
    ∀ (σ : Type) (s s' : Services σ) zone command world, command.stopsAtUnready = true →
      s.AgreeOn (fun c => c.name ≠ reservedName) s' →
      Command.execute f s zone command world = Command.execute f s' zone command world := by
  obtain ⟨s, hfound, rfl⟩ := load_eq_ok_iff.1 h
  have hready : ∀ c ∈ (s.fleet path).servers, c.ready = true →
      c.backupCommand ≠ none ∧ c.name ≠ reservedName := by
    intro c hc hready
    exact Sources.enabled_of_mem hc (ServerConfig.disabled_of_ready hready)
  refine ⟨⟨s, hfound, fun c hc => Sources.problems_of_mem hc⟩, ?_, ?_⟩
  · intro hooks zone names overrides host hfault
    have hraises : Raises (· ≠ .noBackupCommand)
        (Run.backup (s.fleet path) (Storage.services hooks) names overrides) := by
      refine Run.raises_backup fun c hc hc' o => ?_
      exact Storage.raises_backup (by simp) (by simp) (hready c hc hc').1 hooks o
    exact Command.fault_of_raises hraises hfault rfl
  · intro σ s' s'' zone command world hstops hagree
    have hother : ∀ c ∈ (s.fleet path).servers, c.ready = true → c.name ≠ reservedName :=
      fun c hc hc' => (hready c hc hc').2
    rw [Command.execute_eq, Command.execute_eq, Command.run_congr hagree hother zone hstops]

/-! ### Three servers -/

namespace ThreeServers

/-- A server with the reserved name, a server that is fine, and one with two mistakes. -/
def text : String :=
  "[global]\nhome = \"srv\"\n[servers.all]\nbackup_command = \"true\"\n" ++
    "[servers.m]\nbackup_command = \"true\"\n" ++
    "[servers.x]\nreuse_backup = \"often\"\nbackup_command = \" \"\n"

def files : FileSystem :=
  ⟨FileTree.empty.put ["bman.toml"] (.file (Text.encode text.toList)), [], []⟩

def fleet : Fleet :=
  let command (s : String) : String × Value := ("backup_command", .text s)
  .ofServers { Settings.new "bman.toml" with home := "srv", lockDirectory := "srv" }
    [ServerConfig.ofValue "all" "srv" (.table [command "true"]),
      ServerConfig.ofValue "m" "srv" (.table [command "true"]),
      ServerConfig.ofValue "x" "srv" (.table [command " ", ("reuse_backup", .text "often")])]

end ThreeServers

open ThreeServers in
/-- A server with two mistakes has two problems, and is disabled as the one with the reserved name is. -/
theorem problems_of_three_servers :
    (fleet.servers.map fun c => (c.name, c.problems)) =
      [("all", ["'all' is a reserved word and cannot be used as server name"]), ("m", []),
        ("x", ["reuse_backup: invalid reuse_backup value 'often' (expected off, copy or link)",
          "backup_command: option is required"])] ∧
    (∃ s : Sources, s.Found files "bman.toml" ∧ ∀ c ∈ fleet.servers, ∃ v,
      s.definitions.lookup c.name = some v ∧
        (c.disabled = true ↔ ∃ p : ConfigProblem, p.Holds c.name v)) ∧
    ∀ hooks host, (Command.execute fleet (Storage.services hooks) .utc (.backup ["x", "m"] {}) host).fault
      ≠ some .noBackupCommand := by
  have hload : Fleet.load files "bman.toml" = .ok fleet := Fleet.load_of_toOption (by decide +kernel)
  obtain ⟨⟨s, hfound, hservers⟩, hbackup, -⟩ := admitted_servers_are_well_configured hload
  refine ⟨by decide +kernel, ⟨s, hfound, ?_⟩, ?_⟩
  · intro c hc
    obtain ⟨v, hlookup, hdisabled, -⟩ := hservers c hc
    exact ⟨v, hlookup, hdisabled⟩
  · intro hooks host
    exact hbackup hooks .utc ["x", "m"] {} host

end BackupFleet
