import BackupFleet.CommandLine.Program
import BackupFleet.Proofs.Command.Recovery
import BackupFleet.Proofs.Report.Verdict
import BackupFleet.Proofs.Storage.LockNest
import BackupFleet.Storage.Services

/-!
# `BackupFleet.Proofs.Command.Blocked` — conflicts stop every command but one

Servers that share a directory would destroy each other's backups, so a configuration with conflicts is not
acted upon: the conflicts are told, and that is all. Every command finds its servers through `expand` or
`resolveOne`, and both stop there. Two commands do something before they look for servers: a recovery reads
its arguments, and a sweep takes the maintenance lock.

`Execution.blocked` is what is left of a command then. It knows the services by their lock only, so nothing
else can have been asked of them, not even a question.

## Contents

* `withTargets_of_conflicts`, `execute_of_conflicts` — where commands stop;
* `RecoverArgs.ownComplaints`, `ToldBlocked` — what is told;
* `Services.LocksByFile`, `blocked_traced`, `blocked_cron`, `blocked_of_ne_cron` — what is done;
* `conflicts_block_all_but_diagnose` — all of it.
-/

namespace BackupFleet

open Effect FileSystem

variable {σ : Type} {f : Fleet}

/-! ## Where commands stop -/

/-- A request is not expanded where there are conflicts. -/
theorem Run.withTargets_of_conflicts (hc : f.conflicts ≠ []) {request : Request} {o : ExpandOptions}
    (hstop : o.stopOnConflict = true) (hsilent : o.silent = false) (act : Targets → Run σ Unit)
    (session : Session σ) :
    withTargets f request o act session
      = .ok () { session with messages := session.messages ++ f.conflictMessages } := by
  have hexpand : expand f request o = (f.conflictMessages, none) := by
    unfold expand
    rw [hsilent]
    exact if_pos ⟨hc, hstop⟩
  unfold withTargets
  rw [hexpand]
  rfl

/-- What is left of a command where there are conflicts. -/
def Execution.blocked (f : Fleet) (s : Services σ) (zone : Time.Zone) (w : σ) : Command → Execution σ
  | .recover a => match Run.checkArgs zone a with
    | .error e => ⟨[.error e.message], w, none⟩
    | .ok _ => ⟨f.conflictMessages, w, none⟩
  | .cron => match s.acquireLock f.lockDirectory w with
    | .ok (.held l) w' => ⟨f.conflictMessages, s.releaseLock l w', none⟩
    | .ok .busy w' => ⟨[.info UserError.lockBusy.message], w', none⟩
    | .ok (.denied path) w' => ⟨[.error (UserError.lockDenied path).message], w', none⟩
    | .error x w' => ⟨[], w', some x⟩
  | _ => ⟨f.conflictMessages, w, none⟩

theorem execute_recover_of_conflicts (hc : f.conflicts ≠ []) (s : Services σ) (zone : Time.Zone)
    (a : RecoverArgs) (w : σ) :
    Command.execute f s zone (.recover a) w = .blocked f s zone w (.recover a) := by
  cases hargs : Run.checkArgs zone a with
  | error e =>
    rw [execute_recover_of_badArgs hargs, Execution.blocked, hargs]
    rfl
  | ok read =>
    rw [execute_recover_of_args hargs, Run.withServer_of_conflicts hc, Execution.blocked, hargs]
    rfl

/-- A sweep that has the lock finds no servers, and lets it go. -/
theorem execute_cron_of_conflicts (hc : f.conflicts ≠ []) (s : Services σ) (zone : Time.Zone) (w : σ) :
    Command.execute f s zone .cron w = .blocked f s zone w .cron := by
  rw [Command.execute_eq, Command.run, Run.cron_apply, Execution.blocked]
  cases s.acquireLock f.lockDirectory w with
  | error x w' => rfl
  | ok acquisition w' =>
    cases acquisition with
    | busy => rfl
    | denied path => rfl
    | held l =>
      have hsweep : Run.sweep f s ⟨[], w'⟩ = .ok () ⟨f.conflictMessages, w'⟩ := by
        unfold Run.sweep Run.onTargets
        exact Run.withTargets_of_conflicts hc rfl rfl _ _
      dsimp only
      rw [Run.holding_apply, hsweep]
      rfl

/-- **Where there are conflicts, nothing is left of a command but what it does before it looks for
    servers.** -/
theorem execute_of_conflicts (hc : f.conflicts ≠ []) (s : Services σ) (zone : Time.Zone)
    {command : Command} (hd : command ≠ .diagnose) (w : σ) :
    command.execute f s zone w = .blocked f s zone w command := by
  have htargets : ∀ (request : Request) (o : ExpandOptions) (act : Targets → Run σ Unit),
      o.stopOnConflict = true → o.silent = false →
      Execution.ofResult (Run.withTargets f request o act ⟨[], w⟩) = ⟨f.conflictMessages, w, none⟩ := by
    intro request o act hstop hsilent
    rw [Run.withTargets_of_conflicts hc hstop hsilent]
    rfl
  have hserver : ∀ (name : String) (policy : Policy) (act : ServerConfig → Run σ Unit),
      Execution.ofResult (Run.withServer f name policy act ⟨[], w⟩) = ⟨f.conflictMessages, w, none⟩ := by
    intro name policy act
    rw [Run.withServer_of_conflicts hc]
    rfl
  cases command with
  | listServer minimal => exact htargets .all _ _ rfl rfl
  | cron => exact execute_cron_of_conflicts hc s zone w
  | backup names overrides => exact htargets (.ofNames names) _ _ rfl rfl
  | listBackup names minimal => exact htargets (.ofNames names) _ _ rfl rfl
  | status names => exact htargets (.ofNames names) _ _ rfl rfl
  | rebuildXlogdb names => exact htargets (.ofNames names) _ _ rfl rfl
  | recover args => exact execute_recover_of_conflicts hc s zone args w
  | showServer names => exact htargets (.ofNames names) _ _ rfl rfl
  | check names => exact htargets (.ofNames names) _ _ rfl rfl
  | diagnose => exact absurd rfl hd
  | showBackup server id => exact hserver server _ _
  | listFiles server id scope => exact hserver server _ _
  | delete server id => exact hserver server _ _

/-! ## What is told -/

/-- What a recovery is told of its arguments alone: that of the first check of them that fails. -/
def RecoverArgs.ownComplaints (f : Fleet) (s : Services σ) (zone : Time.Zone) (a : RecoverArgs) (w : σ) :
    List Message :=
  firstSaid ([.destination, .stop, .rules].map (RecoverCheck.complaints f s zone a w))

/-- What a blocked command tells: the conflicts, each once and in order, unless it is a recovery whose
    arguments are wrong in themselves, or a sweep that does not get the lock. -/
inductive ToldBlocked (f : Fleet) (s : Services σ) (zone : Time.Zone) (w : σ) :
    Command → List Message → Option Fault → Prop
  | conflicts {command : Command}
      (hargs : ∀ a, command = .recover a → a.ownComplaints f s zone w = [])
      (hlock : command = .cron → ∃ l w', s.acquireLock f.lockDirectory w = .ok (.held l) w') :
      ToldBlocked f s zone w command (f.conflicts.map .error) none
  | arguments {a : RecoverArgs} {e : UserError} (h : a.ownComplaints f s zone w = [.error e.message]) :
      ToldBlocked f s zone w (.recover a) [.error e.message] none
  | busy {w' : σ} (h : s.acquireLock f.lockDirectory w = .ok .busy w') :
      ToldBlocked f s zone w .cron [.info UserError.lockBusy.message] none
  | denied {path : String} {w' : σ} (h : s.acquireLock f.lockDirectory w = .ok (.denied path) w') :
      ToldBlocked f s zone w .cron [.error (UserError.lockDenied path).message] none
  | faulted {x : Fault} {w' : σ} (h : s.acquireLock f.lockDirectory w = .error x w') :
      ToldBlocked f s zone w .cron [] (some x)

/-- The arguments can be read iff there is no complaint about them, and otherwise there is one. -/
theorem ownComplaints_cases (f : Fleet) (s : Services σ) (zone : Time.Zone) (a : RecoverArgs) (w : σ) :
    (∃ e, Run.checkArgs zone a = .error e ∧ a.ownComplaints f s zone w = [.error e.message]) ∨
    ∃ read, Run.checkArgs zone a = .ok read ∧ a.ownComplaints f s zone w = [] := by
  unfold RecoverArgs.ownComplaints
  by_cases hd : ':' ∈ a.destination.toList
  · exact .inl ⟨_, checkArgs_of_remote hd, by simp [firstSaid, RecoverCheck.complaints, hd]⟩
  cases ht : a.target.read zone with
  | error p =>
    exact .inl ⟨_, checkArgs_of_badStop hd ht, by simp [firstSaid, RecoverCheck.complaints, hd, ht]⟩
  | ok t =>
    cases hm : Recovery.readRules a.rules with
    | error e =>
      exact .inl ⟨_, checkArgs_of_badRules hd ht hm,
        by simp [firstSaid, RecoverCheck.complaints, hd, ht, hm]⟩
    | ok m =>
      exact .inr ⟨_, checkArgs_of_ok hd ht hm, by simp [firstSaid, RecoverCheck.complaints, hd, ht, hm]⟩

theorem toldBlocked_blocked (f : Fleet) (s : Services σ) (zone : Time.Zone) (w : σ) (command : Command) :
    ToldBlocked f s zone w command (Execution.blocked f s zone w command).messages
      (Execution.blocked f s zone w command).fault := by
  have hplain : (∀ a, command ≠ .recover a) → command ≠ .cron →
      ToldBlocked f s zone w command (f.conflicts.map .error) none := fun hr hcron =>
    .conflicts (fun a ha => absurd ha (hr a)) fun hc => absurd hc hcron
  cases command with
  | recover a =>
    rw [Execution.blocked]
    rcases ownComplaints_cases f s zone a w with ⟨e, hargs, hown⟩ | ⟨read, hargs, hown⟩
    · rw [hargs]
      exact .arguments hown
    · rw [hargs]
      refine .conflicts (fun b hb => ?_) fun h => by cases h
      obtain rfl := Command.recover.inj hb
      exact hown
  | cron =>
    rw [Execution.blocked]
    cases hacquire : s.acquireLock f.lockDirectory w with
    | error x w' => exact .faulted hacquire
    | ok acquisition w' =>
      cases acquisition with
      | busy => exact .busy hacquire
      | denied path => exact .denied hacquire
      | held l => exact .conflicts (fun a ha => by cases ha) fun _ => ⟨l, w', hacquire⟩
  | _ => exact hplain (fun a ha => by cases ha) (fun hc => by cases hc)

/-! ## What is done -/

/-- Services whose maintenance lock is a lock file of the host, whatever their servers do. -/
structure Services.LocksByFile (s : Services Host) : Prop where
  acquire : s.acquireLock = Lock.acquire
  release : s.releaseLock = Lock.release

theorem Storage.locksByFile_services (hooks : HookRunner) : (services hooks).LocksByFile := ⟨rfl, rfl⟩

/-- Beside its world, a blocked command notes what it asks of the lock, and nothing else. -/
theorem blocked_traced (f : Fleet) (s : Services σ) (zone : Time.Zone) (w : σ) (command : Command) :
    ∃ calls, Execution.blocked f s.traced zone (w, []) command
        = ⟨(Execution.blocked f s zone w command).messages,
          ((Execution.blocked f s zone w command).world, calls),
          (Execution.blocked f s zone w command).fault⟩ ∧
      ∀ call ∈ calls, command = .cron ∧
        (call = .acquireLock f.lockDirectory ∨ ∃ l, call = .releaseLock l) := by
  have hnone : ∀ call ∈ ([] : List ServiceCall), command = .cron ∧
      (call = .acquireLock f.lockDirectory ∨ ∃ l, call = .releaseLock l) := fun _ h => by cases h
  cases command with
  | recover a =>
    rw [Execution.blocked, Execution.blocked]
    cases Run.checkArgs zone a <;> exact ⟨[], rfl, hnone⟩
  | cron =>
    rw [Execution.blocked, Execution.blocked, Services.traced_acquireLock, Operation.noting_apply]
    have hlocked : ∀ call ∈ [ServiceCall.acquireLock f.lockDirectory], Command.cron = .cron ∧
        (call = .acquireLock f.lockDirectory ∨ ∃ l, call = .releaseLock l) := fun call h =>
      ⟨rfl, .inl (List.mem_singleton.1 h)⟩
    cases s.acquireLock f.lockDirectory w with
    | error x w' => exact ⟨_, rfl, hlocked⟩
    | ok acquisition w' =>
      cases acquisition with
      | busy => exact ⟨_, rfl, hlocked⟩
      | denied path => exact ⟨_, rfl, hlocked⟩
      | held l =>
        refine ⟨[.acquireLock f.lockDirectory, .releaseLock l], rfl, fun call h => ⟨rfl, ?_⟩⟩
        rcases List.mem_cons.1 h with h | h
        · exact .inl h
        · exact .inr ⟨l, List.mem_singleton.1 h⟩
  | _ => exact ⟨[], rfl, hnone⟩

/-- Taking the lock runs no hook. -/
theorem Lock.hookRuns_acquire (directory : String) (host : Host) :
    (after (acquire directory) host).hookRuns = host.hookRuns := by
  rcases acquire_cases directory host with
    ⟨l, fs, ha⟩ | ⟨fs, ha, -⟩ | ⟨path, fs, ha⟩ | ⟨e, fs, ha⟩
  · rw [after_of_ok ha]
    rfl
  · rw [after_of_ok ha]
  · rw [after_of_ok ha]
  · rw [after_of_error ha]

/-- The world of a blocked sweep is that of its attempt to take the lock, which is let go. -/
theorem blocked_cron {s : Services Host} (hs : s.LocksByFile) (f : Fleet) (zone : Time.Zone)
    (host : Host) :
    (Execution.blocked f s zone host .cron).world.files
        = (after (Lock.acquire f.lockDirectory) host).files ∧
      (Execution.blocked f s zone host .cron).world.hookRuns
        = (after (Lock.acquire f.lockDirectory) host).hookRuns := by
  rw [Execution.blocked, hs.acquire, hs.release]
  unfold after
  cases Lock.acquire f.lockDirectory host with
  | error x host' => exact ⟨rfl, rfl⟩
  | ok acquisition host' => cases acquisition <;> exact ⟨rfl, rfl⟩

theorem blocked_of_ne_cron (f : Fleet) (s : Services σ) (zone : Time.Zone) (w : σ) {command : Command}
    (h : command ≠ .cron) : (Execution.blocked f s zone w command).world = w := by
  cases command with
  | cron => exact absurd rfl h
  | recover a =>
    rw [Execution.blocked]
    cases Run.checkArgs zone a <;> rfl
  | _ => rfl

/-- What a blocked command does depends on the lock only. -/
theorem blocked_congr {s s' : Services Host} (hs : s.LocksByFile) (hs' : s'.LocksByFile) (f : Fleet)
    (zone : Time.Zone) (host : Host) (command : Command) :
    Execution.blocked f s' zone host command = Execution.blocked f s zone host command := by
  cases command with
  | cron => rw [Execution.blocked, Execution.blocked, hs.acquire, hs.release, hs'.acquire, hs'.release]
  | recover a => rw [Execution.blocked, Execution.blocked]
  | _ => rfl

/-- **Conflicts stop every command but `diagnose`.** Whatever servers would do and answer, nothing is asked
    of them, and no hook is run. A command that is not a sweep leaves the host as it is; a sweep may make
    directories on the way to its lock file, and then changes that file only. What is told are the
    conflicts, which makes the run a failure in every format, unless a recovery is refused for its own
    arguments or a sweep does not get the lock. -/
theorem conflicts_block_all_but_diagnose (hc : f.conflicts ≠ []) {s : Services Host} (hs : s.LocksByFile)
    (zone : Time.Zone) {command : Command} (hd : command ≠ .diagnose) (host : Host) :
    let e := command.execute f s.traced zone (host, [])
    (∀ s' : Services Host, s'.LocksByFile →
      command.execute f s' zone host = ⟨e.messages, e.world.1, e.fault⟩) ∧
    (∀ call ∈ e.world.2, command = .cron ∧
      (call = .acquireLock f.lockDirectory ∨ ∃ l, call = .releaseLock l)) ∧
    e.world.1.hookRuns = host.hookRuns ∧
    (command ≠ .cron → e.world.1 = host) ∧
    (∃ fs, Grown (· ∈ host.files.trail (Lock.lockPath f.lockDirectory)) host.files fs ∧
      ChangesOnly (· = host.files.place (Lock.lockPath f.lockDirectory)) fs e.world.1.files) ∧
    ToldBlocked f s zone host command e.messages e.fault ∧
    (e.messages = f.conflicts.map .error →
      ∀ format quiet, ((Writer.new format quiet).run e.report).1 ≠ 0) := by
  intro e
  obtain ⟨calls, htraced, hcalls⟩ := blocked_traced f s zone host command
  have he : e = _ := (execute_of_conflicts hc s.traced zone hd (host, [])).trans htraced
  refine ⟨fun s' hs' => ?_, ?_, ?_, fun hcron => ?_, ?_, ?_, fun hm format quiet => ?_⟩
  · rw [execute_of_conflicts hc s' zone hd, blocked_congr hs hs', he]
  · rw [he]
    exact hcalls
  · rw [he]
    by_cases hcron : command = .cron
    · subst hcron
      exact (blocked_cron hs f zone host).2.trans (Lock.hookRuns_acquire _ host)
    · rw [blocked_of_ne_cron f s zone host hcron]
  · rw [he]
    exact blocked_of_ne_cron f s zone host hcron
  · rw [he]
    by_cases hcron : command = .cron
    · subst hcron
      dsimp only
      rw [(blocked_cron hs f zone host).1]
      exact Lock.acquire_steps f.lockDirectory host
    · dsimp only
      rw [blocked_of_ne_cron f s zone host hcron]
      exact ⟨host.files, (isReach_grown _).refl _, (isReach_changesOnly _).refl _⟩
  · rw [he]
    exact toldBlocked_blocked f s zone host command
  · obtain ⟨conflict, rest, hcons⟩ := List.exists_cons_of_ne_nil hc
    have hfailed : failed e.report = true := by
      rw [Execution.report, hm, hcons]
      rfl
    rw [Ne, Writer.exit_eq_zero_iff, hfailed]
    decide

/-! ### A server in the archive of another one -/

namespace SharedArchive

/-- The second server archives its WAL files where the first one does. -/
def servers : List ServerConfig :=
  [ServerConfig.new "ada" "srv", { ServerConfig.new "ben" "srv" with walsDirectory := "srv/ada/wals" }]

def fleet : Fleet := ⟨Settings.new "bman.conf", servers, (findConflicts servers).map (·.message)⟩

/-- No file is there yet. -/
def host : Host := ⟨⟨.empty, [], []⟩, fun _ => .epoch, 0, [], 7, 0, []⟩

end SharedArchive

open SharedArchive in
/-- A sweep takes the lock, tells the conflict, and runs no hook. -/
theorem sweep_of_shared_archive :
    fleet.conflicts ≠ [] ∧ (Storage.services .idle).LocksByFile ∧ Command.cron ≠ .diagnose ∧
      (Command.cron.execute fleet (Storage.services .idle).traced .utc (host, [])).messages
        = [.error ("Conflicting path: wals_directory=srv/ada/wals for server 'ben': " ++
          "wals_directory=srv/ada/wals for server 'ada'")] ∧
      (Command.cron.execute fleet (Storage.services .idle).traced .utc (host, [])).world.1.hookRuns = 0 := by
  have hc : fleet.conflicts ≠ [] := by decide +kernel
  have hd : Command.cron ≠ .diagnose := by decide
  obtain ⟨-, -, hhooks, -⟩ := conflicts_block_all_but_diagnose hc
    (Storage.locksByFile_services .idle) .utc hd host
  exact ⟨hc, Storage.locksByFile_services .idle, hd, by decide +kernel, hhooks⟩

end BackupFleet
