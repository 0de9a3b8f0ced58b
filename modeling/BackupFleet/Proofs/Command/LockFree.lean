import Mathlib.Data.List.Basic
import BackupFleet.Proofs.Command.Reach
import BackupFleet.Proofs.Storage.Backup
import BackupFleet.Proofs.Storage.LockNest
import BackupFleet.Storage.Services

/-!
# `BackupFleet.Proofs.Command.LockFree` — every lock is let go

Nothing that is run on a host keeps a lock: a nest of attempts lets go of each lock at the end of its body,
a sweep at the end of its round, also where a fault ends it, and no other service takes one. So whatever was
run before, and whatever happened to the files in between, the next attempt finds no lock held that it does
not hold itself, and no sweep is told that another one is running.

## Contents

* `Host.SameLocks` — steps that hold and let go no lock;
* `Storage.backup_sameLocks` and the other services;
* `Run.sweep_sameLocks`, `Command.heldLocks_execute` — commands;
* `Run.Tells`, `lockBusy_not_told` — what a sweep does not tell;
* `LockEvent`, `locks_free_between_events` — any sequence of nests and commands.
-/

namespace BackupFleet

open FileSystem Effect

/-! ## Services -/

/-- The same locks are held. -/
def Host.SameLocks (h h' : Host) : Prop := h'.heldLocks = h.heldLocks

theorem Host.isReach_sameLocks : IsReach Host.SameLocks where
  refl := fun _ => rfl
  trans := fun h h' => Eq.trans h' h

namespace Host.SameLocks

variable {α β : Type}

theorem pure (a : α) : Within SameLocks (Pure.pure a : Operation Host α) := .pure isReach_sameLocks a

theorem throw (f : Fault) : Within SameLocks (MonadExcept.throw f : Operation Host α) :=
  .throw isReach_sameLocks f

theorem bind {op : Operation Host α} {k : α → Operation Host β} (h : Within SameLocks op)
    (hk : ∀ a, Within SameLocks (k a)) : Within SameLocks (op >>= k) :=
  .bind isReach_sameLocks h fun a _ h' _ => hk a h'

theorem get : Within SameLocks (MonadState.get : Operation Host Host) := fun _ => rfl

theorem now : Within SameLocks Host.now := fun _ => rfl

theorem onFiles (attempt : Attempt) (path : String) (op : FileOp α) :
    Within SameLocks (Host.onFiles attempt path op) := by
  intro h
  unfold after
  rw [onFiles_apply]
  cases op h.files <;> rfl

theorem ask (q : Question FileSystem α) : Within SameLocks (Host.ask q) := by
  intro h
  unfold after
  rw [ask_apply]
  cases q h.files <;> rfl

theorem settle {op : Operation Host α} (h : Within SameLocks op) : Within SameLocks (Storage.settle op) := by
  intro host
  have hop := h host
  unfold after Storage.settle at *
  cases ho : op host <;> rw [ho] at hop <;> exact hop

end Host.SameLocks

namespace Storage

open Host.SameLocks

variable (hooks : HookRunner) (c : ServerConfig)

theorem runHookWithRetry_sameLocks (command : String) (parameters : List (String × String))
    (retries seconds : Nat) :
    Within Host.SameLocks (runHookWithRetry hooks c command parameters retries seconds) :=
  runHookWithRetry_within Host.isReach_sameLocks (runHook_within (fun _ => rfl) fun _ => rfl)
    (fun _ _ => rfl) retries

theorem saveRecord_sameLocks (r : Catalog.Record) : Within Host.SameLocks (saveRecord c r) :=
  .bind Host.isReach_sameLocks (onFiles _ _ _) fun _ _ h _ => onFiles _ _ _ h

theorem backup_sameLocks (o : BackupOptions) : Within Host.SameLocks (backup hooks c o) := by
  unfold backup
  cases c.backupCommand with
  | none => exact throw _
  | some command =>
    refine bind now fun beginTime => bind get fun h => ?_
    refine .ite (throw _) ?_
    refine bind (onFiles _ _ _) fun _ => bind (saveRecord_sameLocks c _) fun _ => ?_
    refine bind (.settle (runHookWithRetry_sameLocks hooks c command _ _ _)) fun outcome => ?_
    exact bind now fun endTime => bind (saveRecord_sameLocks c _) fun _ => pure _

theorem recover_sameLocks (r : Catalog.Record) (q : RecoveryRequest) :
    Within Host.SameLocks (recover hooks c r q) := by
  unfold recover
  cases c.recoveryCommand with
  | none => exact throw _
  | some command => exact bind (runHookWithRetry_sameLocks hooks c command _ _ _) fun _ => pure ()

theorem deleteBackup_sameLocks (r : Catalog.Record) : Within Host.SameLocks (deleteBackup c r) :=
  onFiles _ _ _

theorem rebuildWalCatalog_sameLocks : Within Host.SameLocks (rebuildWalCatalog c) := by
  unfold rebuildWalCatalog
  refine bind (onFiles _ _ _) fun _ => bind (ask _) fun names => bind get fun h => ?_
  exact bind (onFiles _ _ _) fun _ => pure _

theorem archiveAll_sameLocks (catalog : AppendHandle) (names : List String) :
    Within Host.SameLocks (archiveAll c catalog names) := by
  induction names generalizing catalog with
  | nil => exact pure ()
  | cons name r ih =>
    have hone : Within Host.SameLocks (archiveOne c catalog name) :=
      bind get fun h => bind (onFiles _ _ _) fun _ => bind (onFiles _ _ _) fun _ => pure _
    exact bind hone fun catalog' => ih catalog'

theorem cron_sameLocks : Within Host.SameLocks (cron c) := by
  unfold cron ensureDirectory
  refine bind (onFiles _ _ _) fun _ => bind (onFiles _ _ _) fun _ => bind (onFiles _ _ _) fun _ => ?_
  refine bind (ask _) fun names => bind get fun h => bind (onFiles _ _ _) fun catalog => ?_
  exact bind (archiveAll_sameLocks c catalog _) fun _ => pure _

end Storage

/-! ## Commands -/

section Commands

variable (f : Fleet) (hooks : HookRunner) (zone : Time.Zone)

theorem Run.sweep_sameLocks : Run.WorldWithin Host.SameLocks (Run.sweep f (Storage.services hooks)) :=
  Run.sweep_within Host.isReach_sameLocks fun c _ => Storage.cron_sameLocks c

/-- Letting go of the lock in front of the others leaves the others. -/
theorem Host.sameLocks_release {h h' : Host} {l : Location} (hl : h'.heldLocks = l :: h.heldLocks) :
    Host.SameLocks h (Lock.release l h') := by
  show h'.heldLocks.erase l = h.heldLocks
  rw [hl, List.erase_cons_head]

/-- A sweep lets go of the lock that it took, however its round ends. -/
theorem Run.cron_sameLocks : Run.WorldWithin Host.SameLocks (Run.cron f (Storage.services hooks)) := by
  intro session
  have hlock : (Storage.services hooks).acquireLock = Lock.acquire := rfl
  unfold after
  rw [Run.cron_apply, hlock]
  rcases Lock.acquire_cases f.lockDirectory session.world with
    ⟨l, fs, ha⟩ | ⟨fs, ha, -⟩ | ⟨path, fs, ha⟩ | ⟨e, fs, ha⟩
  · rw [ha]
    dsimp only
    have hround := Run.sweep_sameLocks f hooks ⟨session.messages, Lock.inside session.world l fs⟩
    unfold after at hround
    rw [Run.holding_apply]
    cases hs : Run.sweep f (Storage.services hooks) ⟨session.messages, Lock.inside session.world l fs⟩ with
    | ok u session' =>
      rw [hs] at hround
      exact Host.sameLocks_release hround
    | error x session' =>
      rw [hs] at hround
      exact Host.sameLocks_release hround
  · rw [ha]
    rfl
  · rw [ha]
    rfl
  · rw [ha]
    rfl

/-- **After a command, the same locks are held as before.** -/
theorem Command.heldLocks_execute (command : Command) (h : Host) :
    (command.execute f (Storage.services hooks) zone h).world.heldLocks = h.heldLocks := by
  rw [Command.world_execute]
  exact command.run_within_of_sweep Host.isReach_sameLocks zone
    (fun c _ o => Storage.backup_sameLocks hooks c o) (fun c _ r q => Storage.recover_sameLocks hooks c r q)
    (fun c _ r => Storage.deleteBackup_sameLocks c r) (fun c _ => Storage.rebuildWalCatalog_sameLocks c)
    (Run.cron_sameLocks f hooks) ⟨[], h⟩

/-! ## What a sweep tells -/

section Telling

variable {σ α β : Type} {P : Message → Prop}

/-- Where all messages so far have a property, they all still have it after a part of a command. -/
def Run.Tells (P : Message → Prop) (run : Run σ α) : Prop :=
  Within (Kept fun session => ∀ m ∈ session.messages, P m) run

namespace Run.Tells

theorem say {ms : List Message} (h : ∀ m ∈ ms, P m) : Run.Tells P (Run.say ms : Run σ Unit) :=
  fun _ hs m hm => (List.mem_append.1 hm).elim (hs m) (h m)

theorem perform (op : Operation σ α) : Run.Tells P (Run.perform op) := by
  intro session hs
  unfold after
  rw [perform_apply]
  cases op session.world <;> exact hs

theorem pure (a : α) : Run.Tells P (Pure.pure a : Run σ α) := Within.pure (isReach_kept _) a

theorem bind {run : Run σ α} {k : α → Run σ β} (h : Run.Tells P run) (hk : ∀ a, Run.Tells P (k a)) :
    Run.Tells P (run >>= k) :=
  Within.bind (isReach_kept _) h fun a _ session _ => hk a session

/-- One server after the other is told of, if errors and warnings may be told. -/
theorem forEachAdmitted (herror : ∀ t, P (.error t)) (hwarning : ∀ t, P (.warning t)) {policy : Policy}
    {act : ServerConfig → Run σ Unit} (h : ∀ c, Run.Tells P (act c))
    (entries : List (String × Option ServerConfig)) :
    Run.Tells P (forEachAdmitted policy act entries) := by
  have hverdict : ∀ c : ServerConfig, ∀ m ∈ (classify c policy).messages, P m := by
    intro c m hm
    cases hv : classify c policy with
    | proceed =>
      rw [hv] at hm
      cases hm
    | caution reasons =>
      rw [hv] at hm
      obtain ⟨t, -, rfl⟩ := List.mem_map.1 hm
      exact hwarning t
    | refusal reasons =>
      rw [hv] at hm
      obtain ⟨t, -, rfl⟩ := List.mem_map.1 hm
      exact herror t
  induction entries with
  | nil => exact pure ()
  | cons e r ih =>
    obtain ⟨name, found⟩ := e
    cases found with
    | none => exact bind (say (List.forall_mem_singleton.2 (herror _))) fun _ => ih
    | some c =>
      refine bind (say (hverdict c)) fun _ => ?_
      exact Within.ite (bind (h c) fun _ => ih) (pure ())

/-- A request is told of, if what is said of it beforehand may be told. -/
theorem withTargets {request : Request} {o : ExpandOptions} {act : Targets → Run σ Unit}
    (hsaid : ∀ m ∈ (expand f request o).1, P m) (h : ∀ targets, Run.Tells P (act targets)) :
    Run.Tells P (withTargets f request o act) := by
  unfold Run.withTargets
  generalize expand f request o = expanded at hsaid
  obtain ⟨messages, targets⟩ := expanded
  refine bind (say hsaid) fun _ => ?_
  cases targets with
  | some targets => exact h targets
  | none => exact pure ()

end Run.Tells

/-- What is said of the servers that a request leaves out are conflicts, as errors, and skipped servers. -/
theorem mem_messages_of_expand {request : Request} {o : ExpandOptions} {m : Message}
    (h : m ∈ (expand f request o).1) :
    (∃ t, m = .error t) ∨ ∃ c t, o.skipText c = some t ∧ m = .info t := by
  have hreported : ∀ m ∈ (if o.silent then [] else f.conflictMessages), ∃ t, m = .error t := by
    intro m hm
    split at hm
    · cases hm
    · obtain ⟨t, -, rfl⟩ := List.mem_map.1 hm
      exact ⟨t, rfl⟩
  unfold expand at h
  dsimp only at h
  split at h
  · exact .inl (hreported m h)
  · cases request with
    | named names => exact .inl (hreported m h)
    | all =>
      rcases List.mem_append.1 h with h | h
      · exact .inl (hreported m h)
      · obtain ⟨c, -, hc⟩ := List.mem_filterMap.1 h
        obtain ⟨t, ht, rfl⟩ := Option.map_eq_some_iff.1 hc
        exact .inr ⟨c, t, ht, rfl⟩

end Telling

/-- The message is not that another sweep is running. -/
def NotBusy (m : Message) : Prop := m ≠ .info UserError.lockBusy.message

theorem notBusy_skipText {o : ExpandOptions} {c : ServerConfig} {t : String} (h : o.skipText c = some t) :
    NotBusy (.info t) := by
  intro hbusy
  have hfirst : t.toList.head? = some 'A' := by
    rw [Message.info.inj hbusy]
    decide
  unfold ExpandOptions.skipText at h
  split at h
  · obtain rfl := Option.some.inj h
    simp at hfirst
  · split at h
    · obtain rfl := Option.some.inj h
      simp at hfirst
    · cases h

theorem notBusy_archived (name : String) (count : Nat) :
    NotBusy (.info (name ++ ": " ++ toString count ++ " WAL file(s) archived")) := by
  intro hbusy
  have hlast : (name ++ ": " ++ toString count ++ " WAL file(s) archived").toList.getLast? = some 'g' := by
    rw [Message.info.inj hbusy]
    decide
  have hd : " WAL file(s) archived".toList.getLast? = some 'd' := by decide
  rw [String.toList_append, List.getLast?_append, hd] at hlast
  cases hlast

/-- The round of a sweep does not tell that another one is running. -/
theorem Run.sweep_tells {σ : Type} (s : Services σ) : Run.Tells NotBusy (Run.sweep f s) := by
  have herror : ∀ t, NotBusy (.error t) := fun t h => by cases h
  have hwarning : ∀ t, NotBusy (.warning t) := fun t h => by cases h
  unfold Run.sweep Run.onTargets
  refine .withTargets f (fun m hm => ?_) fun targets => ?_
  · rcases mem_messages_of_expand f hm with ⟨t, rfl⟩ | ⟨c, t, ht, rfl⟩
    · exact herror t
    · exact notBusy_skipText ht
  · refine .forEachAdmitted herror hwarning (fun c => ?_) _
    refine .bind (.perform _) fun archived => ?_
    have harchived := List.forall_mem_singleton.2 (notBusy_archived c.name archived)
    exact Within.ite (Run.Tells.say harchived) (Run.Tells.pure ())

/-- **Where no lock is held, a sweep does not tell that another one is running.** -/
theorem lockBusy_not_told {h : Host} (hfree : h.heldLocks = []) :
    Message.info UserError.lockBusy.message
      ∉ (Command.cron.execute f (Storage.services hooks) zone h).messages := by
  have hlock : (Storage.services hooks).acquireLock = Lock.acquire := rfl
  rw [Command.execute_eq, Command.run, Run.cron_apply, hlock]
  rcases Lock.acquire_cases f.lockDirectory h with
    ⟨l, fs, ha⟩ | ⟨fs, ha, hheld⟩ | ⟨path, fs, ha⟩ | ⟨e, fs, ha⟩
  · have hround := Run.sweep_tells f (Storage.services hooks) ⟨[], Lock.inside h l fs⟩
      fun m hm => absurd hm List.not_mem_nil
    unfold after at hround
    rw [ha]
    dsimp only
    rw [Run.holding_apply]
    cases hs : Run.sweep f (Storage.services hooks) ⟨[], Lock.inside h l fs⟩ with
    | ok u session =>
      rw [hs] at hround
      exact fun hm => hround _ hm rfl
    | error x session =>
      rw [hs] at hround
      exact fun hm => hround _ hm rfl
  · exact absurd hfree hheld
  · rw [ha]
    exact fun hm => by cases List.mem_singleton.1 hm
  · rw [ha]
    exact fun hm => by cases hm

end Commands

/-! ## Any sequence of nests and commands -/

/-- Something that is run on a host, a nest of attempts or a command of any configuration; or anything else
    that happens to the host in between, except that locks are held or let go. -/
inductive LockEvent where
  | nest (n : Nest)
  | command (f : Fleet) (hooks : HookRunner) (zone : Time.Zone) (c : Command)
  | meanwhile (later : Host)

/-- The host after an event. -/
def LockEvent.next (h : Host) : LockEvent → Host
  | nest n => after n.run h
  | command f hooks zone c => (c.execute f (Storage.services hooks) zone h).world
  | meanwhile later => { later with heldLocks := h.heldLocks }

/-- An event lets go of every lock that it takes. -/
theorem LockEvent.free_next {h : Host} (hfree : h.heldLocks = []) (event : LockEvent) :
    (event.next h).heldLocks = [] := by
  cases event with
  | nest n =>
    have hnone : AllFiles h.heldLocks h.files := by
      rw [hfree]
      exact fun k hk => absurd hk List.not_mem_nil
    obtain ⟨fs, r, -, hrun, -⟩ := n.run_runs h hnone
    cases r with
    | ok u =>
      show (after n.run h).heldLocks = []
      rw [after_of_ok hrun]
      exact hfree
    | error x =>
      show (after n.run h).heldLocks = []
      rw [after_of_error hrun]
      exact hfree
  | command f hooks zone c => exact (c.heldLocks_execute f hooks zone h).trans hfree
  | meanwhile later => exact hfree

/-- **Every lock is free between events, and nests nest.** After any sequence of nests of attempts, commands
    and changes of the host, each of them ended with a fault or without one, no lock is held. The next nest
    does what should come of it with nothing held around it: so an attempt is refused as running only for
    the sake of an attempt around it, and a body finds the number of its process, and nothing else, in its
    lock file at its end. The next sweep is not told that another one is running. -/
theorem locks_free_between_events {h : Host} (hfree : h.heldLocks = []) (events : List LockEvent) :
    let now := events.foldl LockEvent.next h
    now.heldLocks = [] ∧
    (∀ n : Nest, ∃ fs r, n.Runs now.processId [] now.files fs r ∧
      n.run now = ended r { now with files := fs }) ∧
    ∀ (f : Fleet) (hooks : HookRunner) (zone : Time.Zone), Message.info UserError.lockBusy.message
      ∉ (Command.cron.execute f (Storage.services hooks) zone now).messages := by
  induction events generalizing h with
  | nil =>
    refine ⟨hfree, fun n => ?_, fun f hooks zone => lockBusy_not_told f hooks zone hfree⟩
    have hnone : AllFiles h.heldLocks h.files := by
      rw [hfree]
      exact fun k hk => absurd hk List.not_mem_nil
    obtain ⟨fs, r, hruns, hrun, -⟩ := n.run_runs h hnone
    rw [hfree] at hruns
    exact ⟨fs, r, hruns, hrun⟩
  | cons event r ih => exact ih (event.free_next hfree)

/-! ### A lock that is tried inside of itself -/

namespace LockInItself

/-- The lock file has a longer number in it, of a process that has ended; no lock is held. -/
def host : Host :=
  let tree := (FileTree.empty.put ["locks"] .directory).put [".cron.lock", "locks"]
    (.file [52, 49, 57, 51, 10])
  { (default : Host) with files := ⟨tree, [], []⟩, processId := 7 }

/-- A lock is taken, and tried again under another spelling of its directory. If it is refused, that of a
    directory that is not there yet is taken too, and a fault ends the body after that. -/
def nest : Nest :=
  .attempt "locks" (.attempt "./locks" .done fun
    | .ok .alreadyRunning => .attempt "other/locks" .done fun
      | .ok (.completed _) => .fail .noBackupCommand
      | _ => .done
    | _ => .done) fun
    | .error f => .fail f
    | _ => .done

end LockInItself

open LockInItself in
/-- The lock is refused inside of itself, the other one is not, and both are free after the fault that this
    ends with. Each of their files then reads `7` and a line feed; nothing is left of the longer text. -/
theorem locks_free_after_lock_in_itself :
    host.heldLocks = [] ∧ (nest.run host matches .error .noBackupCommand _) = true ∧
    host.files.readFile "locks/.cron.lock" = .ok [52, 49, 57, 51, 10] ∧
    (after nest.run host).files.readFile "locks/.cron.lock" = .ok [55, 10] ∧
    (after nest.run host).files.readFile "other/locks/.cron.lock" = .ok [55, 10] ∧
    (let now := [LockEvent.nest nest].foldl LockEvent.next host
    now.heldLocks = [] ∧
    (∀ n : Nest, ∃ fs r, n.Runs now.processId [] now.files fs r ∧
      n.run now = ended r { now with files := fs }) ∧
    ∀ (f : Fleet) (hooks : HookRunner) (zone : Time.Zone), Message.info UserError.lockBusy.message
      ∉ (Command.cron.execute f (Storage.services hooks) zone now).messages) :=
  ⟨rfl, by decide +kernel, by decide +kernel, by decide +kernel, by decide +kernel,
    locks_free_between_events rfl [.nest nest]⟩

end BackupFleet
