import BackupFleet.Proofs.Command.Mirror

/-!
# `BackupFleet.Proofs.Command.History` — which backups were taken and deleted

A catalog keeps no history: what is not in it any more might never have been there. To speak of the backup
that was taken last, the services write down beside their world which backups they have taken and deleted.
No command can tell the difference.

## Contents

* `BackupEvent`, `keptBackups` — a history, and the backups that are left;
* `Services.recorded`, `recorded_mirrors` — services that write it down;
* `runCommands`, `runCommands_recorded` — one command after the other.
-/

namespace BackupFleet

open Effect Catalog

variable {σ α : Type}

/-! ## Histories -/

/-- What has become of a backup of a server. -/
inductive BackupEvent where
  | taken (c : ServerConfig) (r : Record)
  | deleted (c : ServerConfig) (r : Record)

/-- The backups of a server after an event: one that is taken is the newest. -/
def BackupEvent.keep (c : ServerConfig) (kept : List Record) : BackupEvent → List Record
  | taken d r => if d = c then kept ++ [r] else kept
  | deleted d r => if d = c then kept.filter (· ≠ r) else kept

/-- The backups of a server that were taken and not deleted, in the order of taking. -/
def keptBackups (c : ServerConfig) (history : List BackupEvent) : List Record :=
  history.foldl (BackupEvent.keep c) []

theorem keptBackups_append (c : ServerConfig) (history : List BackupEvent) (e : BackupEvent) :
    keptBackups c (history ++ [e]) = e.keep c (keptBackups c history) := by
  unfold keptBackups
  rw [List.foldl_append]
  rfl

/-! ## Services that write it down -/

/-- An operation that writes down what its answer means; a failure means nothing. -/
def Operation.recording (meaning : α → List BackupEvent) (op : Operation σ α) :
    Operation (σ × List BackupEvent) α := fun w =>
  match op w.1 with
  | .ok a w' => .ok a (w', w.2 ++ meaning a)
  | .error e w' => .error e (w', w.2)

theorem Operation.recording_apply (meaning : α → List BackupEvent) (op : Operation σ α) (w : σ)
    (history : List BackupEvent) :
    Operation.recording meaning op (w, history) = match op w with
      | .ok a w' => .ok a (w', history ++ meaning a)
      | .error e w' => .error e (w', history) := rfl

theorem Operation.recording_mirrors (meaning : α → List BackupEvent) (op : Operation σ α) :
    Effect.Mirrors Prod.fst (Operation.recording meaning op) op := by
  intro w
  obtain ⟨w, history⟩ := w
  rw [recording_apply]
  show op w = _
  cases op w <;> rfl

/-- Services that keep a history of the backups beside their world. -/
def Services.recorded (s : Services σ) : Services (σ × List BackupEvent) where
  backup c o := Operation.recording (fun r => [.taken c r]) (s.backup c o)
  recover c r q := Operation.recording (fun _ => []) (s.recover c r q)
  deleteBackup c r := Operation.recording (fun _ => [.deleted c r]) (s.deleteBackup c r)
  rebuildWalCatalog c := Operation.recording (fun _ => []) (s.rebuildWalCatalog c)
  cron c := Operation.recording (fun _ => []) (s.cron c)
  listBackups c w := s.listBackups c w.1
  getBackup c id w := s.getBackup c id w.1
  firstId c w := s.firstId c w.1
  lastId c w := s.lastId c w.1
  status c w := s.status c w.1
  describe c w := s.describe c w.1
  check c w := s.check c w.1
  listFiles c r scope w := s.listFiles c r scope w.1
  diagnose c w := s.diagnose c w.1
  acquireLock d := Operation.recording (fun _ => []) (s.acquireLock d)
  releaseLock l w := (s.releaseLock l w.1, w.2)

/-- **The history is only written down.** -/
theorem Services.recorded_mirrors (s : Services σ) : Services.Mirrors Prod.fst s.recorded s where
  backup c o := Operation.recording_mirrors _ (s.backup c o)
  recover c r q := Operation.recording_mirrors _ (s.recover c r q)
  deleteBackup c r := Operation.recording_mirrors _ (s.deleteBackup c r)
  rebuildWalCatalog c := Operation.recording_mirrors _ (s.rebuildWalCatalog c)
  cron c := Operation.recording_mirrors _ (s.cron c)
  listBackups _ _ := rfl
  getBackup _ _ _ := rfl
  firstId _ _ := rfl
  lastId _ _ := rfl
  status _ _ := rfl
  describe _ _ := rfl
  check _ _ := rfl
  listFiles _ _ _ _ := rfl
  diagnose _ _ := rfl
  acquireLock d := Operation.recording_mirrors _ (s.acquireLock d)
  releaseLock _ _ := rfl

/-! ## One command after the other -/

/-- The world after commands, each of which starts where the one before has stopped, however it ended. -/
def runCommands (f : Fleet) (s : Services σ) (zone : Time.Zone) (commands : List Command) (world : σ) : σ :=
  commands.foldl (fun world command => (command.execute f s zone world).world) world

/-- **The world is the same as without a history.** -/
theorem runCommands_recorded (f : Fleet) (s : Services σ) (zone : Time.Zone) (commands : List Command)
    (w : σ × List BackupEvent) :
    (runCommands f s.recorded zone commands w).1 = runCommands f s zone commands w.1 := by
  unfold runCommands
  induction commands generalizing w with
  | nil => rfl
  | cons command r ih =>
    rw [List.foldl_cons, List.foldl_cons, ih, Command.execute_mirrors s.recorded_mirrors]

/-- What holds of the world and is kept by every command holds after commands. -/
theorem runCommands_induction {f : Fleet} {s : Services σ} {zone : Time.Zone} {P : σ → Prop}
    {commands : List Command} (hstep : ∀ command ∈ commands, ∀ world, P world →
      P (command.execute f s zone world).world) {world : σ} (h : P world) :
    P (runCommands f s zone commands world) := by
  unfold runCommands
  induction commands generalizing world with
  | nil => exact h
  | cons command r ih =>
    obtain ⟨hcommand, hr⟩ := List.forall_mem_cons.1 hstep
    exact ih hr (hcommand world h)

end BackupFleet
