import BackupFleet.Proofs.Command.Occasion
import BackupFleet.Proofs.Storage.Backup

/-!
# `BackupFleet.Proofs.Command.CatalogInvariant` — records over whole runs

A backup is stored as started before its hook runs, so records are not in order at every moment. They are
in order whenever no command is running: whatever commands were given, whatever the clocks said, however
hooks and files behaved and wherever the commands were stopped by a fault, every record in the catalog of a
server is that of a backup of this server that has ended, under the id that its beginning gave it.

## Contents

* `FleetEvent`, `runEvents` — runs;
* `command_settled`, `apply_settled` — one event keeps all records settled;
* `runEvents_settled`, `records_settled_between_commands` — whole runs.
-/

namespace BackupFleet

open FileTree FileSystem Effect Storage Catalog

/-! ## Runs -/

/-- What happens on a machine: somebody runs a command, or something else changes files. -/
inductive FleetEvent where
  | command (o : Occasion) (command : Command)
  | outside (change : FileSystem → FileTree)

namespace FleetEvent

/-- The files after an event, however it ends. -/
def apply (f : Fleet) : FleetEvent → FileSystem → FileSystem
  | command o c, fs => o.filesAfter f c fs
  | outside change, fs => fs.withTree (change fs)

/-- Hooks keep to their places, and nothing else is at work where base backups are stored. -/
def Contained (f : Fleet) : FleetEvent → Prop
  | command o _ => o.hooks.Contained f
  | outside change => ∀ c ∈ f.servers, ∀ fs k, AtOrBelow (fs.place c.basebackupsDirectory) k →
      k ≠ fs.place c.basebackupsDirectory → (change fs).get? k = fs.tree.get? k

end FleetEvent

/-- The files after a run. -/
def runEvents (f : Fleet) (events : List FleetEvent) (fs : FileSystem) : FileSystem :=
  events.foldl (fun fs e => e.apply f fs) fs

section Runs

variable {f : Fleet} {fs : FileSystem}

/-! ## One event -/

/-- **Every command keeps all records settled.** -/
theorem command_settled (hbrief : ∀ c ∈ f.servers, c.Brief) {o : Occasion} (hh : o.hooks.Contained f)
    (command : Command) (hs : CatalogSettled f fs) : CatalogSettled f (o.filesAfter f command fs) := by
  have hkeep : ∀ {α : Type} {op : Operation Host α}, Host.FilesWithin (NoNewRecord f) op →
      Host.FilesWithin (Kept (CatalogSettled f)) op :=
    fun h host hs => hs.of_noNewRecord (h host)
  refine Occasion.filesAfter_within (R := Kept (CatalogSettled f)) ?_ fs hs
  exact Command.run_within (s := Storage.services o.hooks)
    (Host.isReach_files (isReach_kept (CatalogSettled f))) o.zone
    (fun c hc options => backup_settled hh hc (hbrief c hc) options)
    (fun c hc r q => hkeep (recover_noNewRecord hh hc r q))
    (fun c _ r => hkeep (deleteBackup_noNewRecord r))
    (fun c hc => hkeep (rebuildWalCatalog_noNewRecord hc))
    (fun c hc => hkeep (cron_noNewRecord hc))
    (hkeep acquire_noNewRecord) (fun _ _ => id) command

/-- What leaves the directories of base backups alone keeps all records settled. -/
theorem outside_settled {change : FileSystem → FileTree}
    (h : (FleetEvent.outside change).Contained f) (hs : CatalogSettled f fs) :
    CatalogSettled f (fs.withTree (change fs)) := by
  refine hs.of_noNewRecord ⟨rfl, fun _ c hc id content hk => ?_⟩
  rwa [tree_withTree, h c hc fs _ (below_recordLocation c fs id) (recordLocation_ne_base c fs id)] at hk

theorem apply_settled (hbrief : ∀ c ∈ f.servers, c.Brief) {e : FleetEvent} (he : e.Contained f)
    (hs : CatalogSettled f fs) : CatalogSettled f (e.apply f fs) := by
  cases e with
  | command o command => exact command_settled hbrief he command hs
  | outside change => exact outside_settled he hs

/-! ## Whole runs -/

theorem runEvents_settled (hbrief : ∀ c ∈ f.servers, c.Brief) {events : List FleetEvent}
    (hevents : ∀ e ∈ events, e.Contained f) (hs : CatalogSettled f fs) :
    CatalogSettled f (runEvents f events fs) := by
  unfold runEvents
  induction events generalizing fs with
  | nil => exact hs
  | cons e r ih =>
    obtain ⟨he, hr⟩ := List.forall_mem_cons.1 hevents
    exact ih hr (apply_settled hbrief he hs)

/-- Where there are no base backups, there are no records that could be unsettled. -/
theorem catalogSettled_of_vacant (ha : f.StoresApart fs)
    (hvacant : ∀ c ∈ f.servers, fs.Vacant c.basebackupsDirectory) : CatalogSettled f fs where
  apart := ha
  clear := fun c hc _ hk hb => (hvacant c hc).eq_place_of_mem_trail hk hb
  settled := by
    intro c hc id content hk
    rw [(hvacant c hc).get?_below (below_recordLocation c fs id)
      (recordLocation_ne_base c fs id)] at hk
    cases hk

/-- **Whenever no command is running, every record in the catalog of a server is readable, and is that of a
    backup of this server that has ended.** Its id is the name of its directory and the second in which the
    backup began. If the backup is done, the record has no error; if it has failed, it has one, and neither
    WAL files nor tablespaces. -/
theorem records_settled_between_commands (hbrief : ∀ c ∈ f.servers, c.Brief) (ha : f.StoresApart fs)
    (hvacant : ∀ c ∈ f.servers, fs.Vacant c.basebackupsDirectory) (events : List FleetEvent)
    (hevents : ∀ e ∈ events, e.Contained f) {c : ServerConfig} (hc : c ∈ f.servers) {id : String}
    (hid : Path.IsName id) {bytes : Bytes}
    (hread : (runEvents f events fs).readFile (recordPath c id) = .ok bytes) :
    ∃ r, Record.decode bytes = .ok r ∧ Settled c id r := by
  have hs := runEvents_settled hbrief hevents (catalogSettled_of_vacant ha hvacant)
  obtain ⟨-, -, hget⟩ := entry_eq_ok_iff.1 (readFile_eq_ok_iff.1 hread)
  rw [place_recordPath hid] at hget
  exact hs.settled c hc id bytes hget

end Runs

/-! ### A backup that fails -/

namespace FailedBackup

/-- One server, stored in `srv`, with a command for backups. -/
def server : ServerConfig :=
  { ServerConfig.new "main" "srv" with active := true, backupCommand := some "pg_backup" }

def fleet : Fleet := ⟨Settings.new "bman.conf", [server], []⟩

/-- No file is there yet. -/
def files : FileSystem := ⟨.empty, [], []⟩

/-- Hooks fail, and change nothing. -/
def occasion : Occasion := ⟨fun _ _ fs => (⟨.code 1, [], []⟩, fs.tree), .utc, fun _ => .epoch, [], 1⟩

def events : List FleetEvent := [.command occasion (.backup ["main"] {})]

theorem contained_of_mem_events : ∀ e ∈ events, e.Contained fleet := by
  intro e he
  obtain rfl := List.mem_singleton.1 he
  refine ⟨fun _ _ _ => ⟨Nat.zero_le _, Nat.zero_le _, ?_⟩, fun _ _ _ _ _ _ _ _ _ => rfl,
    fun _ _ _ _ _ _ _ _ _ _ _ _ => rfl⟩
  show (ExitStatus.code 1).text.length ≤ outsideLimit
  decide

end FailedBackup

open FailedBackup in
/-- A failed backup is in the catalog, and its record is settled. -/
theorem record_settled_of_failed_backup : ∃ bytes r,
    (runEvents fleet events files).readFile (recordPath server "19700101T000000") = .ok bytes ∧
      Record.decode bytes = .ok r ∧ Settled server "19700101T000000" r := by
  have hserver : ∀ c ∈ fleet.servers, c = server := fun c hc => List.mem_singleton.1 hc
  have hbrief : ∀ c ∈ fleet.servers, c.Brief := by
    intro c hc
    obtain rfl := hserver c hc
    exact ⟨by decide, fun s hs => by obtain rfl := Option.some.inj hs; decide⟩
  have hvacant : ∀ c ∈ fleet.servers, files.Vacant c.basebackupsDirectory := by
    intro c hc
    obtain rfl := hserver c hc
    exact .inr ⟨by decide, rfl⟩
  have hfile : (runEvents fleet events files).isFile (recordPath server "19700101T000000") = true := by
    decide +kernel
  obtain ⟨bytes, hentry⟩ := isFile_iff.1 hfile
  have hread := readFile_eq_ok_iff.2 hentry
  obtain ⟨r, hdecode, hsettled⟩ := records_settled_between_commands hbrief (by decide) hvacant events
    contained_of_mem_events (List.mem_singleton.2 rfl) (by decide) hread
  exact ⟨bytes, r, hread, hdecode, hsettled⟩

end BackupFleet
