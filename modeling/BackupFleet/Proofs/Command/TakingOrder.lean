import BackupFleet.Proofs.Command.Deletion
import BackupFleet.Proofs.Command.History
import BackupFleet.Proofs.Command.Reach
import BackupFleet.Proofs.Storage.Holding
import BackupFleet.Proofs.Time.Order

/-!
# `BackupFleet.Proofs.Command.TakingOrder` — backups in the order in which they were taken

No catalog stores in which order its backups were taken. It is read from their ids, and these are written
from the clock. While the clock does not go back, and with hooks that keep to the copies they make, this is
the order of taking all the same: a later backup has a later id, since one with the id of an earlier backup
is not made at all. So after any commands that make and delete backups, the latest one is the one that was
taken last among those that were not deleted, wherever commands were stopped by faults.

## Contents

* `GoesForward` — clocks;
* `BegunBefore`, `Orderly` — catalogs that hold what was taken and not deleted;
* `backup_orderly`, `delete_orderly`, `runCommands_orderly` — one backup, one deletion, and a run;
* `StartsEmpty`, `ToldInOrder`, `aliases_follow_order_of_taking` — what is told of a server after a run.
-/

namespace BackupFleet

open FileTree FileSystem Effect Storage Catalog

/-! ## Clocks -/

/-- A clock that does not go back, in years that are written with four digits. -/
structure GoesForward (clock : Nat → Time.Moment) : Prop where
  le : ∀ {i j}, i ≤ j → clock i ≤ clock j
  plain : ∀ i, (clock i).HasPlainYear

/-! ## Catalogs in order -/

/-- The id of a backup is a reading of the clock that was made before. -/
def BegunBefore (host : Host) (r : Record) : Prop :=
  ∃ i, i < host.readings ∧ r.id = String.ofList (host.clock i).compact

theorem BegunBefore.later {host host' : Host} {r : Record} (h : BegunBefore host r)
    (hlater : host.Later host') : BegunBefore host' r := by
  obtain ⟨i, hi, hid⟩ := h
  refine ⟨i, Nat.lt_of_lt_of_le hi hlater.readings, ?_⟩
  rw [hlater.clock, hid]

/-- The catalog of every server holds the backups that were taken and not deleted, under the ids that the
    clock gave them, and no WAL file was ever archived. -/
structure Orderly (f : Fleet) (w : Host × List BackupEvent) : Prop where
  apart : f.StoresApart w.1.files
  clear : DirectoriesClear f w.1.files
  clock : GoesForward w.1.clock
  holds : ∀ c ∈ f.servers, Holds c (keptBackups c w.2) w.1.files
  begun : ∀ c ∈ f.servers, ∀ r ∈ keptBackups c w.2, BegunBefore w.1 r
  walless : ∀ c ∈ f.servers,
    w.1.files.tree.get? (walCatalogName :: w.1.files.place c.walsDirectory) = none

section Steps

variable {f : Fleet} {hooks : HookRunner} {c : ServerConfig} {host host' : Host}
  {history history' : List BackupEvent}

/-- **What happens to one backup keeps all catalogs in order**, if it keeps that of the backup in order. -/
theorem Orderly.of_changesBackup (hw : Orderly f (host, history)) (hc : c ∈ f.servers) {id : String}
    (hid : Path.IsName id) (hlater : host.Later host') (hchange : ChangesBackup c id host.files host'.files)
    (hothers : ∀ d, d ≠ c → keptBackups d history' = keptBackups d history)
    (hown : Holds c (keptBackups c history') host'.files)
    (hbegun : ∀ r ∈ keptBackups c history', BegunBefore host' r) :
    Orderly f (host', history') where
  apart := hw.apart.congr hchange.workDir
  clear := hw.clear.congr hchange.workDir
  clock := by
    rw [hlater.clock]
    exact hw.clock
  holds := by
    intro d hd
    by_cases hdc : d = c
    · rw [hdc]
      exact hown
    · dsimp only
      rw [hothers d hdc]
      exact (hw.holds d hd).of_other hw.apart hw.clear hc hd (fun he => hdc he.symm) hid hchange
  begun := by
    intro d hd r hr
    dsimp only at hr ⊢
    by_cases hdc : d = c
    · rw [hdc] at hr
      exact hbegun r hr
    · rw [hothers d hdc] at hr
      exact (hw.begun d hd r hr).later hlater
  walless := by
    intro d hd
    have hne : d.walsDirectory ≠ c.basebackupsDirectory := by
      refine hw.apart.ne_of_own_ne hd hc d.wals_mem c.base_mem ?_
      rintro rfl
      exact (hw.apart.base_ne_wals hd).symm
    dsimp only
    rw [place_congr hchange.workDir, get?_of_changesBackup hw.apart hw.clear hc hid hchange
      (mem_storagePaths_wals hd) hne]
    exact hw.walless d hd

/-! ## One backup and one deletion -/

theorem keptBackups_taken (c : ServerConfig) (history : List BackupEvent) (r : Record) :
    keptBackups c (history ++ [.taken c r]) = keptBackups c history ++ [r] := by
  rw [keptBackups_append]
  exact if_pos rfl

theorem keptBackups_deleted (c : ServerConfig) (history : List BackupEvent) (r : Record) :
    keptBackups c (history ++ [.deleted c r]) = (keptBackups c history).filter (· ≠ r) := by
  rw [keptBackups_append]
  exact if_pos rfl

/-- **A backup in a place where nothing was comes after those that are held**: the clock has not gone back since
    they were begun, and it has gone on, since their places are taken. -/
theorem Orderly.lt_of_new (hw : Orderly f (host, history)) (hc : c ∈ f.servers) {id : String}
    (hid : id = nextBackupId host) (hnew : host.files.exists_ (backupDir c id) = false) :
    ∀ r ∈ keptBackups c history, r.id < id := by
  intro r hr
  have hholds := hw.holds c hc
  obtain ⟨i, hi, hri⟩ := hw.begun c hc r hr
  have hle : r.id ≤ id := by
    rw [hri, hid]
    exact Time.Moment.compact_le_compact (hw.clock.plain i) (hw.clock.plain _)
      (hw.clock.le (Nat.le_of_lt hi))
  refine Std.lt_of_le_of_ne hle fun he => ?_
  have hdirectory := entry_of_join isName_recordName (backupDir_ne_empty (hholds.isName hr) c)
    (hholds.stored r hr)
  rw [he] at hdirectory
  rw [exists_iff.2 ⟨_, hdirectory⟩] at hnew
  cases hnew

/-- **A backup keeps all catalogs in order.** -/
theorem backup_orderly (hh : hooks.CopiesOnly f) (hc : c ∈ f.servers) (hbrief : c.Brief)
    (o : BackupOptions) : Within (Kept (Orderly f)) ((services hooks).recorded.backup c o) := by
  intro ⟨host, history⟩ hw
  have hname : Path.IsName (nextBackupId host) := isName_compact _
  show Orderly f (after (Operation.recording (fun r => [.taken c r]) (Storage.backup hooks c o)) (host, history))
  unfold after
  rw [Operation.recording_apply]
  rcases backup_cases hh hc hbrief o (hw.clear.clearBase hc) with
    ⟨e, host', hbackup, hlater, hgrown⟩ | ⟨r, host', hbackup, hid, hnew, hread, hended⟩
  · rw [hbackup]
    refine hw.of_changesBackup hc hname hlater (changesBackup_of_grown hname hgrown) (fun _ _ => rfl)
      ((hw.holds c hc).of_grown hgrown) fun r hr => ?_
    exact (hw.begun c hc r hr).later hlater
  · rw [hbackup]
    have hholds := hw.holds c hc
    rw [← hid] at hname
    refine hw.of_changesBackup hc hname hended.later hended.changes (fun d hd => ?_) ?_ ?_
    · rw [keptBackups_append]
      exact if_neg hd.symm
    · rw [keptBackups_taken]
      refine hholds.of_stored hw.apart hw.clear hc ?_ (hw.lt_of_new hc hid hnew) hended.changes hended.fits
        hended.record
      rw [hid]
      exact isPlainName_compact _
    · rw [keptBackups_taken]
      have hbegun : BegunBefore host' r := by
        refine ⟨host.readings, hread, ?_⟩
        rw [hended.later.clock]
        exact hid
      exact List.forall_mem_append.2 ⟨fun r' hr' => (hw.begun c hc r' hr').later hended.later,
        List.forall_mem_singleton.2 hbegun⟩

/-- **The deletion of a backup that is held keeps all catalogs in order.** -/
theorem deleteBackup_orderly (hc : c ∈ f.servers) {r : Record} (hw : Orderly f (host, history))
    (hr : r ∈ keptBackups c history) :
    Orderly f (after ((services hooks).recorded.deleteBackup c r) (host, history)) := by
  have hholds := hw.holds c hc
  have hname := hholds.isName hr
  show Orderly f (after (Operation.recording (fun _ => [.deleted c r]) (deleteBackup c r)) (host, history))
  unfold after deleteBackup
  rw [Operation.recording_apply, Host.onFiles_apply]
  cases hremove : removeAll (backupDir c r.id) host.files with
  | error e fs =>
    obtain rfl := eq_of_removeAll_error hname hremove
    exact hw
  | ok u fs =>
    have honly := removeAll_changesOnly (backupDir c r.id) host.files
    rw [after_of_ok hremove] at honly
    have hkept : ∀ {r'}, r' ∈ (keptBackups c history).filter (· ≠ r) → r' ∈ keptBackups c history :=
      fun hr' => (List.mem_filter.1 hr').1
    have hlater : host.Later { host with files := fs } := ⟨rfl, Nat.le_refl _⟩
    refine hw.of_changesBackup hc hname hlater (changesBackup_of_changesOnly honly fun _ => id)
      (fun d hd => ?_) ?_ ?_
    · rw [keptBackups_append]
      exact if_neg hd.symm
    · rw [keptBackups_deleted]
      exact hholds.of_removed hw.apart hw.clear hc hr hremove
    · rw [keptBackups_deleted]
      exact fun r' hr' => (hw.begun c hc r' (hkept hr')).later hlater

end Steps

/-! ## Commands -/

section Commands

variable {f : Fleet} {hooks : HookRunner} {w : Host × List BackupEvent}

/-- What a deletion does to the world is done by the service. -/
theorem Run.world_deleteRecord {σ : Type} (s : Services σ) (name : String) (c : ServerConfig) (r : Record)
    (session : Session σ) :
    (after (deleteRecord s name c r) session).world = after (s.deleteBackup c r) session.world := by
  unfold after deleteRecord
  rw [bind_apply, info_apply]
  dsimp only
  rw [bind_apply, perform_apply]
  cases s.deleteBackup c r session.world <;> rfl

/-- **The command to delete a backup keeps all catalogs in order**: whatever text names the backup, it is one
    that the catalog holds. -/
theorem delete_orderly (hw : Orderly f w) (zone : Time.Zone) (server backup : String) :
    Orderly f (Command.execute f (services hooks).recorded zone (.delete server backup) w).world := by
  obtain ⟨host, history⟩ := w
  let s := (services hooks).recorded
  rw [Command.world_execute]
  show Orderly f (after (Run.delete f s server backup) ⟨[], (host, history)⟩).world
  rw [Run.delete_eq]
  rcases Run.withServer_cases f server (fun c => Run.withBackup s c backup (Run.deleteRecord s server c))
      ⟨[], (host, history)⟩ with ⟨c, -, hserver, -, -, hact⟩ | ⟨ms, -, hact⟩
  · have hc : c ∈ f.servers := Fleet.mem_of_server? hserver
    rcases Run.withBackup_cases s c backup (Run.deleteRecord s server c) ⟨[], (host, history)⟩ with
      ⟨r, hr, hdo⟩ | ⟨ms, -, hdo⟩ | ⟨e, hdo⟩
    · have hkept : r ∈ keptBackups c history := (hw.holds c hc).mem_of_resolve rfl hr
      unfold after
      rw [hact, hdo]
      show Orderly f (after (Run.deleteRecord s server c r) ⟨[], (host, history)⟩).world
      rw [Run.world_deleteRecord]
      exact deleteBackup_orderly hc hw hkept
    · rw [after_of_ok (hact.trans hdo)]
      exact hw
    · rw [after_of_error (hact.trans hdo)]
      exact hw
  · rw [after_of_ok hact]
    exact hw

/-- The command makes or deletes backups. -/
inductive Command.ChangesBackups : Command → Prop where
  | backup (names : List String) (overrides : BackupOverrides) : ChangesBackups (.backup names overrides)
  | delete (server backup : String) : ChangesBackups (.delete server backup)

theorem execute_orderly (hh : hooks.CopiesOnly f) (hbrief : ∀ c ∈ f.servers, c.Brief) (hw : Orderly f w)
    (zone : Time.Zone) {command : Command} (hcommand : command.ChangesBackups) :
    Orderly f (command.execute f (services hooks).recorded zone w).world := by
  cases hcommand with
  | backup names overrides =>
    rw [Command.world_execute]
    exact Run.backup_within (isReach_kept (Orderly f))
      (fun c hc o => backup_orderly hh hc (hbrief c hc) o) ⟨[], w⟩ hw
  | delete server backup => exact delete_orderly hw zone server backup

/-- **After any commands that make and delete backups, all catalogs are in order.** -/
theorem runCommands_orderly (hh : hooks.CopiesOnly f) (hbrief : ∀ c ∈ f.servers, c.Brief) (hw : Orderly f w)
    (zone : Time.Zone) {commands : List Command} (hcommands : ∀ command ∈ commands, command.ChangesBackups) :
    Orderly f (runCommands f (services hooks).recorded zone commands w) :=
  runCommands_induction (P := Orderly f)
    (fun command hc _ hw => execute_orderly hh hbrief hw zone (hcommands command hc)) hw

/-- Before any command, nothing is stored and nothing is held. -/
theorem orderly_of_vacant {host : Host} (ha : f.StoresApart host.files)
    (hvacant : ∀ p ∈ f.storagePaths, host.files.Vacant p) (hclock : GoesForward host.clock) :
    Orderly f (host, []) where
  apart := ha
  clear := directoriesClear_of_vacant ha hvacant
  clock := hclock
  holds := by
    intro c hc
    have hbase := hvacant _ (mem_storagePaths_base hc)
    refine ⟨.nil, fun _ h => (List.not_mem_nil h).elim, fun _ h => (List.not_mem_nil h).elim,
      fun _ h => (List.not_mem_nil h).elim, fun id content hk => ?_, fun content hk => ?_⟩
    · rw [hbase.get?_below (below_recordLocation c host.files id)
        (recordLocation_ne_base c host.files id)] at hk
      cases hk
    · rcases hbase with hlist | ⟨-, hnone⟩
      · have hdirectory := (entry_eq_ok_iff.1 (listDirectory_eq_ok_iff.1 hlist).1).2.2
        rw [hk] at hdirectory
        cases hdirectory
      · rw [hk] at hnone
        cases hnone
  begun := fun c _ r hr => (List.not_mem_nil hr).elim
  walless := fun c hc => (hvacant _ (mem_storagePaths_wals hc)).get?_below (.cons _ _) (by simp)

end Commands

/-- Every directory of storage is empty or still to be made. The empty path names no directory: what is made
    below it is in the working directory, and is not found again by its name. -/
def Fleet.StartsEmpty (f : Fleet) (fs : FileSystem) : Prop := ∀ p ∈ f.storagePaths, p ≠ "" ∧ fs.Vacant p

/-! ## What is told -/

/-- All that is told of the backups of a server tells of these, in this order. -/
structure ToldInOrder {σ : Type} (s : Services σ) (c : ServerConfig) (kept : List Record) (world : σ) : Prop where
  listed : s.listBackups c world = .ok kept
  latest : ∀ text ∈ ["latest", "last"],
    (Identifier.read text).resolve (s.lookup c world) = .ok kept.getLast?
  oldest : ∀ text ∈ ["oldest", "first"],
    (Identifier.read text).resolve (s.lookup c world) = .ok kept.head?
  none_iff : ∀ text ∈ ["latest", "last", "oldest", "first"],
    (Identifier.read text).resolve (s.lookup c world) = .ok none ↔ s.listBackups c world = .ok []
  status : s.status c world = .ok (statusLines c kept 0)

/-- A line of a listing of backups. -/
def listingLine (c : ServerConfig) (minimal : Bool) (r : Record) : Message :=
  .result (if minimal then r.id else Run.backupText c r)

/-- The lines of a status. -/
def statusMessages (c : ServerConfig) (properties : List (String × String)) : List Message :=
  .result ("Server " ++ c.name ++ ":") ::
    properties.map fun p => .result ("\t" ++ p.1 ++ ": " ++ p.2)

section Told

variable {f : Fleet} {hooks : HookRunner} {host : Host} {history : List BackupEvent}

/-- **Where catalogs are in order, everything is told in the order of taking.** -/
theorem toldInOrder_of_orderly (hw : Orderly f (host, history))
    (hpaths : ∀ c ∈ f.servers, c.basebackupsDirectory ≠ "") {c : ServerConfig} (hc : c ∈ f.servers) :
    ToldInOrder (services hooks) c (keptBackups c history) host := by
  have hholds := hw.holds c hc
  have hlisted : (services hooks).listBackups c host = .ok (keptBackups c history) :=
    hholds.listBackups (hpaths c hc)
  have hlatest : ∀ text ∈ ["latest", "last"], (Identifier.read text).resolve
      ((services hooks).lookup c host) = .ok (keptBackups c history).getLast? := by
    intro text htext
    have hread : Identifier.read text = .latest := by
      revert text
      decide
    rw [hread]
    exact hholds.resolve_latest (hpaths c hc) hooks
  have holdest : ∀ text ∈ ["oldest", "first"], (Identifier.read text).resolve
      ((services hooks).lookup c host) = .ok (keptBackups c history).head? := by
    intro text htext
    have hread : Identifier.read text = .oldest := by
      revert text
      decide
    rw [hread]
    exact hholds.resolve_oldest (hpaths c hc) hooks
  refine ⟨hlisted, hlatest, holdest, fun text htext => ?_, hholds.status (hpaths c hc) (hw.walless c hc)⟩
  rw [hlisted]
  have hsplit : text ∈ ["latest", "last"] ∨ text ∈ ["oldest", "first"] := by
    revert text
    decide
  rcases hsplit with ht | ht
  · rw [hlatest text ht]
    simp
  · rw [holdest text ht]
    simp

/-- **A listing has the backups of each server in reverse order.** -/
theorem listBackup_told (zone : Time.Zone) (hw : Orderly f (host, history))
    (hpaths : ∀ c ∈ f.servers, c.basebackupsDirectory ≠ "") {names : List String} {targets : Targets}
    (ht : (expand f (.ofNames names) {}).2 = some targets) (minimal : Bool) :
    Command.execute f (services hooks) zone (.listBackup names minimal) host
      = ⟨(expand f (.ofNames names) {}).1 ++ Run.told .warn (fun c =>
          (keptBackups c history).reverse.map (listingLine c minimal)) targets.entries, host, none⟩ := by
  have hrun : ∀ name c, (name, some c) ∈ targets.entries → ∀ ms,
      (do
        let backups ← Run.ask ((services hooks).listBackups c)
        Run.say (backups.reverse.map (listingLine c minimal)) : Run Host Unit) ⟨ms, host⟩
      = .ok () ⟨ms ++ (keptBackups c history).reverse.map (listingLine c minimal), host⟩ := by
    intro name c hc ms
    have hlisted : (services hooks).listBackups c host = .ok (keptBackups c history) :=
      (toldInOrder_of_orderly hw hpaths (mem_servers_of_expand ht hc)).listed
    exact Run.ask_say hlisted (fun backups => backups.reverse.map (listingLine c minimal)) ms
  refine Command.execute_of_run ?_
  exact Run.onTargets_told rfl ht hrun []

/-- **The status of each server names the first and the last of its backups.** -/
theorem status_told (zone : Time.Zone) (hw : Orderly f (host, history))
    (hpaths : ∀ c ∈ f.servers, c.basebackupsDirectory ≠ "") {names : List String} {targets : Targets}
    (ht : (expand f (.ofNames names) {}).2 = some targets) :
    Command.execute f (services hooks) zone (.status names) host
      = ⟨(expand f (.ofNames names) {}).1 ++ Run.told .warn (fun c =>
          statusMessages c (statusLines c (keptBackups c history) 0)) targets.entries, host, none⟩ := by
  have hrun : ∀ name c, (name, some c) ∈ targets.entries → ∀ ms,
      (do
        let properties ← Run.ask ((services hooks).status c)
        Run.say (statusMessages c properties) : Run Host Unit) ⟨ms, host⟩
      = .ok () ⟨ms ++ statusMessages c (statusLines c (keptBackups c history) 0), host⟩ := by
    intro name c hc ms
    have hstatus : (services hooks).status c host = .ok (statusLines c (keptBackups c history) 0) :=
      (toldInOrder_of_orderly hw hpaths (mem_servers_of_expand ht hc)).status
    exact Run.ask_say hstatus (statusMessages c) ms
  refine Command.execute_of_run ?_
  exact Run.onTargets_told rfl ht hrun []

end Told

namespace ThreeBackups

/-- One server, with a command for backups. -/
def server : ServerConfig :=
  { ServerConfig.new "main" "srv" with
    basebackupsDirectory := "base"
    walsDirectory := "wals"
    incomingWalsDirectory := "incoming"
    backupCommand := some "pg_backup" }

def fleet : Fleet := ⟨Settings.new "bman.conf", [server], []⟩

/-- The first seconds of 1970, of which the tenth does not end. -/
def clock (reading : Nat) : Time.Moment := .ofUnix (min reading 9 : Nat) 0

/-- No file is there yet. -/
def host : Host := ⟨⟨.empty, [], []⟩, clock, 0, [], 1, 0, []⟩

/-- Three backups, of which the second one is deleted before the third one is taken. -/
def commands : List Command :=
  [.backup [] {}, .backup [] {}, .delete "main" "latest", .backup [] {}]

theorem goesForward : GoesForward clock := by
  have hle : ∀ a b : Fin 10, a ≤ b → clock a ≤ clock b := by decide
  have hplain : ∀ a : Fin 10, (clock a).HasPlainYear := by decide
  have hmin : ∀ i, clock i = clock (min i 9) := by
    intro i
    unfold clock
    rw [Nat.min_assoc, Nat.min_self]
  refine ⟨fun {i j} hij => ?_, fun i => ?_⟩
  · rw [hmin i, hmin j]
    exact hle ⟨min i 9, by omega⟩ ⟨min j 9, by omega⟩ (by rw [Fin.mk_le_mk]; omega)
  · rw [hmin i]
    exact hplain ⟨min i 9, by omega⟩

theorem ids_of_kept :
    (keptBackups server (runCommands fleet (services .idle).recorded .utc commands (host, [])).2).map (·.id)
      = ["19700101T000000", "19700101T000004"] := by decide +kernel

end ThreeBackups

end BackupFleet
