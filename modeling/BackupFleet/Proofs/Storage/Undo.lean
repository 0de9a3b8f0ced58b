import BackupFleet.Proofs.FileSystem.Seals
import BackupFleet.Proofs.Storage.Backup
import BackupFleet.Proofs.Storage.Deletion
import BackupFleet.Proofs.Storage.RecordFile

/-!
# `BackupFleet.Proofs.Storage.Undo` — a backup taken, and taken back

A backup comes to a place where nothing was, and its record is stored there twice. Once the second record is
stored, it is what a look-up finds, and nothing outside of the place has changed but that directories may
have been made on the way to it. If none had to be made, removing the place takes back all that the backup
has done: nothing was below it before, and a directory in which a file could be made can be removed.

## Contents

* `HookRunner.CopiesFor`, `HookRunner.succeedsOn`, `SameForHooks` — the hook of one server's backups;
* `beginBackup`, `Begun`, `begun_of_beginBackup` — a backup up to its hook;
* `EndedWith`, `endedWith_of_endBackup` — a backup from its hook on;
* `getBackup_of_saved`, `absent_of_new`, `undone_of_deleteBackup` — the record in its place, the place before
  the backup, and the place after a deletion;
* `backup_is_new_and_deletion_undoes_it` — both together.
-/

namespace BackupFleet

open FileTree FileSystem Effect Storage

/-! ## Hooks -/

/-- The hook of the server's backups changes nothing but the copy that its backup consists of. -/
structure HookRunner.CopiesFor (c : ServerConfig) (hooks : HookRunner) : Prop where
  brief : ∀ run call fs, (hooks run call fs).1.Brief
  backup : ∀ command, c.backupCommand = some command → ∀ run id o fs k,
    ¬AtOrBelow (fs.place (dataDir c id)) k →
    (hooks run ⟨command, ("BMAN_SERVER", c.name) :: backupParameters c id o⟩ fs).2.get? k
      = fs.tree.get? k

/-- The call can be made on the machine, and it ends with success. -/
def HookRunner.succeedsOn (hooks : HookRunner) (call : HookCall) (h : Host) : Bool :=
  !HookCall.hasNul call && (hooks h.hookRuns call h.files).1.status.success

namespace Storage

open Catalog

section Hooks

variable (hooks : HookRunner) (c : ServerConfig) (command : String)
  (parameters : List (String × String))

theorem succeeds_runHook (h : Host) :
    Effect.succeeds (runHook hooks c command parameters) h
      = hooks.succeedsOn ⟨command, ("BMAN_SERVER", c.name) :: parameters⟩ h := by
  unfold Effect.succeeds HookRunner.succeedsOn runHook
  dsimp only
  cases HookCall.hasNul ⟨command, ("BMAN_SERVER", c.name) :: parameters⟩ with
  | true => rfl
  | false =>
    cases (hooks h.hookRuns ⟨command, ("BMAN_SERVER", c.name) :: parameters⟩
      h.files).1.status.success <;> simp

/-- Hooks cannot tell the machines apart: they see the files, and the number of their run. -/
def SameForHooks (h h' : Host) : Prop := h.files = h'.files ∧ h.hookRuns = h'.hookRuns

theorem indifferent_runHook : Indifferent SameForHooks (runHook hooks c command parameters) where
  succeeds := by
    rintro h h' ⟨hfiles, hruns⟩
    rw [succeeds_runHook, succeeds_runHook, HookRunner.succeedsOn, HookRunner.succeedsOn, hfiles, hruns]
  after := by
    rintro h h' ⟨hfiles, hruns⟩
    rw [after_runHook, after_runHook]
    split
    · exact ⟨hfiles, hruns⟩
    · exact ⟨by rw [hfiles, hruns], by rw [hruns]⟩

theorem succeeds_runHookWithRetry (retries seconds : Nat) (h : Host) :
    Effect.succeeds (runHookWithRetry hooks c command parameters retries seconds) h
      = (attempts (runHook hooks c command parameters) id retries h).any
          (hooks.succeedsOn ⟨command, ("BMAN_SERVER", c.name) :: parameters⟩) := by
  have hpause : ∀ k s t, SameForHooks s t → SameForHooks (Host.pause seconds k s) t := fun _ _ _ hsame => hsame
  unfold runHookWithRetry
  rw [succeeds_retry (indifferent_runHook hooks c command parameters) hpause retries ⟨rfl, rfl⟩]
  exact congrArg _ (funext (succeeds_runHook hooks c command parameters))

/-- Hooks seal no directory. -/
theorem runHookWithRetry_sameSeals (retries seconds : Nat) :
    Host.FilesWithin SameSeals (runHookWithRetry hooks c command parameters retries seconds) :=
  runHookWithRetry_within (Host.isReach_files isReach_sameSeals) (runHook_within (fun _ => rfl) fun _ => rfl)
    (fun _ _ => rfl) retries

end Hooks

theorem saveRecord_sameSeals (c : ServerConfig) (r : Record) :
    Host.FilesWithin SameSeals (saveRecord c r) := by
  unfold saveRecord
  refine Within.bind (Host.isReach_files isReach_sameSeals)
    (Host.FilesWithin.onFiles (makeDirectories_sameSeals _)) fun _ _ h _ => ?_
  exact Host.FilesWithin.onFiles (writeFile_sameSeals _ _) h

/-- The status of the record says whether the hook succeeded. -/
theorem status_endedRecord {σ : Type} (started : Record) (op : Operation σ (List Char)) (s : σ)
    (endTime : Time.Moment) :
    (endedRecord started (answer op s) endTime).status = if Effect.succeeds op s then .done else .failed := by
  unfold answer Effect.succeeds
  cases op s <;> rfl

/-! ## Up to the hook -/

/-- What a backup does before its hook runs. -/
def beginBackup (c : ServerConfig) (started : Record) : Operation Host Unit := do
  Host.onFiles .createDirectory (dataDir c started.id) (makeDirectories (dataDir c started.id))
  saveRecord c started

theorem makeBackup_eq (hooks : HookRunner) (c : ServerConfig) (o : BackupOptions) (command : String)
    (started : Record) :
    makeBackup hooks c o command started
      = (beginBackup c started >>= fun _ => endBackup hooks c o command started) := by
  unfold makeBackup beginBackup
  rw [bind_assoc]

section Place

variable {c : ServerConfig}

theorem Saved.after {id : String} {content : Bytes} {fs fs1 fs' : FileSystem}
    (h : Saved c id content fs1 fs') (hchange : ChangesBackup c id fs fs1) : Saved c id content fs fs' :=
  ⟨(isReach_changesBackup c id).trans hchange h.changes, h.record, h.directory⟩

/-- **Where a first record could be stored, the directory of the backup can be removed.** -/
theorem not_isSealed_of_saveRecord {r : Record} (hid : Path.IsName r.id) {h h' : Host}
    (hsave : saveRecord c r h = .ok () h')
    (hnew : ∀ old, h.files.tree.get? (recordLocation c h.files r.id) ≠ some (.file old)) :
    h.files.isSealed (h.files.place (backupDir c r.id)) = false := by
  have hgrown := makeDirectories_grown (backupDir c r.id) h.files
  have hseals := makeDirectories_sameSeals (backupDir c r.id) h.files
  rw [saveRecord_apply] at hsave
  cases hm : makeDirectories (backupDir c r.id) h.files with
  | error e fs =>
    rw [hm] at hsave
    cases hsave
  | ok u fs =>
    rw [after_of_ok hm] at hgrown hseals
    rw [hm] at hsave
    dsimp only at hsave
    cases hw : writeFile (recordPath c r.id) r.encode fs with
    | error e fs' =>
      rw [hw] at hsave
      cases hsave
    | ok u fs' =>
      have hplace : fs.place (recordPath c r.id) = recordName :: h.files.place (backupDir c r.id) := by
        rw [place_recordPath hid, recordLocation_congr hgrown.workDir, place_backupDir hid]
        rfl
      have hopen := not_isSealed_of_writeFile hw fun old hold => by
        rw [place_recordPath hid, recordLocation_congr hgrown.workDir] at hold
        exact hnew old (hgrown.get?_file_iff.1 hold)
      rw [hplace, isSealed_congr hseals] at hopen
      -- The seal on a directory is one on all that is below it, the record included.
      refine Bool.eq_false_iff.2 fun hs => ?_
      rw [isSealed_of_tail (l := recordName :: h.files.place (backupDir c r.id)) hs] at hopen
      cases hopen

/-- A backup has come to its hook: its record is stored as started, and its directory is in no sealed one,
    unless its record is in place of another. -/
structure Begun (c : ServerConfig) (started : Record) (h h' : Host) : Prop where
  saved : Saved c started.id started.encode h.files h'.files
  seals : SameSeals h.files h'.files
  unsealed : (∀ old, h.files.tree.get? (recordLocation c h.files started.id) ≠ some (.file old)) →
    h.files.isSealed (h.files.place (backupDir c started.id)) = false

theorem begun_of_beginBackup {started : Record} (hid : Path.IsName started.id) {h h' : Host}
    (hbegin : beginBackup c started h = .ok () h') : Begun c started h h' := by
  have hgrown := makeDirectories_grown (dataDir c started.id) h.files
  have hseals := makeDirectories_sameSeals (dataDir c started.id) h.files
  unfold beginBackup at hbegin
  rw [bind_apply, Host.onFiles_apply] at hbegin
  cases hm : makeDirectories (dataDir c started.id) h.files with
  | error e fs =>
    rw [hm] at hbegin
    cases hbegin
  | ok u fs =>
    rw [after_of_ok hm] at hgrown hseals
    rw [hm] at hbegin
    dsimp only at hbegin
    have hsaveSeals := saveRecord_sameSeals c started { h with files := fs }
    rw [after_of_ok hbegin] at hsaveSeals
    refine ⟨?_, isReach_sameSeals.trans hseals hsaveSeals, fun hnew => ?_⟩
    · rcases saveRecord_cases (c := c) started hid { h with files := fs } with
        ⟨e, fs', hsave, -⟩ | ⟨fs', hsave, hsaved⟩
      · rw [hsave] at hbegin
        cases hbegin
      · rw [hsave] at hbegin
        obtain ⟨-, rfl⟩ := EStateM.Result.ok.inj hbegin
        exact hsaved.after (changesBackup_of_grown hid hgrown)
    · have hopen := not_isSealed_of_saveRecord hid hbegin fun old hold => by
        rw [recordLocation_congr hgrown.workDir] at hold
        exact hnew old (hgrown.get?_file_iff.1 hold)
      rwa [place_congr hgrown.workDir, isSealed_congr hseals] at hopen

end Place

/-! ## From the hook on -/

section Service

variable {hooks : HookRunner} {c : ServerConfig} {o : BackupOptions} {command : String}

/-- A backup has ended with this record: it is what is stored, and its status says whether any attempt at
    running the hook succeeded. -/
structure EndedWith (hooks : HookRunner) (c : ServerConfig) (o : BackupOptions) (command : String)
    (r : Record) (h h' : Host) : Prop where
  saved : Saved c r.id r.encode h.files h'.files
  seals : SameSeals h.files h'.files
  fits : r.Fits
  status : r.status =
    if (attempts (runHook hooks c command (backupParameters c r.id o)) id o.retryTimes h).any
        (hooks.succeedsOn ⟨command, ("BMAN_SERVER", c.name) :: backupParameters c r.id o⟩)
      then .done else .failed

/-- The hook of a backup ends in some way; it has changed nothing but the copy, and the record with its outcome
    says whether any attempt succeeded. -/
theorem settle_hook (hh : hooks.CopiesFor c) (hcommand : c.backupCommand = some command)
    (hlength : command.length ≤ outsideLimit) (started : Record) (h : Host) :
    ∃ outcome h',
      settle (runHookWithRetry hooks c command (backupParameters c started.id o) o.retryTimes o.retrySleep) h
        = .ok outcome h' ∧
      BriefAnswer outcome ∧ SameSeals h.files h'.files ∧
      ChangesOnly (fun k => AtOrBelow (h.files.place (dataDir c started.id)) k) h.files h'.files ∧
      ∀ endTime, (endedRecord started outcome endTime).status =
        if (attempts (runHook hooks c command (backupParameters c started.id o)) id o.retryTimes h).any
            (hooks.succeedsOn ⟨command, ("BMAN_SERVER", c.name) :: backupParameters c started.id o⟩)
          then .done else .failed := by
  have hstatus := status_endedRecord started
    (runHookWithRetry hooks c command (backupParameters c started.id o) o.retryTimes o.retrySleep) h
  rw [succeeds_runHookWithRetry] at hstatus
  refine ⟨_, _, settle_apply _ h, briefAnswer_runHookWithRetry hh.brief hlength o.retryTimes o.retrySleep h,
    runHookWithRetry_sameSeals _ _ _ _ _ _ h, ?_, hstatus⟩
  exact runHookWithRetry_changesOnly (fun run fs k => hh.backup command hcommand run started.id o fs k)
    (fun fs fs' hw => by rw [place_congr hw]) o.retryTimes o.retrySleep h

/-- **Where a backup returns its record, it has stored it again.** The hook may have been in the way of that
    only where the path of the record leads through the copy. -/
theorem endedWith_of_endBackup (hh : hooks.CopiesFor c) (hcommand : c.backupCommand = some command)
    (hlength : command.length ≤ outsideLimit) {started r : Record} (hbegins : Begins c started)
    {h h' : Host} (hend : endBackup hooks c o command started h = .ok r h') :
    r.id = started.id ∧ EndedWith hooks c o command r h h' := by
  obtain ⟨outcome, h1, hrun, hbrief, hseals, hchange, hstatus⟩ :=
    settle_hook (o := o) hh hcommand hlength started h
  unfold endBackup at hend
  rw [bind_apply, hrun] at hend
  dsimp only at hend
  rw [bind_apply, Host.now_apply] at hend
  dsimp only at hend
  obtain ⟨hsettled, hfits⟩ := hbegins.ends outcome (h1.clock h1.readings) hbrief
  replace hstatus := hstatus (h1.clock h1.readings)
  generalize endedRecord started outcome (h1.clock h1.readings) = record at hend hsettled hfits hstatus
  have hsame : record.id = started.id := hsettled.id
  have hid := hbegins.id
  rw [← hsame] at hid hchange hstatus
  have hsaveSeals := saveRecord_sameSeals c record { h1 with readings := h1.readings + 1 }
  -- That this record is stored is read off the answer, so the hook may have done anything to its path.
  rw [bind_apply] at hend
  rcases saveRecord_cases (c := c) record hid { h1 with readings := h1.readings + 1 } with
    ⟨e, fs, hsave, -⟩ | ⟨fs, hsave, hsaved⟩
  · rw [hsave] at hend
    cases hend
  · rw [after_of_ok hsave] at hsaveSeals
    rw [hsave] at hend
    obtain ⟨rfl, rfl⟩ := EStateM.Result.ok.inj hend
    have hcopied : ChangesBackup c record.id h.files h1.files :=
      changesBackup_of_changesOnly hchange fun k hk => (below_dataDir c h.files record.id).trans hk
    exact ⟨hsame, hsaved.after hcopied, isReach_sameSeals.trans hseals hsaveSeals, hfits, hstatus⟩

end Service

/-! ## The deletion -/

section Deletion

variable {c : ServerConfig}

/-- A record that is stored under the name of an id is found. -/
theorem getBackup_of_saved {r : Record} (hplain : isPlainName r.id = true) (hfits : r.Fits)
    {fs fs' : FileSystem} (hsaved : Saved c r.id r.encode fs fs') :
    getBackup c r.id fs' = .ok (some r) := by
  have hfile : fs'.isFile (recordPath c r.id) = true := isFile_iff.2 ⟨_, hsaved.record⟩
  rw [getBackup_of_hasBackup ⟨hplain, hfile⟩,
    loadRecord_of_decode (readFile_eq_ok_iff.2 hsaved.record) (Record.decode_encode hfits)]
  rfl

/-- **Where there is a directory of base backups and no backup in it, nothing is at or below its place.** -/
theorem absent_of_new {id : String} (hid : Path.IsName id) (hpath : IsPath (backupDir c id))
    {fs : FileSystem} (hbase : fs.entry c.basebackupsDirectory = .ok .directory)
    (hnew : fs.exists_ (backupDir c id) = false) {k : Location}
    (hk : AtOrBelow (fs.place (backupDir c id)) k) : fs.tree.get? k = none := by
  obtain ⟨-, hway, hdirectory⟩ := entry_eq_ok_iff.1 hbase
  have hreached : ∀ l ∈ fs.way (backupDir c id), fs.tree.get? l = some .directory := by
    intro l hl
    rw [show backupDir c id = Path.join c.basebackupsDirectory id from rfl, way_join hid] at hl
    rcases mem_trail_iff.1 hl with rfl | hl
    · exact hdirectory
    · exact hway l hl
  have hplace : fs.tree.get? (fs.place (backupDir c id)) = none := by
    cases hg : fs.tree.get? (fs.place (backupDir c id)) with
    | none => rfl
    | some e =>
      rw [exists_iff.2 ⟨e, entry_eq_ok_iff.2 ⟨hpath, hreached, hg⟩⟩] at hnew
      cases hnew
  cases hg : fs.tree.get? k with
  | none => rfl
  | some e =>
    by_cases hne : fs.place (backupDir c id) = k
    · rw [← hne, hplace] at hg
      cases hg
    · rw [get?_above hg hk hne] at hplace
      cases hplace

/-- **A deletion takes back a backup**, if nothing had to be made on the way to it, and its directory is in no
    sealed one. -/
theorem undone_of_deleteBackup {r : Record} (hid : Path.IsName r.id) {h h' : Host}
    (hbase : h.files.entry c.basebackupsDirectory = .ok .directory)
    (hnew : h.files.exists_ (backupDir c r.id) = false) {content : Bytes}
    (hsaved : Saved c r.id content h.files h'.files) (hseals : SameSeals h.files h'.files)
    (hopen : h.files.isSealed (h.files.place (backupDir c r.id)) = false) :
    ∃ h'', deleteBackup c r h' = .ok () h'' ∧ ∀ k, h''.files.tree.get? k = h.files.tree.get? k := by
  have hchanges := hsaved.changes
  have hplace := place_congr hchanges.workDir (backupDir c r.id)
  rw [← hplace, ← isSealed_congr hseals] at hopen
  have hlast : (Path.segments (backupDir c r.id)).getLast? ≠ some "." := by
    unfold backupDir
    rw [segments_join (isPart_of_isName hid)]
    simpa using hid.2.1
  obtain ⟨fs, hremove⟩ := removeAll_of_directory hsaved.directory hopen hlast
  refine ⟨{ h' with files := fs }, ?_, fun k => ?_⟩
  · unfold deleteBackup
    rw [Host.onFiles_apply, hremove]
  obtain ⟨-, -, hget⟩ := removeAll_ok hremove
  show fs.tree.get? k = _
  rw [hget]
  by_cases hk : AtOrBelow (h.files.place (backupDir c r.id)) k
  · rw [if_pos ((removes_backupDir_iff hid _ k).2 (by rwa [hplace]))]
    exact (absent_of_new hid (entry_eq_ok_iff.1 hsaved.directory).1 hbase hnew hk).symm
  · rw [if_neg fun hr => hk (by rwa [removes_backupDir_iff hid, hplace] at hr)]
    -- On the way to the base backups there is no place for another directory.
    rcases hchanges.entries k hk with hsame | ⟨htrail, hnone, -⟩
    · exact hsame
    · obtain ⟨-, hway, hdirectory⟩ := entry_eq_ok_iff.1 hbase
      rcases mem_trail_iff.1 htrail with rfl | hl
      · rw [hdirectory] at hnone
        cases hnone
      · rw [hway k hl] at hnone
        cases hnone

end Deletion

/-- **A backup is taken where nothing is, or not at all, and deleting it takes it back.** If something has the
    name of the id of the current second, the backup fails and no hook is run; nothing changes but that the
    clock may have been read. A backup that returns its record was taken where nothing was; it is done iff some
    attempt at running its hook succeeded, and otherwise failed; a look-up finds exactly its record; and nothing
    has changed but what is in its directory, and that directories may have been made on the way to the base
    backups. If these had their directory before, a deletion succeeds and everything is as it was. -/
theorem backup_is_new_and_deletion_undoes_it {hooks : HookRunner} {c : ServerConfig}
    (hh : hooks.CopiesFor c) (hbrief : c.Brief) (o : BackupOptions) (h : Host) :
    (h.files.exists_ (backupDir c (nextBackupId h)) = true →
      ∃ e h', Storage.backup hooks c o h = .error e h' ∧ h' = { h with readings := h'.readings }) ∧
    ∀ r h', Storage.backup hooks c o h = .ok r h' →
      r.id = nextBackupId h ∧ h.files.exists_ (backupDir c r.id) = false ∧
      (∃ command h1, c.backupCommand = some command ∧
        beginBackup c (startedRecord c (h.clock h.readings)) { h with readings := h.readings + 1 }
          = .ok () h1 ∧
        r.status =
          if (attempts (runHook hooks c command (backupParameters c r.id o)) id o.retryTimes h1).any
              (hooks.succeedsOn ⟨command, ("BMAN_SERVER", c.name) :: backupParameters c r.id o⟩)
            then .done else .failed) ∧
      getBackup c r.id h'.files = .ok (some r) ∧ ChangesBackup c r.id h.files h'.files ∧
      (h.files.entry c.basebackupsDirectory = .ok .directory →
        ∃ h'', deleteBackup c r h' = .ok () h'' ∧ ∀ k, h''.files.tree.get? k = h.files.tree.get? k) := by
  rw [backup_apply]
  cases hcommand : c.backupCommand with
  | none => exact ⟨fun _ => ⟨_, _, rfl, rfl⟩, fun r h' hbackup => by cases hbackup⟩
  | some command =>
    dsimp only
    by_cases hexists : h.files.exists_ (backupDir c (nextBackupId h)) = true
    · rw [if_pos hexists]
      exact ⟨fun _ => ⟨_, _, rfl, rfl⟩, fun r h' hbackup => by cases hbackup⟩
    rw [if_neg hexists]
    refine ⟨fun he => absurd he hexists, fun r h' hbackup => ?_⟩
    have hbegins := begins_startedRecord hbrief (h.clock h.readings)
    rw [makeBackup_eq, bind_apply] at hbackup
    cases hbegin : beginBackup c (startedRecord c (h.clock h.readings))
      { h with readings := h.readings + 1 } with
    | error e h1 =>
      rw [hbegin] at hbackup
      cases hbackup
    | ok u h1 =>
      rw [hbegin] at hbackup
      have hbegun := begun_of_beginBackup hbegins.id hbegin
      obtain ⟨hid, hended⟩ := endedWith_of_endBackup hh hcommand (hbrief.command command hcommand) hbegins
        hbackup
      have hname := hbegins.id
      rw [← hid] at hname
      have hnew : h.files.exists_ (backupDir c r.id) = false := by
        rw [hid]
        exact Bool.eq_false_iff.2 hexists
      have hsaved : Saved c r.id r.encode h.files h'.files :=
        hended.saved.after (by rw [hid]; exact hbegun.saved.changes)
      have hplain : isPlainName r.id = true := by
        rw [hid]
        exact isPlainName_compact (h.clock h.readings)
      refine ⟨hid, hnew, ⟨command, h1, rfl, rfl, hended.status⟩, getBackup_of_saved hplain hended.fits hsaved,
        hsaved.changes, fun hbase => ?_⟩
      -- The first record came to where nothing was, so its directory is in no sealed one.
      refine undone_of_deleteBackup hname hbase hnew hsaved
        (isReach_sameSeals.trans hbegun.seals hended.seals) ?_
      rw [hid]
      refine hbegun.unsealed fun old hold => ?_
      have habsent := absent_of_new hname (entry_eq_ok_iff.1 hsaved.directory).1 hbase hnew
        (k := recordLocation c h.files (startedRecord c (h.clock h.readings)).id) (by
          rw [← hid, place_backupDir hname]
          exact .cons recordName _)
      rw [habsent] at hold
      cases hold

/-! ### A hook that succeeds when it is run again -/

namespace SecondAttempt

/-- One server, with a command for backups. -/
def server : ServerConfig :=
  { ServerConfig.new "main" "srv" with
    basebackupsDirectory := "base"
    backupCommand := some "pg_backup" }

/-- Each run copies a file; the first one fails after that, the others name the end of the WAL range. -/
def hooks : HookRunner := fun run call fs =>
  match call.environment.lookup "BMAN_BACKUP_DIR" with
  | none => (⟨.code 2, [], []⟩, fs.tree)
  | some dir =>
    (⟨.code (if run = 0 then 1 else 0), Text.encode "end_wal 1".toList, []⟩,
      fs.tree.put ("PG_VERSION" :: fs.place dir) (.file [49, 55]))

/-- One more attempt is made. -/
def options : BackupOptions := ⟨.copy, false, 1, 0⟩

/-- There is a directory of base backups, and it is empty. -/
def host : Host := ⟨⟨FileTree.empty.put ["base"] .directory, [], []⟩, fun _ => .epoch, 0, [], 1, 0, []⟩

theorem copiesFor : hooks.CopiesFor server where
  brief := by
    intro run call fs
    unfold hooks
    split
    · refine ⟨Nat.zero_le _, Nat.zero_le _, ?_⟩
      show (ExitStatus.code 2).text.length ≤ outsideLimit
      decide
    · refine ⟨?_, Nat.zero_le _, ?_⟩
      · show (Text.encode "end_wal 1".toList).length ≤ outsideLimit
        decide
      · dsimp only
        split <;> decide
  backup := by
    intro command _ run id o fs k hk
    have hdir : (("BMAN_SERVER", server.name) :: backupParameters server id o).lookup "BMAN_BACKUP_DIR"
        = some (dataDir server id) := by simp [backupParameters, List.lookup_cons]
    unfold hooks
    rw [hdir]
    dsimp only
    rw [FileTree.get?_put_of_ne]
    rintro rfl
    exact hk (.cons "PG_VERSION" _)

theorem backup_done :
    (answer (Storage.backup hooks server options) host).toOption.map Record.status = some .done := by
  decide +kernel

end SecondAttempt

open SecondAttempt in
/-- The backup is done and found, and its deletion takes it back. -/
theorem backup_of_second_attempt_undone :
    SecondAttempt.hooks.CopiesFor server ∧ server.Brief ∧ ∃ r h' h'',
      Storage.backup SecondAttempt.hooks server options SecondAttempt.host = .ok r h' ∧
      r.id = "19700101T000000" ∧ r.status = .done ∧ getBackup server r.id h'.files = .ok (some r) ∧
      deleteBackup server r h' = .ok () h'' ∧
      ∀ k, h''.files.tree.get? k = SecondAttempt.host.files.tree.get? k := by
  have hbrief : server.Brief :=
    ⟨by decide, fun s hs => by obtain rfl := Option.some.inj hs; decide⟩
  obtain ⟨-, htaken⟩ :=
    backup_is_new_and_deletion_undoes_it copiesFor hbrief options SecondAttempt.host
  have hdone := backup_done
  unfold answer at hdone
  cases hbackup : Storage.backup SecondAttempt.hooks server options SecondAttempt.host with
  | error e h' =>
    rw [hbackup] at hdone
    cases hdone
  | ok r h' =>
    rw [hbackup] at hdone
    obtain ⟨hid, -, -, hget, -, hundone⟩ := htaken r h' hbackup
    obtain ⟨h'', hdelete, hsame⟩ := hundone (by rfl)
    exact ⟨copiesFor, hbrief, r, h', h'', rfl, hid.trans (by decide +kernel), Option.some.inj hdone, hget,
      hdelete, hsame⟩

end Storage

end BackupFleet
