import BackupFleet.Proofs.Hook.Output
import BackupFleet.Proofs.Storage.Records

/-!
# `BackupFleet.Proofs.Storage.Backup` — what making a backup does to the catalog

A backup stores its record twice: as started, before its hook runs, and with its outcome afterwards. A hook
that changes nothing but the copy cannot get in the way of the second time, so a record that is found
started after a backup is never the last word: either nothing was stored, or the outcome is.

## Contents

* `HookOutcome.Brief`, `HookRunner.Contained`, `HookRunner.CopiesOnly` — what is asked of hooks;
* `after_runHook`, `runHook_within`, `runHookWithRetry_within` — what a hook leaves;
* `runHookWithRetry_changesOnly`, `briefAnswer_runHookWithRetry` — a hook with its retries;
* `Saved`, `saveRecord_cases`, `saveRecord_again` — a record stored, and stored again;
* `Settled`, `CatalogSettled` — the records that backups leave, and the invariant;
* `Begins`, `BackupEnded`, `endBackup_ended` — from the record of a backup that has begun to that of one that
  has ended;
* `backup_cases`, `backup_settled`, `recover_noNewRecord` — the services that run hooks.
-/

namespace BackupFleet

open FileTree FileSystem Effect Storage

/-! ## Hooks -/

/-- No text that comes from outside is longer, in characters or bytes: a process addresses less memory. -/
def outsideLimit : Nat := 2 ^ 58

/-- The output of a hook, and the wording of its end, are within the limit. -/
structure HookOutcome.Brief (o : HookOutcome) : Prop where
  out : o.out.length ≤ outsideLimit
  err : o.err.length ≤ outsideLimit
  status : o.status.text.length ≤ outsideLimit

/-- The texts of a server that get into records are within the limit. -/
structure ServerConfig.Brief (c : ServerConfig) : Prop where
  name : c.name.length ≤ outsideLimit
  command : ∀ s, c.backupCommand = some s → s.length ≤ outsideLimit

/-- Hooks keep to their places: that of a backup changes nothing but the copy that the backup consists of,
    and that of a recovery nothing inside any directory of storage. -/
structure HookRunner.Contained (f : Fleet) (hooks : HookRunner) : Prop where
  brief : ∀ run call fs, (hooks run call fs).1.Brief
  backup : ∀ c ∈ f.servers, ∀ run command id o fs k, ¬AtOrBelow (fs.place (dataDir c id)) k →
    (hooks run ⟨command, ("BMAN_SERVER", c.name) :: backupParameters c id o⟩ fs).2.get? k
      = fs.tree.get? k
  recovery : ∀ c ∈ f.servers, ∀ run command r q fs, ∀ p ∈ f.storagePaths, ∀ k,
    AtOrBelow (fs.place p) k → k ≠ fs.place p →
    (hooks run ⟨command, ("BMAN_SERVER", c.name) :: recoveryParameters c r q⟩ fs).2.get? k
      = fs.tree.get? k

/-- The hooks of backups keep to their places: each changes nothing but the copy that its backup consists of. -/
structure HookRunner.CopiesOnly (f : Fleet) (hooks : HookRunner) : Prop where
  brief : ∀ run call fs, (hooks run call fs).1.Brief
  backup : ∀ c ∈ f.servers, ∀ run command id o fs k, ¬AtOrBelow (fs.place (dataDir c id)) k →
    (hooks run ⟨command, ("BMAN_SERVER", c.name) :: backupParameters c id o⟩ fs).2.get? k
      = fs.tree.get? k

theorem HookRunner.Contained.copiesOnly {f : Fleet} {hooks : HookRunner} (h : hooks.Contained f) :
    hooks.CopiesOnly f := ⟨h.brief, h.backup⟩

/-- Hooks that do nothing keep to their places. -/
theorem HookRunner.contained_idle (f : Fleet) : HookRunner.idle.Contained f where
  brief := fun _ _ _ => ⟨Nat.zero_le _, Nat.zero_le _,
    show (ExitStatus.code 0).text.length ≤ outsideLimit by decide⟩
  backup := fun _ _ _ _ _ _ _ _ _ => rfl
  recovery := fun _ _ _ _ _ _ _ _ _ _ _ _ => rfl

namespace Storage

open Catalog Catalog.Codec

/-- What came of an operation. -/
def answer {σ α : Type} (op : Operation σ α) (s : σ) : Except Fault α :=
  match op s with
  | .ok a _ => .ok a
  | .error e _ => .error e

theorem settle_apply {σ α : Type} (op : Operation σ α) (s : σ) :
    settle op s = .ok (answer op s) (after op s) := by
  unfold settle answer after
  cases op s <;> rfl

/-- What came of a hook is short enough to be stored. -/
def BriefAnswer : Except Fault (List Char) → Prop
  | .ok out => out.length < textLimit
  | .error e => e.chain.length ≤ textLimit

theorem length_trim_le_self (cs : List Char) : (Text.trim cs).length ≤ cs.length :=
  Nat.le_trans (Text.length_trim_le cs) (List.dropWhile_suffix Text.isBlank).length_le

section Hooks

variable {hooks : HookRunner} {c : ServerConfig} {command : String} {parameters : List (String × String)}
  {S : FileSystem → Location → Prop}

/-- A hook leaves the tree that it returns, and is counted; a call that cannot be made leaves everything. -/
theorem after_runHook (h : Host) :
    after (runHook hooks c command parameters) h
      = if HookCall.hasNul ⟨command, ("BMAN_SERVER", c.name) :: parameters⟩ then h
        else
          { h with
            files := h.files.withTree
              (hooks h.hookRuns ⟨command, ("BMAN_SERVER", c.name) :: parameters⟩ h.files).2
            hookRuns := h.hookRuns + 1 } := by
  unfold after runHook
  dsimp only
  by_cases hnul : HookCall.hasNul ⟨command, ("BMAN_SERVER", c.name) :: parameters⟩ = true
  · rw [if_pos hnul, if_pos hnul]
  · rw [if_neg hnul, if_neg hnul]
    by_cases hsuccess : (hooks h.hookRuns ⟨command, ("BMAN_SERVER", c.name) :: parameters⟩
        h.files).1.status.success = true
    · rw [if_pos hsuccess]
    · rw [if_neg hsuccess]

/-- What holds of either way a hook may leave the machine holds of hooks. -/
theorem runHook_within {R : Host → Host → Prop} (hrefl : ∀ h, R h h)
    (hrun : ∀ h : Host, R h
      { h with
        files := h.files.withTree
          (hooks h.hookRuns ⟨command, ("BMAN_SERVER", c.name) :: parameters⟩ h.files).2
        hookRuns := h.hookRuns + 1 }) :
    Within R (runHook hooks c command parameters) := by
  intro h
  rw [after_runHook]
  split
  · exact hrefl h
  · exact hrun h

/-- A hook with its retries leads where its runs and the pauses between them lead. -/
theorem runHookWithRetry_within {R : Host → Host → Prop} (hR : IsReach R)
    (hrun : Within R (runHook hooks c command parameters)) {seconds : Nat}
    (hpause : ∀ attempt h, R h (Host.pause seconds attempt h)) (retries : Nat) :
    Within R (runHookWithRetry hooks c command parameters retries seconds) :=
  Within.retry hR hrun hpause retries

/-- A hook that is run changes nothing but what hooks may change. -/
theorem runHook_changesOnly (hkeep : ∀ run fs k, ¬S fs k →
      (hooks run ⟨command, ("BMAN_SERVER", c.name) :: parameters⟩ fs).2.get? k = fs.tree.get? k) :
    Host.FilesWithin (fun fs fs' => ChangesOnly (S fs) fs fs') (runHook hooks c command parameters) :=
  runHook_within (fun h => (isReach_changesOnly _).refl h.files) fun h =>
    ⟨rfl, fun k hk => hkeep h.hookRuns h.files k hk⟩

/-- A hook takes its time. -/
theorem runHook_later : Within Host.Later (runHook hooks c command parameters) :=
  runHook_within Host.isReach_later.refl fun _ => ⟨rfl, Nat.le_refl _⟩

theorem runHookWithRetry_later (retries seconds : Nat) :
    Within Host.Later (runHookWithRetry hooks c command parameters retries seconds) :=
  runHookWithRetry_within Host.isReach_later runHook_later (fun _ _ => ⟨rfl, Nat.le_refl _⟩) retries

/-- **A hook with its retries** changes nothing but what hooks may change. -/
theorem runHookWithRetry_changesOnly (hkeep : ∀ run fs k, ¬S fs k →
      (hooks run ⟨command, ("BMAN_SERVER", c.name) :: parameters⟩ fs).2.get? k = fs.tree.get? k)
    (hS : ∀ fs fs' : FileSystem, fs'.workDir = fs.workDir → S fs' = S fs) (retries seconds : Nat) :
    Host.FilesWithin (fun fs fs' => ChangesOnly (S fs) fs fs')
      (runHookWithRetry hooks c command parameters retries seconds) :=
  runHookWithRetry_within (Host.isReach_files (isReach_changesOnly_at hS)) (runHook_changesOnly hkeep)
    (fun _ h => (isReach_changesOnly_at hS).refl h.files) retries

/-- The answer of a hook, or the wording of its failure, is short enough to be stored. -/
theorem briefAnswer_runHook (hbrief : ∀ run call fs, (hooks run call fs).1.Brief)
    (hcommand : command.length ≤ outsideLimit) (h : Host) :
    BriefAnswer (answer (runHook hooks c command parameters) h) := by
  unfold answer runHook
  dsimp only
  by_cases hnul : HookCall.hasNul ⟨command, ("BMAN_SERVER", c.name) :: parameters⟩ = true
  · rw [if_pos hnul]
    unfold BriefAnswer Fault.chain Fault.cause? Fault.message textLimit
    unfold outsideLimit at hcommand
    simp only [String.length_append]
    have h1 : "Failed to execute '".length = 19 := by decide
    have h2 : "'".length = 1 := by decide
    have h3 : ": ".length = 2 := by decide
    have h4 : "nul byte found in provided data".length = 31 := by decide
    omega
  · rw [if_neg hnul]
    have hb := hbrief h.hookRuns ⟨command, ("BMAN_SERVER", c.name) :: parameters⟩ h.files
    generalize hooks h.hookRuns ⟨command, ("BMAN_SERVER", c.name) :: parameters⟩ h.files = result at hb
    obtain ⟨outcome, tree⟩ := result
    dsimp only at hb ⊢
    by_cases hsuccess : outcome.status.success = true
    · rw [if_pos hsuccess]
      have hout := Text.length_decodeLossy_le outcome.out
      have hlimit := hb.out
      unfold BriefAnswer textLimit
      unfold outsideLimit at hlimit
      omega
    · rw [if_neg hsuccess]
      have herr := Nat.le_trans (length_trim_le_self (Text.decodeLossy outcome.err))
        (Nat.le_trans (Text.length_decodeLossy_le outcome.err) hb.err)
      have hstatus := hb.status
      unfold BriefAnswer Fault.chain Fault.cause? Fault.message textLimit
      unfold outsideLimit at hcommand herr hstatus
      simp only [String.length_append, String.length_ofList]
      have h1 : "'".length = 1 := by decide
      have h2 : "' failed (".length = 10 := by decide
      have h3 : "): ".length = 3 := by decide
      omega

/-- So it is for a hook with its retries. -/
theorem briefAnswer_runHookWithRetry (hbrief : ∀ run call fs, (hooks run call fs).1.Brief)
    (hcommand : command.length ≤ outsideLimit) (retries seconds : Nat) (h : Host) :
    BriefAnswer (answer (runHookWithRetry hooks c command parameters retries seconds) h) := by
  have hone : ∀ h, BriefAnswer (answer (runHook hooks c command parameters) h) :=
    briefAnswer_runHook hbrief hcommand
  unfold answer at hone ⊢
  unfold runHookWithRetry retry
  generalize 0 = attempt
  induction attempt, h using retryFrom.induct (runHook hooks c command parameters)
      (Host.pause seconds) retries with
  | case1 attempt h out h1 hr =>
    have hbriefly := hone h
    rw [hr] at hbriefly
    rwa [retryFrom_of_ok hr]
  | case2 attempt h e h1 hr hlt ih => rwa [retryFrom_of_lt hr hlt]
  | case3 attempt h e h1 hr hlt =>
    have hbriefly := hone h
    rw [hr] at hbriefly
    rwa [retryFrom_of_not_lt hr hlt]

end Hooks

/-! ## A record stored -/

section Save

variable {c : ServerConfig} {id : String} {fs fs' : FileSystem}

/-- The record of a backup is these bytes now, and nothing else has changed but that its directory may have
    been made. -/
structure Saved (c : ServerConfig) (id : String) (content : Bytes) (fs fs' : FileSystem) : Prop where
  changes : ChangesBackup c id fs fs'
  record : fs'.entry (recordPath c id) = .ok (.file content)
  directory : fs'.entry (backupDir c id) = .ok .directory

theorem backupDir_ne_empty (h : Path.IsName id) (c : ServerConfig) : backupDir c id ≠ "" := by
  intro he
  have hsegments := segments_join (isPart_of_isName h) c.basebackupsDirectory
  rw [show Path.join c.basebackupsDirectory id = backupDir c id from rfl, he] at hsegments
  exact absurd hsegments.symm (by simp [Path.segments, Text.splitWhen])

theorem saveRecord_apply (c : ServerConfig) (r : Record) (h : Host) :
    saveRecord c r h = match makeDirectories (backupDir c r.id) h.files with
      | .error e fs => .error (.file .createDirectory (backupDir c r.id) e) { h with files := fs }
      | .ok () fs => match writeFile (recordPath c r.id) r.encode fs with
        | .error e fs => .error (.file .createFile (recordPath c r.id) e) { h with files := fs }
        | .ok () fs => .ok () { h with files := fs } := by
  unfold saveRecord
  simp only [bind_apply, Host.onFiles_apply]
  cases makeDirectories (backupDir c r.id) h.files with
  | error e fs => rfl
  | ok u fs =>
    dsimp only
    cases writeFile (recordPath c r.id) r.encode fs <;> rfl

/-- **A record is stored, or nothing is but directories made.** -/
theorem saveRecord_cases (r : Record) (hid : Path.IsName r.id) (h : Host) :
    (∃ e fs, saveRecord c r h = .error e { h with files := fs } ∧
      Grown (· ∈ h.files.trail (dataDir c r.id)) h.files fs) ∨
    ∃ fs, saveRecord c r h = .ok () { h with files := fs } ∧ Saved c r.id r.encode h.files fs := by
  rw [saveRecord_apply]
  have hgrown : Grown (· ∈ h.files.trail (dataDir c r.id)) h.files
      (after (makeDirectories (backupDir c r.id)) h.files) :=
    (makeDirectories_grown (backupDir c r.id) h.files).mono fun k hk => by
      rw [trail_dataDir]
      exact List.mem_append_left _ hk
  unfold after at hgrown
  cases hm : makeDirectories (backupDir c r.id) h.files with
  | error e fs =>
    rw [hm] at hgrown
    exact .inl ⟨_, fs, rfl, hgrown⟩
  | ok u fs =>
    rw [hm] at hgrown
    dsimp only
    cases hw : writeFile (recordPath c r.id) r.encode fs with
    | error e fs' =>
      rcases writeFile_cases (recordPath c r.id) r.encode fs with ⟨e', h'⟩ | ⟨h', -, -⟩
      · rw [h'] at hw
        cases hw
        exact .inl ⟨_, fs, rfl, hgrown⟩
      · rw [h'] at hw
        cases hw
    | ok u fs' =>
      have hentry := entry_of_writeFile hw
      have hchange := writeFile_changesOnly (recordPath c r.id) r.encode fs
      rw [after_of_ok hw, place_recordPath hid, recordLocation_congr hgrown.workDir] at hchange
      have hrecord : ∀ k, k = recordLocation c h.files r.id → AtOrBelow (h.files.place (backupDir c r.id)) k := by
        rintro _ rfl
        rw [place_backupDir hid]
        exact .cons recordName _
      have hw : fs.workDir = h.files.workDir := hgrown.workDir
      rw [← place_congr hw] at hrecord
      refine .inr ⟨fs', rfl, (isReach_changesBackup c r.id).trans (changesBackup_of_grown hid hgrown)
        (changesBackup_of_changesOnly hchange hrecord), hentry, ?_⟩
      exact entry_of_join isName_recordName (backupDir_ne_empty hid c) hentry

/-- **Where a record is stored, another one can be stored in its place.** -/
theorem saveRecord_again (r : Record) (hid : Path.IsName r.id) {h : Host} {old : Bytes}
    (hrecord : h.files.entry (recordPath c r.id) = .ok (.file old))
    (hdirectory : h.files.entry (backupDir c r.id) = .ok .directory) :
    ∃ fs, saveRecord c r h = .ok () { h with files := fs } ∧ Saved c r.id r.encode h.files fs := by
  rcases saveRecord_cases r hid h with ⟨e, fs, he, -⟩ | hsaved
  · rw [saveRecord_apply, makeDirectories_of_directory hdirectory] at he
    dsimp only at he
    rw [writeFile_of_file hrecord] at he
    cases he
  · exact hsaved

theorem trail_backupDir_subset (c : ServerConfig) (fs : FileSystem) (id : String) :
    fs.trail (backupDir c id) ⊆ fs.trail (recordPath c id) := by
  unfold recordPath
  rw [trail_join isName_recordName]
  exact List.subset_append_left _ _

/-- What is changed in the copy that a backup consists of is not on the path of its record. -/
theorem not_below_dataDir (hclear : ClearBase c fs) (hid : Path.IsName id) {k : Location}
    (hk : k ∈ fs.trail (recordPath c id)) : ¬AtOrBelow (fs.place (dataDir c id)) k := by
  have hdata : Path.IsName "data" := by decide
  unfold dataDir
  rw [place_join hdata, place_backupDir hid]
  intro hb
  have hlength := hb.length_le
  rw [trail_recordPath hid] at hk
  rcases List.mem_append.1 hk with hk | hk
  · have hbase := hclear k hk (((AtOrBelow.cons id _).trans (AtOrBelow.cons "data" _)).trans hb)
    rw [hbase] at hlength
    simp only [List.length_cons] at hlength
    omega
  · rcases List.mem_cons.1 hk with rfl | hk
    · exact absurd hlength (by simp)
    · obtain rfl := List.mem_singleton.1 hk
      rcases atOrBelow_cons_iff.1 hb with he | hb
      · exact absurd (List.cons.inj he).1 (by decide)
      · exact absurd hb.length_le (by simp)

end Save

/-! ## Records that are settled -/

/-- The record of a backup that has ended, in the directory of its id. -/
structure Settled (c : ServerConfig) (name : String) (r : Record) : Prop where
  id : r.id = name
  server : r.server = c.name
  begun : name = String.ofList r.beginTime.compact
  ended : r.endTime ≠ none
  outcome : (r.status = .done ∧ r.error = none) ∨
    (r.status = .failed ∧ r.error ≠ none ∧ r.beginWal = none ∧ r.endWal = none ∧ r.tablespaces = [])

/-- The directories of the fleet are apart, no path to base backups leads through a backup, and every
    record is settled. -/
structure CatalogSettled (f : Fleet) (fs : FileSystem) : Prop where
  apart : f.StoresApart fs
  clear : ∀ c ∈ f.servers, ClearBase c fs
  settled : ∀ c ∈ f.servers, ∀ id content,
    fs.tree.get? (recordLocation c fs id) = some (.file content) →
      ∃ r, Record.decode content = .ok r ∧ Settled c id r

theorem clearBase_congr {c : ServerConfig} {fs fs' : FileSystem} (hw : fs'.workDir = fs.workDir)
    (h : ClearBase c fs) : ClearBase c fs' := by
  unfold ClearBase
  rw [trail_congr hw, place_congr hw]
  exact h

/-- What makes no record keeps all records settled. -/
theorem CatalogSettled.of_noNewRecord {f : Fleet} {fs fs' : FileSystem} (hs : CatalogSettled f fs)
    (h : NoNewRecord f fs fs') : CatalogSettled f fs' where
  apart := hs.apart.congr h.workDir
  clear := fun c hc => clearBase_congr h.workDir (hs.clear c hc)
  settled := by
    intro c hc id content hk
    rw [recordLocation_congr h.workDir] at hk
    exact hs.settled c hc id content (h.records hs.apart c hc id content hk)

/-- **Where only the directory of one backup has changed, and its record is settled, all are.** -/
theorem CatalogSettled.of_stored {f : Fleet} {fs fs' : FileSystem} (hs : CatalogSettled f fs)
    {c : ServerConfig} (hc : c ∈ f.servers) {id : String} (hid : Path.IsName id)
    (hchange : ChangesBackup c id fs fs') {r : Record}
    (hrecord : fs'.entry (recordPath c id) = .ok (.file r.encode)) (hsettled : Settled c id r)
    (hfits : r.Fits) : CatalogSettled f fs' where
  apart := hs.apart.congr hchange.workDir
  clear := fun d hd => clearBase_congr hchange.workDir (hs.clear d hd)
  settled := by
    intro d hd other content hk
    rw [recordLocation_congr hchange.workDir] at hk
    by_cases hb : AtOrBelow (fs.place (backupDir c id)) (recordLocation d fs other)
    · obtain ⟨rfl, rfl⟩ := eq_of_below_backupDir hs.apart hc hd hid hb
      obtain ⟨-, -, hstored⟩ := entry_eq_ok_iff.1 hrecord
      rw [place_recordPath hid, recordLocation_congr hchange.workDir, hk] at hstored
      obtain rfl := Entry.file.inj (Option.some.inj hstored)
      exact ⟨r, Record.decode_encode hfits, hsettled⟩
    · exact hs.settled d hd other content ((hchange.get?_file_iff hb).1 hk)

/-- **An id is the name of a directory.** -/
theorem isName_compact (m : Time.Moment) : Path.IsName (String.ofList m.compact) := by
  have hne : ∀ s : String, 'T' ∉ s.toList → String.ofList m.compact ≠ s := by
    rintro _ hs rfl
    rw [String.toList_ofList] at hs
    exact hs m.mark_mem_compact
  have hsize := Text.utf8ByteSize_ofList_le m.compact
  have hlength := m.length_compact_le
  refine ⟨hne "" (by decide), hne "." (by decide), hne ".." (by decide), ?_, ?_, ?_⟩
  · rw [String.toList_ofList]
    exact m.not_mem_compact (by decide) (by decide)
  · rw [String.toList_ofList]
    exact m.not_mem_compact (by decide) (by decide)
  · unfold Path.maxNameBytes
    omega

/-- An id can be looked up. -/
theorem isPlainName_compact (m : Time.Moment) : isPlainName (String.ofList m.compact) = true := by
  unfold isPlainName
  rw [String.toList_ofList]
  split
  · rename_i hnil
    have hmark := m.mark_mem_compact
    rw [hnil] at hmark
    cases hmark
  · rename_i r hpoint
    refine absurd ?_ (m.not_mem_compact (c := '.') (by decide) (by decide))
    rw [hpoint]
    exact List.mem_cons_self
  · have hslash := m.not_mem_compact (c := '/') (by decide) (by decide)
    have hbackslash := m.not_mem_compact (c := '\\') (by decide) (by decide)
    simp [hslash, hbackslash]

/-! ## The service -/

/-- The record of a backup that has begun. -/
def startedRecord (c : ServerConfig) (beginTime : Time.Moment) : Record :=
  { Record.new c.name (String.ofList beginTime.compact) beginTime with status := .started }

theorem fits_startedRecord {c : ServerConfig} (hc : c.Brief) (beginTime : Time.Moment) :
    (startedRecord c beginTime).Fits where
  id := by
    have hlength := beginTime.length_compact_le
    refine storable_of_length_le ?_
    show (String.ofList beginTime.compact).toList.length ≤ textLimit
    rw [String.toList_ofList]
    unfold textLimit
    omega
  server := by
    have hlength := hc.name
    refine storable_of_length_le ?_
    show c.name.toList.length ≤ textLimit
    rw [String.length_toList]
    unfold outsideLimit at hlength
    unfold textLimit
    omega
  beginWal := fun s hs => by cases hs
  endWal := fun s hs => by cases hs
  count := by
    show 0 < 256 ^ 8
    decide
  tablespaces := fun t ht => by cases ht
  error := fun s hs => by cases hs

/-- The record of a backup that has ended so. -/
def endedRecord (started : Record) (outcome : Except Fault (List Char)) (endTime : Time.Moment) : Record :=
  { finish started outcome with endTime := some endTime }

/-- **The record of a backup that has ended is settled, and it can be stored.** -/
theorem settled_endedRecord {c : ServerConfig} (hc : c.Brief) (beginTime endTime : Time.Moment)
    {outcome : Except Fault (List Char)} (h : BriefAnswer outcome) :
    Settled c (startedRecord c beginTime).id (endedRecord (startedRecord c beginTime) outcome endTime) ∧
      (endedRecord (startedRecord c beginTime) outcome endTime).Fits := by
  have hfits := fits_startedRecord hc beginTime
  cases outcome with
  | ok out =>
    have hsame := readHookOutput_keeps out (startedRecord c beginTime)
    have hout := fits_readHookOutput h hfits rfl
    refine ⟨⟨hsame.id, hsame.server, ?_, by simp [endedRecord], .inl ⟨rfl, hsame.error⟩⟩, { hout with }⟩
    show _ = String.ofList (readHookOutput out (startedRecord c beginTime)).beginTime.compact
    rw [hsame.beginTime]
    rfl
  | error e =>
    refine ⟨⟨rfl, rfl, rfl, by simp [endedRecord], .inr ⟨rfl, by simp [endedRecord, finish], rfl, rfl, rfl⟩⟩,
      { hfits with error := fun s hs => ?_ }⟩
    obtain rfl := Option.some.inj hs
    exact storable_of_length_le (by rw [String.length_toList]; exact h)

/-- A record that a backup of the server may start with: it has a name for an id, and however the backup
    ends, it becomes a record that is settled. -/
structure Begins (c : ServerConfig) (started : Record) : Prop where
  id : Path.IsName started.id
  ends : ∀ outcome endTime, BriefAnswer outcome →
    Settled c started.id (endedRecord started outcome endTime) ∧ (endedRecord started outcome endTime).Fits

theorem begins_startedRecord {c : ServerConfig} (hc : c.Brief) (beginTime : Time.Moment) :
    Begins c (startedRecord c beginTime) :=
  ⟨isName_compact beginTime, fun _ endTime h => settled_endedRecord hc beginTime endTime h⟩

/-- What a backup does once its record is stored as started. -/
def endBackup (hooks : HookRunner) (c : ServerConfig) (o : BackupOptions) (command : String)
    (started : Record) : Operation Host Record := do
  let answer ← settle
    (runHookWithRetry hooks c command (backupParameters c started.id o) o.retryTimes o.retrySleep)
  let endTime ← Host.now
  let record := endedRecord started answer endTime
  saveRecord c record
  pure record

/-- What a backup does once its id is known to be new. -/
def makeBackup (hooks : HookRunner) (c : ServerConfig) (o : BackupOptions) (command : String)
    (started : Record) : Operation Host Record := do
  Host.onFiles .createDirectory (dataDir c started.id) (makeDirectories (dataDir c started.id))
  saveRecord c started
  endBackup hooks c o command started

/-- The id of the backup that a machine would begin now. -/
def nextBackupId (h : Host) : String := String.ofList (h.clock h.readings).compact

theorem backup_apply (hooks : HookRunner) (c : ServerConfig) (o : BackupOptions) (h : Host) :
    Storage.backup hooks c o h = match c.backupCommand with
      | none => .error .noBackupCommand h
      | some command =>
        if h.files.exists_ (backupDir c (nextBackupId h)) then
          .error (.backupExists (nextBackupId h)) { h with readings := h.readings + 1 }
        else makeBackup hooks c o command (startedRecord c (h.clock h.readings))
          { h with readings := h.readings + 1 } := by
  unfold Storage.backup nextBackupId
  cases c.backupCommand with
  | none => rfl
  | some command =>
    dsimp only
    rw [bind_apply, Host.now_apply]
    dsimp only
    rw [bind_apply, get_apply]
    dsimp only
    split
    · rfl
    · rfl

section Service

variable {f : Fleet} {hooks : HookRunner} {c : ServerConfig}

/-- The hook of a backup ends in some way, and has changed nothing but the copy. -/
theorem settle_backupHook (hh : hooks.CopiesOnly f) (hc : c ∈ f.servers) {command : String}
    (hcommand : command.length ≤ outsideLimit) (id : String) (o : BackupOptions) (h : Host) :
    ∃ outcome h',
      settle (runHookWithRetry hooks c command (backupParameters c id o) o.retryTimes o.retrySleep) h
        = .ok outcome h' ∧
      BriefAnswer outcome ∧ h.Later h' ∧
      ChangesOnly (fun k => AtOrBelow (h.files.place (dataDir c id)) k) h.files h'.files :=
  ⟨_, _, settle_apply _ h, briefAnswer_runHookWithRetry hh.brief hcommand o.retryTimes o.retrySleep h,
    runHookWithRetry_later o.retryTimes o.retrySleep h,
    runHookWithRetry_changesOnly (fun run fs k => hh.backup c hc run command id o fs k)
      (fun fs fs' hw => by rw [place_congr hw]) o.retryTimes o.retrySleep h⟩

/-- A backup of the server has ended with this record: only its directory has changed, and the record is what
    is stored there. -/
structure BackupEnded (c : ServerConfig) (r : Record) (h h' : Host) : Prop where
  later : h.Later h'
  settled : Settled c r.id r
  fits : r.Fits
  changes : ChangesBackup c r.id h.files h'.files
  record : h'.files.entry (recordPath c r.id) = .ok (.file r.encode)

/-- What has led to the state in which a backup went on is part of what the backup has done. -/
theorem BackupEnded.after {r : Record} {h h1 h' : Host} (hended : BackupEnded c r h1 h')
    (hlater : h.Later h1) (hchange : ChangesBackup c r.id h.files h1.files) : BackupEnded c r h h' where
  later := Host.isReach_later.trans hlater hended.later
  settled := hended.settled
  fits := hended.fits
  changes := (isReach_changesBackup c r.id).trans hchange hended.changes
  record := hended.record

/-- **Once a record is stored as started, it is stored again as settled**, since the hook leaves the path of
    the record alone. -/
theorem endBackup_ended (hh : hooks.CopiesOnly f) (hc : c ∈ f.servers) {command : String}
    (hcommand : command.length ≤ outsideLimit) (o : BackupOptions) {started : Record}
    (hbegins : Begins c started) {h : Host} (hclear : ClearBase c h.files) {old : Bytes}
    (hrecord : h.files.entry (recordPath c started.id) = .ok (.file old))
    (hdirectory : h.files.entry (backupDir c started.id) = .ok .directory) :
    ∃ r h', endBackup hooks c o command started h = .ok r h' ∧ r.id = started.id ∧
      BackupEnded c r h h' := by
  obtain ⟨outcome, h1, hrun, hbrief, hlater, hchange⟩ :=
    settle_backupHook hh hc hcommand started.id o h
  -- What the hook may have changed is not on the path of the record.
  have hleft : ∀ k ∈ h.files.trail (recordPath c started.id),
      h1.files.tree.get? k = h.files.tree.get? k :=
    fun k hk => hchange.entries k (not_below_dataDir hclear hbegins.id hk)
  have hrecord1 : h1.files.entry (recordPath c started.id) = .ok (.file old) :=
    (entry_congr hchange.workDir hleft).trans hrecord
  have hdirectory1 : h1.files.entry (backupDir c started.id) = .ok .directory :=
    (entry_congr hchange.workDir fun k hk => hleft k (trail_backupDir_subset c _ _ hk)).trans hdirectory
  obtain ⟨hsettled, hfits⟩ := hbegins.ends outcome (h1.clock h1.readings) hbrief
  generalize hr : endedRecord started outcome (h1.clock h1.readings) = r at hsettled hfits
  have hid := hbegins.id
  have hsame : r.id = started.id := hsettled.id
  rw [← hsame] at hrecord1 hdirectory1 hid hchange hsettled
  obtain ⟨fs, hsave, hsaved⟩ := saveRecord_again (h := { h1 with readings := h1.readings + 1 }) r hid
    hrecord1 hdirectory1
  have hend : BackupEnded c r { h1 with readings := h1.readings + 1 }
      { h1 with files := fs, readings := h1.readings + 1 } :=
    ⟨⟨rfl, Nat.le_refl _⟩, hsettled, hfits, hsaved.changes, hsaved.record⟩
  refine ⟨r, { h1 with files := fs, readings := h1.readings + 1 }, ?_, hsame, hend.after ?_ ?_⟩
  · unfold endBackup
    rw [bind_apply, hrun]
    dsimp only
    rw [bind_apply, Host.now_apply]
    dsimp only
    rw [hr, bind_apply, hsave]
    rfl
  · exact ⟨hlater.clock, Nat.le_succ_of_le hlater.readings⟩
  · exact changesBackup_of_changesOnly hchange fun k hk => (below_dataDir c h.files r.id).trans hk

/-- **A backup that is begun ends with a record that is settled, or nothing but directories is made.** -/
theorem makeBackup_cases (hh : hooks.CopiesOnly f) (hc : c ∈ f.servers) {command : String}
    (hcommand : command.length ≤ outsideLimit) (o : BackupOptions) {started : Record}
    (hbegins : Begins c started) {h : Host} (hclear : ClearBase c h.files) :
    (∃ e h', makeBackup hooks c o command started h = .error e h' ∧ h.Later h' ∧
      Grown (· ∈ h.files.trail (dataDir c started.id)) h.files h'.files) ∨
    ∃ r h', makeBackup hooks c o command started h = .ok r h' ∧ r.id = started.id ∧
      BackupEnded c r h h' := by
  have hgrown := makeDirectories_grown (dataDir c started.id) h.files
  unfold after at hgrown
  unfold makeBackup
  rw [bind_apply, Host.onFiles_apply]
  cases hm : makeDirectories (dataDir c started.id) h.files with
  | error e fs1 =>
    rw [hm] at hgrown
    exact .inl ⟨_, _, rfl, ⟨rfl, Nat.le_refl _⟩, hgrown⟩
  | ok u fs1 =>
    rw [hm] at hgrown
    dsimp only at hgrown ⊢
    rw [bind_apply]
    rcases saveRecord_cases (c := c) started hbegins.id { h with files := fs1 } with
      ⟨e, fs2, hsave, hsame⟩ | ⟨fs2, hsave, hsaved⟩
    · rw [hsave]
      dsimp only at hsame
      rw [trail_congr hgrown.workDir] at hsame
      exact .inl ⟨_, _, rfl, ⟨rfl, Nat.le_refl _⟩, (isReach_grown _).trans hgrown hsame⟩
    · rw [hsave]
      dsimp only
      have hstored : ChangesBackup c started.id h.files fs2 :=
        (isReach_changesBackup c _).trans (changesBackup_of_grown hbegins.id hgrown) hsaved.changes
      obtain ⟨r, h3, hend, hsame, hended⟩ := endBackup_ended (h := { h with files := fs2 })
        hh hc hcommand o hbegins (clearBase_congr hstored.workDir hclear) hsaved.record hsaved.directory
      rw [hend]
      rw [← hsame] at hstored
      have hlater : h.Later { h with files := fs2 } := ⟨rfl, Nat.le_refl _⟩
      exact .inr ⟨r, h3, rfl, hsame, hended.after hlater hstored⟩

/-- **A backup ends with a record that is settled, under the id of the second in which it began and in a place
    where nothing was, or nothing but directories is made.** -/
theorem backup_cases (hh : hooks.CopiesOnly f) (hc : c ∈ f.servers) (hbrief : c.Brief)
    (o : BackupOptions) {h : Host} (hclear : ClearBase c h.files) :
    (∃ e h', Storage.backup hooks c o h = .error e h' ∧ h.Later h' ∧
      Grown (· ∈ h.files.trail (dataDir c (nextBackupId h))) h.files h'.files) ∨
    ∃ r h', Storage.backup hooks c o h = .ok r h' ∧ r.id = nextBackupId h ∧
      h.files.exists_ (backupDir c r.id) = false ∧ h.readings < h'.readings ∧ BackupEnded c r h h' := by
  rw [backup_apply]
  cases hcommand : c.backupCommand with
  | none => exact .inl ⟨_, _, rfl, Host.isReach_later.refl h, (isReach_grown _).refl _⟩
  | some command =>
    dsimp only
    by_cases hexists : h.files.exists_ (backupDir c (nextBackupId h)) = true
    · rw [if_pos hexists]
      exact .inl ⟨_, _, rfl, ⟨rfl, Nat.le_succ _⟩, (isReach_grown _).refl _⟩
    · rw [if_neg hexists]
      have hread : h.Later { h with readings := h.readings + 1 } := ⟨rfl, Nat.le_succ _⟩
      rcases makeBackup_cases (h := { h with readings := h.readings + 1 }) hh hc
        (hbrief.command command hcommand) o (begins_startedRecord hbrief (h.clock h.readings)) hclear with
        ⟨e, h', hmake, hlater, hgrown⟩ | ⟨r, h', hmake, hid, hended⟩
      · exact .inl ⟨e, h', hmake, Host.isReach_later.trans hread hlater, hgrown⟩
      · refine .inr ⟨r, h', hmake, hid, ?_, hended.later.readings, ?_⟩
        · rw [hid]
          exact Bool.eq_false_iff.2 hexists
        · exact hended.after hread ((isReach_changesBackup c r.id).refl h.files)

/-- **A backup keeps all records settled.** -/
theorem backup_settled (hh : hooks.Contained f) (hc : c ∈ f.servers) (hbrief : c.Brief)
    (o : BackupOptions) :
    Host.FilesWithin (Kept (CatalogSettled f)) (Storage.backup hooks c o) := by
  intro h hs
  rcases backup_cases hh.copiesOnly hc hbrief o (hs.clear c hc) with
    ⟨e, h', hbackup, -, hgrown⟩ | ⟨r, h', hbackup, hid, -, -, hended⟩
  · rw [after_of_error hbackup]
    exact hs.of_noNewRecord (noNewRecord_of_grownOutside (hgrown.outside fun _ => False) fun _ _ _ _ => id)
  · rw [after_of_ok hbackup]
    have hname : Path.IsName r.id := by
      rw [hid]
      exact isName_compact _
    exact hs.of_stored hc hname hended.changes hended.record hended.settled hended.fits

/-- **A recovery leaves the records alone.** -/
theorem recover_noNewRecord (hh : hooks.Contained f) (hc : c ∈ f.servers) (r : Record)
    (q : RecoveryRequest) : Host.FilesWithin (NoNewRecord f) (Storage.recover hooks c r q) := by
  intro h
  unfold after Storage.recover
  cases hcommand : c.recoveryCommand with
  | none => exact (isReach_noNewRecord f).refl _
  | some command =>
    have hchange := runHookWithRetry_changesOnly
      (S := fun fs k => ¬∃ p ∈ f.storagePaths, AtOrBelow (fs.place p) k ∧ k ≠ fs.place p)
      (fun run fs k hk => by
        obtain ⟨p, hp, hb, hne⟩ := Classical.not_not.1 hk
        exact hh.recovery c hc run command r q fs p hp k hb hne)
      (fun fs fs' hw => by simp only [place_congr hw]) q.retryTimes q.retrySleep h
    have hleft := noNewRecord_of_grownOutside (f := f) (hchange.outside fun _ => False)
      fun _ d hd id hk => hk ⟨_, mem_storagePaths_base hd, below_recordLocation d h.files id,
        recordLocation_ne_base d h.files id⟩
    unfold after at hleft
    dsimp only
    rw [bind_apply]
    cases hrun : runHookWithRetry hooks c command (recoveryParameters c r q) q.retryTimes q.retrySleep h with
    | ok out h1 =>
      rw [hrun] at hleft
      exact hleft
    | error e h1 =>
      rw [hrun] at hleft
      exact hleft

end Service

end Storage

end BackupFleet
