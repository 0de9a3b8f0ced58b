import BackupFleet.Proofs.Storage.Catalog
import BackupFleet.Proofs.Storage.Rebuilding

/-!
# `BackupFleet.Proofs.Storage.Records` — where records are, and what leaves them alone

A record is a file at a location that belongs to one server and one backup. As long as the directories of
a fleet are apart, no location is a record for two servers, and none is in an archive. Making directories
never makes or changes a file. So all services but the one that makes backups leave every record as it is,
or take it away.

## Contents

* `recordLocation`, `eq_of_below_backupDir`, `not_record_of_inArchive` — locations of records;
* `ChangesBackup` — changes in the directory of one backup;
* `NoNewRecord`, `noNewRecord_of_grownOutside` — changes of records;
* `cron_noNewRecord`, `rebuildWalCatalog_noNewRecord`, `deleteBackup_noNewRecord`,
  `acquire_noNewRecord` — services.
-/

namespace BackupFleet.Storage

open FileTree FileSystem Effect

/-! ## Locations -/

/-- Where the record of a backup is. -/
def recordLocation (c : ServerConfig) (fs : FileSystem) (id : String) : Location :=
  recordName :: id :: fs.place c.basebackupsDirectory

theorem place_backupDir {id : String} (h : Path.IsName id) (c : ServerConfig) (fs : FileSystem) :
    fs.place (backupDir c id) = id :: fs.place c.basebackupsDirectory := place_join h fs _

theorem place_recordPath {id : String} (h : Path.IsName id) (c : ServerConfig) (fs : FileSystem) :
    fs.place (recordPath c id) = recordLocation c fs id := by
  unfold recordPath recordLocation
  rw [place_join isName_recordName, place_backupDir h]

theorem recordLocation_congr {fs fs' : FileSystem} (h : fs'.workDir = fs.workDir) (c : ServerConfig)
    (id : String) : recordLocation c fs' id = recordLocation c fs id := by
  unfold recordLocation
  rw [place_congr h]

section Apart

variable {f : Fleet} {fs : FileSystem} {c d : ServerConfig}

/-- What is below the directories of base backups of two servers is not the same. -/
theorem eq_of_below (ha : f.StoresApart fs) (hc : c ∈ f.servers) (hd : d ∈ f.servers) {k : Location}
    (hkc : AtOrBelow (fs.place c.basebackupsDirectory) k)
    (hkd : AtOrBelow (fs.place d.basebackupsDirectory) k) : c = d := by
  by_cases hcd : c = d
  · exact hcd
  · have hapart := ha.apart (mem_storagePaths_base hc) (mem_storagePaths_base hd)
      (ha.ne_of_ne hc hd hcd c.base_mem d.base_mem)
    rcases hkc.total hkd with h | h
    · exact absurd h hapart.1
    · exact absurd h hapart.2

theorem below_recordLocation (c : ServerConfig) (fs : FileSystem) (id : String) :
    AtOrBelow (fs.place c.basebackupsDirectory) (recordLocation c fs id) :=
  (AtOrBelow.cons id _).trans (AtOrBelow.cons recordName _)

theorem recordLocation_ne_base (c : ServerConfig) (fs : FileSystem) (id : String) :
    recordLocation c fs id ≠ fs.place c.basebackupsDirectory := by
  intro he
  have hlength := congrArg List.length he
  unfold recordLocation at hlength
  simp only [List.length_cons] at hlength
  omega

/-- What is in the directory of a backup is the record of no other one. -/
theorem eq_of_below_backupDir (ha : f.StoresApart fs) (hc : c ∈ f.servers) (hd : d ∈ f.servers)
    {id other : String} (hid : Path.IsName id)
    (h : AtOrBelow (fs.place (backupDir c id)) (recordLocation d fs other)) : c = d ∧ id = other := by
  rw [place_backupDir hid] at h
  obtain rfl := eq_of_below ha hc hd ((AtOrBelow.cons id _).trans h) (below_recordLocation d fs other)
  refine ⟨rfl, ?_⟩
  rcases atOrBelow_cons_iff.1 h with he | h
  · exact absurd (congrArg List.length he) (by simp)
  · rcases atOrBelow_cons_iff.1 h with he | h
    · exact (List.cons.inj he).1
    · exact absurd h.length_le (by simp)

/-- No record is in an archive. -/
theorem not_record_of_inArchive (ha : f.StoresApart fs) (hc : c ∈ f.servers) (hd : d ∈ f.servers)
    {k : Location} (hk : InArchive c fs k) (id : String) : k ≠ recordLocation d fs id := by
  have hapart : ∀ q ∈ c.storagePaths, q ≠ d.basebackupsDirectory →
      ∀ n, n :: fs.place q ≠ recordLocation d fs id := by
    intro q hq hne n he
    refine (ha.apart (Fleet.mem_storagePaths hc hq) (mem_storagePaths_base hd) hne).2 ?_
    rw [(List.cons.inj he).2]
    exact AtOrBelow.cons id _
  obtain ⟨n, rfl | rfl⟩ := hk
  · refine hapart _ c.wals_mem (ha.ne_of_own_ne hc hd c.wals_mem d.base_mem ?_) n
    rintro rfl
    exact (ha.base_ne_wals hc).symm
  · refine hapart _ c.incoming_mem (ha.ne_of_own_ne hc hd c.incoming_mem d.base_mem ?_) n
    rintro rfl
    exact (ha.base_ne_incoming hc).symm

end Apart

/-! ## Changes in the directory of one backup -/

/-- Nothing has changed but what is in the directory of one backup; directories on the path to the base
    backups may have been made. -/
def ChangesBackup (c : ServerConfig) (id : String) (fs fs' : FileSystem) : Prop :=
  GrownOutside (AtOrBelow (fs.place (backupDir c id)) ·) (· ∈ fs.trail c.basebackupsDirectory) fs fs'

section Changes

variable {c : ServerConfig} {id : String} {fs fs' : FileSystem}

theorem isReach_changesBackup (c : ServerConfig) (id : String) : IsReach (ChangesBackup c id) where
  refl := fun fs => ((isReach_changesOnly _).refl fs).outside _
  trans := by
    intro fs fs' fs'' h h'
    unfold ChangesBackup at h'
    rw [place_congr h.workDir, trail_congr h.workDir] at h'
    exact GrownOutside.trans h h'

theorem changesBackup_of_changesOnly {S : Location → Prop} (h : ChangesOnly S fs fs')
    (hS : ∀ k, S k → AtOrBelow (fs.place (backupDir c id)) k) : ChangesBackup c id fs fs' :=
  (h.mono hS).outside _

theorem trail_backupDir (hid : Path.IsName id) (c : ServerConfig) (fs : FileSystem) :
    fs.trail (backupDir c id) = fs.trail c.basebackupsDirectory ++ [fs.place (backupDir c id)] := by
  rw [place_backupDir hid]
  exact trail_join hid fs _

theorem place_dataDir (c : ServerConfig) (fs : FileSystem) (id : String) :
    fs.place (dataDir c id) = "data" :: fs.place (backupDir c id) :=
  place_join (show Path.IsName "data" by decide) fs _

theorem trail_dataDir (c : ServerConfig) (fs : FileSystem) (id : String) :
    fs.trail (dataDir c id) = fs.trail (backupDir c id) ++ [fs.place (dataDir c id)] := by
  rw [place_dataDir]
  exact trail_join (show Path.IsName "data" by decide) fs _

theorem below_dataDir (c : ServerConfig) (fs : FileSystem) (id : String) :
    AtOrBelow (fs.place (backupDir c id)) (fs.place (dataDir c id)) := by
  rw [place_dataDir]
  exact .cons "data" _

/-- Directories that are made for a backup are above its own, or in it. -/
theorem changesBackup_of_grown (hid : Path.IsName id) (h : Grown (· ∈ fs.trail (dataDir c id)) fs fs') :
    ChangesBackup c id fs fs' := by
  refine (h.outside fun _ => False).mono (fun _ => False.elim) fun k hk => ?_
  rw [trail_dataDir, trail_backupDir hid, List.append_assoc] at hk
  rcases List.mem_append.1 hk with hk | hk
  · exact .inl hk
  · rcases List.mem_cons.1 hk with rfl | hk
    · exact .inr (.refl _)
    · obtain rfl := List.mem_singleton.1 hk
      exact .inr (below_dataDir c fs id)

end Changes

/-! ## Changes of records -/

/-- No record has come or changed; some may be gone. -/
structure NoNewRecord (f : Fleet) (fs fs' : FileSystem) : Prop where
  workDir : fs'.workDir = fs.workDir
  records : f.StoresApart fs → ∀ c ∈ f.servers, ∀ id content,
    fs'.tree.get? (recordLocation c fs id) = some (.file content) →
      fs.tree.get? (recordLocation c fs id) = some (.file content)

theorem isReach_noNewRecord (f : Fleet) : IsReach (NoNewRecord f) where
  refl := fun _ => ⟨rfl, fun _ _ _ _ _ h => h⟩
  trans := by
    intro a b d h h'
    refine ⟨h'.workDir.trans h.workDir, fun ha c hc id content hk => ?_⟩
    rw [← recordLocation_congr h.workDir] at hk
    have hb := h'.records (ha.congr h.workDir) c hc id content hk
    rw [recordLocation_congr h.workDir] at hb
    exact h.records ha c hc id content hb

theorem noNewRecord_of_grownOutside {f : Fleet} {S T : Location → Prop} {fs fs' : FileSystem}
    (h : GrownOutside S T fs fs')
    (hS : f.StoresApart fs → ∀ c ∈ f.servers, ∀ id, ¬S (recordLocation c fs id)) :
    NoNewRecord f fs fs' :=
  ⟨h.workDir, fun ha c hc id _ => (h.get?_file_iff (hS ha c hc id)).1⟩

/-! ## Services -/

section Services

variable {f : Fleet} {c : ServerConfig}

theorem makeDirectories_noNewRecord (p : String) : Within (NoNewRecord f) (makeDirectories p) :=
  fun fs => noNewRecord_of_grownOutside ((makeDirectories_grown p fs).outside fun _ => False)
    fun _ _ _ _ => id

theorem noNewRecord_of_inArchive (hc : c ∈ f.servers) {fs fs' : FileSystem}
    (h : ChangesOnly (InArchive c fs) fs fs') : NoNewRecord f fs fs' :=
  noNewRecord_of_grownOutside (h.outside fun _ => False) fun ha _ hd id hk =>
    not_record_of_inArchive ha hc hd hk id rfl

/-- **Archiving leaves the records alone.** -/
theorem cron_noNewRecord (hc : c ∈ f.servers) : Host.FilesWithin (NoNewRecord f) (cron c) :=
  cron_within (isReach_noNewRecord f) (fun p _ => makeDirectories_noNewRecord p)
    fun _ _ hlist => noNewRecord_of_inArchive hc (archivePending_changesOnly hlist)

/-- **A rebuild leaves the records alone.** -/
theorem rebuildWalCatalog_noNewRecord (hc : c ∈ f.servers) :
    Host.FilesWithin (NoNewRecord f) (rebuildWalCatalog c) := by
  rw [rebuildWalCatalog_eq]
  refine Within.bind (Host.isReach_files (isReach_noNewRecord f))
    (Host.FilesWithin.onFiles (makeDirectories_noNewRecord _)) fun _ _ h _ => ?_
  exact noNewRecord_of_inArchive hc (rewriteCatalog_changesOnly c h)

/-- **A deletion makes and changes no record.** -/
theorem deleteBackup_noNewRecord (r : Catalog.Record) :
    Host.FilesWithin (NoNewRecord f) (deleteBackup c r) := by
  refine .onFiles fun fs => ?_
  obtain ⟨hw, hshrinks⟩ := removeAll_shrinks (backupDir c r.id) fs
  refine ⟨hw, fun _ d _ id content hk => ?_⟩
  rcases hshrinks (recordLocation d fs id) with h | h
  · rwa [h] at hk
  · rw [h] at hk
    cases hk

/-- **The lock file is no record.** -/
theorem acquire_noNewRecord : Host.FilesWithin (NoNewRecord f) (Lock.acquire f.lockDirectory) := by
  intro h
  obtain ⟨fs, hgrown, hchange⟩ := Lock.acquire_steps f.lockDirectory h
  refine noNewRecord_of_grownOutside ((hgrown.outside _).trans (hchange.outside _)) fun _ c _ id hk => ?_
  have hname : Path.IsName ".cron.lock" := by decide
  have hplace := place_join hname h.files f.lockDirectory
  rw [show Lock.lockPath f.lockDirectory = Path.join f.lockDirectory ".cron.lock" from rfl, hplace] at hk
  exact absurd (List.cons.inj hk).1 (by decide)

end Services

end BackupFleet.Storage
