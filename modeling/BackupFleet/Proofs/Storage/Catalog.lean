import BackupFleet.Proofs.FileSystem.Plain
import BackupFleet.Storage.Services

/-!
# `BackupFleet.Proofs.Storage.Catalog` — what a look-up of a backup depends on

A backup is looked up by the name of its directory, and the answer depends on the entries on the trail of
its record file alone. For names below a directory of base backups these trails are told apart by the
names, as long as the path of that directory does not lead through one of the backups (`ClearBase`).

## Contents

* `HasBackup`, `getBackup_congr`, `getBackup_eq_none_iff` — look-ups;
* `listBackups_of_directory`, `listBackups_of_file`, `listBackups_of_missing` — listings;
* `ClearBase`, `not_below_of_mem_trail` — the trails of two backups.
-/

namespace BackupFleet.Storage

open Catalog FileTree

/-! ## Look-ups -/

/-- A plain name is not empty, does not start with a point and has no slash. -/
theorem of_isPlainName {id : String} (h : isPlainName id = true) :
    id ≠ "" ∧ id.toList.head? ≠ some '.' ∧ '/' ∉ id.toList := by
  unfold isPlainName at h
  split at h
  · cases h
  · cases h
  · rename_i hnil hpoint
    refine ⟨fun he => hnil (String.toList_eq_nil_iff.2 he), fun hh => ?_, ?_⟩
    · obtain ⟨r, hr⟩ := List.head?_eq_some_iff.1 hh
      exact hpoint r hr
    · simp only [Bool.and_eq_true, Bool.not_eq_true', List.contains_eq_mem, decide_eq_false_iff_not] at h
      exact h.1

/-- A look-up finds a record file for this name. -/
def HasBackup (c : ServerConfig) (id : String) (fs : FileSystem) : Prop :=
  isPlainName id = true ∧ fs.isFile (recordPath c id) = true

theorem getBackup_of_hasBackup {c : ServerConfig} {id : String} {fs : FileSystem}
    (h : HasBackup c id fs) :
    getBackup c id fs = (loadRecord fs (recordPath c id)).map some := by
  unfold getBackup
  rw [h.1, h.2]
  rfl

theorem getBackup_of_not {c : ServerConfig} {id : String} {fs : FileSystem}
    (h : ¬HasBackup c id fs) : getBackup c id fs = .ok none := by
  unfold getBackup
  rw [if_neg]
  simpa [HasBackup] using h

/-- A look-up finds nothing iff there is no record file; a file that cannot be read is a fault. -/
theorem getBackup_eq_none_iff {c : ServerConfig} {id : String} {fs : FileSystem} :
    getBackup c id fs = .ok none ↔ ¬HasBackup c id fs := by
  refine ⟨fun h hb => ?_, getBackup_of_not⟩
  rw [getBackup_of_hasBackup hb] at h
  cases hl : loadRecord fs (recordPath c id) <;> rw [hl] at h <;> cases h

theorem hasBackup_of_getBackup {c : ServerConfig} {id : String} {fs : FileSystem} {r : Record}
    (h : getBackup c id fs = .ok (some r)) : HasBackup c id fs := by
  by_cases hb : HasBackup c id fs
  · exact hb
  · rw [getBackup_of_not hb] at h
    cases h

/-- A look-up depends on nothing but the end of the path of the record. -/
theorem getBackup_congr {c : ServerConfig} {id : String} {fs fs' : FileSystem}
    (h : fs'.entry (recordPath c id) = fs.entry (recordPath c id)) :
    getBackup c id fs' = getBackup c id fs := by
  unfold getBackup loadRecord FileSystem.isFile FileSystem.readFile
  rw [h]

/-! ## Listings -/

/-- The records below the names in the directory of base backups are loaded, and sorted by their ids. -/
theorem listBackups_of_directory {c : ServerConfig} {fs : FileSystem}
    (h : fs.entry c.basebackupsDirectory = .ok .directory) :
    listBackups c fs = (loadRecords fs (recordPaths fs c
      (fs.tree.childNames (fs.place c.basebackupsDirectory)))).map (sortOn Record.id) := by
  have hexists : fs.exists_ c.basebackupsDirectory = true := FileSystem.exists_iff.2 ⟨_, h⟩
  unfold listBackups
  simp only [hexists, if_true, FileSystem.listDirectory_eq_ok_iff.2 ⟨h, rfl⟩, attemptTo, bind, Except.bind]
  cases loadRecords fs (recordPaths fs c (fs.tree.childNames (fs.place c.basebackupsDirectory))) <;> rfl

/-- A file is no directory of base backups. -/
theorem listBackups_of_file {c : ServerConfig} {fs : FileSystem} {content : Bytes}
    (h : fs.entry c.basebackupsDirectory = .ok (.file content)) :
    listBackups c fs = .error (.file .readDirectory c.basebackupsDirectory .notDirectory) := by
  have hexists : fs.exists_ c.basebackupsDirectory = true := FileSystem.exists_iff.2 ⟨_, h⟩
  unfold listBackups
  simp only [hexists, if_true, FileSystem.listDirectory_of_file h]
  rfl

/-- Without a directory of base backups there is no backup. -/
theorem listBackups_of_missing {c : ServerConfig} {fs : FileSystem}
    (h : fs.exists_ c.basebackupsDirectory = false) : listBackups c fs = .ok [] := by
  unfold listBackups
  simp only [h]
  rfl

/-! ## The trails of two backups -/

theorem isName_recordName : Path.IsName recordName := by decide

/-- The trail of a record: that of the directory of base backups, the backup's directory, the file. -/
theorem trail_recordPath {id : String} (h : Path.IsName id) (c : ServerConfig) (fs : FileSystem) :
    fs.trail (recordPath c id) = fs.trail c.basebackupsDirectory ++
      [id :: fs.place c.basebackupsDirectory,
        recordName :: id :: fs.place c.basebackupsDirectory] := by
  unfold recordPath backupDir
  rw [FileSystem.trail_join isName_recordName, FileSystem.trail_join h, FileSystem.place_join h,
    List.append_assoc]
  rfl

/-- The path of the directory of base backups does not lead through anything in it. -/
def ClearBase (c : ServerConfig) (fs : FileSystem) : Prop :=
  ∀ k ∈ fs.trail c.basebackupsDirectory, AtOrBelow (fs.place c.basebackupsDirectory) k →
    k = fs.place c.basebackupsDirectory

instance (c : ServerConfig) (fs : FileSystem) : Decidable (ClearBase c fs) :=
  inferInstanceAs (Decidable (∀ k ∈ _, _ → _))

/-- **The trail of one backup's record does not meet the directory of another backup.** -/
theorem not_below_of_mem_trail {c : ServerConfig} {fs : FileSystem} {id other : String}
    (hclear : ClearBase c fs) (hid : Path.IsName id) (hother : Path.IsName other) (hne : other ≠ id)
    {k : Location} (hk : k ∈ fs.trail (recordPath c other)) :
    ¬AtOrBelow (fs.place (backupDir c id)) k := by
  unfold backupDir
  rw [FileSystem.place_join hid]
  rw [trail_recordPath hother] at hk
  intro hb
  have hlen : (fs.place c.basebackupsDirectory).length + 1 ≤ k.length := hb.length_le
  -- Two names in one directory are at the same depth, so neither is below the other.
  have hself : ¬AtOrBelow (id :: fs.place c.basebackupsDirectory)
      (other :: fs.place c.basebackupsDirectory) := by
    intro h
    rcases atOrBelow_cons_iff.1 h with he | h
    · exact hne (List.cons.inj he).1.symm
    · exact absurd h.length_le (by simp)
  rcases List.mem_append.1 hk with hk | hk
  · have := hclear k hk ((AtOrBelow.cons id _).trans hb)
    rw [this] at hlen
    omega
  · rcases List.mem_cons.1 hk with rfl | hk
    · exact hself hb
    · obtain rfl := List.mem_singleton.1 hk
      rcases atOrBelow_cons_iff.1 hb with he | hb
      · have := congrArg List.length he
        simp at this
      · exact hself hb

/-- **A name for which a look-up finds a file is the name of an entry.** -/
theorem isName_of_hasBackup {c : ServerConfig} {id : String} {fs : FileSystem}
    (h : HasBackup c id fs) : Path.IsName id := by
  obtain ⟨content, he⟩ := FileSystem.isFile_iff.1 h.2
  obtain ⟨⟨hp, hbytes⟩, -, -⟩ := FileSystem.entry_eq_ok_iff.1 he
  obtain ⟨hne, hpoint, hslash⟩ := of_isPlainName h.1
  have hmem : id ∈ Path.segments (recordPath c id) := by
    unfold recordPath backupDir
    rw [FileSystem.segments_join (FileSystem.isPart_of_isName isName_recordName),
      FileSystem.segments_join ⟨hne, hslash⟩]
    simp
  have hnul : '\x00' ∉ id.toList := by
    intro hn
    have := (FileSystem.of_mem_segments hmem).2.2 _ hn
    unfold FileSystem.pathError at hp
    rw [if_pos (by simpa using this)] at hp
    cases hp
  refine ⟨hne, ?_, ?_, hslash, hnul, hbytes id hmem⟩
  · rintro rfl
    exact hpoint rfl
  · rintro rfl
    exact hpoint rfl

end BackupFleet.Storage
