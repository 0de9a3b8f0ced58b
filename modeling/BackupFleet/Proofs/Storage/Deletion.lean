import BackupFleet.Proofs.Storage.Catalog

/-!
# `BackupFleet.Proofs.Storage.Deletion` — what removing a directory does to the backups

Deleting a backup removes the directory that its record names. A record can name anything, so this need
not be the directory in which the record was found, nor anything below the base backups at all. This
module says exactly when the removal of some path takes one backup and nothing else.

## Contents

* `DeletedAlone` — one backup is gone and the rest is as it was;
* `TakesOnly` — a path takes what it has to for that;
* `deletedAlone_iff_takesOnly` — one iff the other.
-/

namespace BackupFleet.Storage

open FileTree

/-- One backup is gone: a look-up finds it no more, a look-up of any other name answers what it did
    before, and every file outside its directory is what it was. -/
structure DeletedAlone (c : ServerConfig) (id : String) (fs fs' : FileSystem) : Prop where
  gone : getBackup c id fs' = .ok none
  others : ∀ j, j ≠ id → getBackup c j fs' = getBackup c j fs
  outside : ∀ l content, ¬AtOrBelow (fs.place (backupDir c id)) l →
    fs.tree.get? l = some (.file content) → fs'.tree.get? l = some (.file content)

/-- Removing a path takes no file but below the directory of one backup, and it cuts the trail of that
    backup's record but not the trail of another one. -/
structure TakesOnly (c : ServerConfig) (id p : String) (fs : FileSystem) : Prop where
  inside : ∀ l content, fs.tree.get? l = some (.file content) → fs.Removes p l →
    AtOrBelow (fs.place (backupDir c id)) l
  cuts : ∃ l ∈ fs.trail (recordPath c id), fs.Removes p l
  spares : ∀ j, j ≠ id → HasBackup c j fs → ∀ l ∈ fs.trail (recordPath c j), ¬fs.Removes p l

section Removal

variable {p : String} {fs fs' : FileSystem}

/-- What is found after a removal was found before. -/
theorem entry_of_removed (h : FileSystem.removeAll p fs = .ok () fs') {q : String} {e : Entry}
    (hq : fs'.entry q = .ok e) : fs.entry q = .ok e := by
  obtain ⟨hwork, -, hget⟩ := FileSystem.removeAll_ok h
  obtain ⟨hp, hway, hplace⟩ := FileSystem.entry_eq_ok_iff.1 hq
  rw [FileSystem.way_congr hwork] at hway
  rw [FileSystem.place_congr hwork] at hplace
  have hkept : ∀ {k e}, fs'.tree.get? k = some e → fs.tree.get? k = some e := by
    intro k e hk
    rw [hget] at hk
    split at hk
    · cases hk
    · exact hk
  exact FileSystem.entry_eq_ok_iff.2 ⟨hp, fun k hk => hkept (hway k hk), hkept hplace⟩

/-- **What was found is found after a removal iff nothing on its trail was taken.** -/
theorem entry_after_removal_iff (h : FileSystem.removeAll p fs = .ok () fs') {q : String} {e : Entry}
    (hq : fs.entry q = .ok e) :
    fs'.entry q = .ok e ↔ ∀ l ∈ fs.trail q, ¬fs.Removes p l := by
  obtain ⟨hwork, -, hget⟩ := FileSystem.removeAll_ok h
  constructor
  · intro hq' l hl hr
    obtain ⟨-, hway, hplace⟩ := FileSystem.entry_eq_ok_iff.1 hq'
    rw [FileSystem.way_congr hwork] at hway
    rw [FileSystem.place_congr hwork] at hplace
    have hgone : fs'.tree.get? l = none := by rw [hget, if_pos hr]
    rcases FileSystem.mem_trail_iff.1 hl with rfl | hl
    · rw [hplace] at hgone
      cases hgone
    · rw [hway l hl] at hgone
      cases hgone
  · intro hspared
    rw [FileSystem.entry_congr hwork fun k hk => by rw [hget, if_neg (hspared k hk)], hq]

/-- A look-up of a backup whose trail is not cut answers what it did before, one whose trail is cut
    finds nothing. -/
theorem getBackup_after_removal (h : FileSystem.removeAll p fs = .ok () fs') {c : ServerConfig}
    {j : String} (hj : HasBackup c j fs) :
    ((∀ l ∈ fs.trail (recordPath c j), ¬fs.Removes p l) ∧
      getBackup c j fs' = getBackup c j fs ∧ HasBackup c j fs') ∨
    ((∃ l ∈ fs.trail (recordPath c j), fs.Removes p l) ∧ ¬HasBackup c j fs') := by
  obtain ⟨content, he⟩ := FileSystem.isFile_iff.1 hj.2
  have hiff := entry_after_removal_iff h he
  by_cases hs : ∀ l ∈ fs.trail (recordPath c j), ¬fs.Removes p l
  · have he' := hiff.2 hs
    exact .inl ⟨hs, getBackup_congr (he'.trans he.symm), hj.1,
      FileSystem.isFile_iff.2 ⟨content, he'⟩⟩
  · refine .inr ⟨?_, fun hj' => ?_⟩
    · simpa using hs
    · obtain ⟨content', he'⟩ := FileSystem.isFile_iff.1 hj'.2
      have := entry_of_removed h he'
      rw [he] at this
      cases this
      exact hs (hiff.1 he')

/-- **Removing a path deletes one backup and nothing else iff the path takes only what it has to.** -/
theorem deletedAlone_iff_takesOnly (h : FileSystem.removeAll p fs = .ok () fs') {c : ServerConfig}
    {id : String} (hid : HasBackup c id fs) :
    DeletedAlone c id fs fs' ↔ TakesOnly c id p fs := by
  obtain ⟨-, -, hget⟩ := FileSystem.removeAll_ok h
  constructor
  · intro hd
    refine ⟨fun l content hl hr => ?_, ?_, fun j hne hj => ?_⟩
    · -- A file that is taken and outside would still have to be there.
      by_cases hb : AtOrBelow (fs.place (backupDir c id)) l
      · exact hb
      · have := hd.outside l content hb hl
        rw [hget, if_pos hr] at this
        cases this
    · rcases getBackup_after_removal h hid with ⟨-, -, hkept⟩ | ⟨hcut, -⟩
      · exact absurd hkept (getBackup_eq_none_iff.1 hd.gone)
      · exact hcut
    · rcases getBackup_after_removal h hj with ⟨hs, -⟩ | ⟨-, hgone⟩
      · exact hs
      · have := hd.others j hne
        rw [getBackup_of_not hgone] at this
        exact absurd hj (getBackup_eq_none_iff.1 this.symm)
  · intro ht
    refine ⟨?_, fun j hne => ?_, fun l content hb hl => ?_⟩
    · rcases getBackup_after_removal h hid with ⟨hs, -⟩ | ⟨-, hgone⟩
      · obtain ⟨l, hl, hr⟩ := ht.cuts
        exact absurd hr (hs l hl)
      · exact getBackup_of_not hgone
    · by_cases hj : HasBackup c j fs
      · rcases getBackup_after_removal h hj with ⟨-, hsame, -⟩ | ⟨⟨l, hl, hr⟩, -⟩
        · exact hsame
        · exact absurd hr (ht.spares j hne hj l hl)
      · have hj' : ¬HasBackup c j fs' := by
          rintro ⟨hplain, hfile⟩
          obtain ⟨content, he⟩ := FileSystem.isFile_iff.1 hfile
          exact hj ⟨hplain, FileSystem.isFile_iff.2 ⟨content, entry_of_removed h he⟩⟩
        rw [getBackup_of_not hj, getBackup_of_not hj']
    · rw [hget, if_neg, hl]
      exact fun hr => hb (ht.inside l content hl hr)

end Removal

/-! ## The directories of backups -/

/-- What the removal of a backup's own directory takes is what is at or below it. -/
theorem removes_backupDir_iff {c : ServerConfig} {id : String} (h : Path.IsName id) (fs : FileSystem)
    (l : Location) :
    fs.Removes (backupDir c id) l ↔ AtOrBelow (fs.place (backupDir c id)) l := by
  have hlast : (Path.segments (backupDir c id)).getLast? ≠ some ".." := by
    unfold backupDir
    rw [FileSystem.segments_join (FileSystem.isPart_of_isName h)]
    simpa using h.2.2.1
  refine ⟨fun hr => hr.2.1, fun hb => ⟨?_, hb, fun he => absurd he hlast⟩⟩
  rintro rfl
  unfold backupDir at hb
  rw [FileSystem.place_join h] at hb
  exact absurd hb.length_le (by simp)

/-- **A backup whose directory cannot be removed is left as it is.** -/
theorem eq_of_removeAll_error {c : ServerConfig} {id : String} (h : Path.IsName id) {fs fs' : FileSystem}
    {e : FileError} (herror : FileSystem.removeAll (backupDir c id) fs = .error e fs') : fs' = fs := by
  have hlast : (Path.segments (backupDir c id)).getLast? ≠ some "." := by
    unfold backupDir
    rw [FileSystem.segments_join (FileSystem.isPart_of_isName h)]
    simpa using h.2.1
  rw [FileSystem.removeAll_apply] at herror
  cases hl : fs.locate (backupDir c id) with
  | error e' =>
    rw [hl] at herror
    cases herror
    rfl
  | ok l =>
    rw [hl] at herror
    dsimp only at herror
    cases hg : fs.tree.get? l with
    | none =>
      rw [hg] at herror
      cases herror
      rfl
    | some entry =>
      rw [hg] at herror
      cases entry with
      | file content =>
        cases herror
        rfl
      | directory =>
        dsimp only at herror
        by_cases hs : fs.isSealed l = true
        · rw [if_pos hs] at herror
          cases herror
          rfl
        · rw [if_neg hs, if_neg hlast] at herror
          split at herror <;> cases herror

/-- The directory with the backup's own name is the right one to remove. -/
theorem takesOnly_own {c : ServerConfig} {id : String} {fs : FileSystem} (hclear : ClearBase c fs)
    (hid : HasBackup c id fs) : TakesOnly c id (backupDir c id) fs := by
  have hname := isName_of_hasBackup hid
  refine ⟨fun l _ _ hr => hr.2.1, ?_, fun j hne hj l hl hr => ?_⟩
  · refine ⟨_, FileSystem.place_mem_trail fs _, (removes_backupDir_iff hname fs _).2 ?_⟩
    unfold recordPath
    rw [FileSystem.place_join isName_recordName]
    exact .cons _ _
  · exact not_below_of_mem_trail hclear hname (isName_of_hasBackup hj) hne hl hr.2.1

/-- The directory with the name of another backup is the wrong one. -/
theorem not_takesOnly_other {c : ServerConfig} {id other : String} {fs : FileSystem}
    (hclear : ClearBase c fs) (hid : HasBackup c id fs) (hother : Path.IsName other)
    (hne : other ≠ id) : ¬TakesOnly c id (backupDir c other) fs := by
  intro ht
  obtain ⟨l, hl, hr⟩ := ht.cuts
  exact not_below_of_mem_trail hclear hother (isName_of_hasBackup hid) hne.symm hl hr.2.1

end BackupFleet.Storage
