import BackupFleet.Proofs.FileSystem.Effect

/-!
# `BackupFleet.Proofs.FileSystem.Standing` — operations that leave every directory standing

Making directories, writing to files and moving them takes no directory away, so a path that can be
followed before such an operation can be followed afterwards.

## Contents

* `Standing` — every directory is still one;
* `Standing.locate` — paths stay open;
* `Grown.standing`, `openAppend_standing`, `append_standing`, `rename_standing` — the operations.
-/

namespace BackupFleet.FileSystem

open FileTree Effect

/-- Every directory is still one. -/
structure Standing (fs fs' : FileSystem) : Prop where
  workDir : fs'.workDir = fs.workDir
  directories : ∀ k, fs.tree.get? k = some .directory → fs'.tree.get? k = some .directory

theorem isReach_standing : IsReach Standing where
  refl := fun _ => ⟨rfl, fun _ h => h⟩
  trans := fun h h' =>
    ⟨h'.workDir.trans h.workDir, fun k hk => h'.directories k (h.directories k hk)⟩

/-- **A path that could be followed still can be**, and leads where it led. -/
theorem Standing.locate {fs fs' : FileSystem} (h : Standing fs fs') {p : String} {l : Location}
    (hl : fs.locate p = .ok l) : fs'.locate p = .ok l := by
  obtain ⟨hp, hway, rfl⟩ := locate_eq_ok_iff.1 hl
  refine locate_eq_ok_iff.2 ⟨hp, fun k hk => ?_, (place_congr h.workDir p).symm⟩
  rw [way_congr h.workDir] at hk
  exact h.directories k (hway k hk)

/-! ## Operations -/

/-- An operation whose changes are at locations without a directory leaves every directory standing. -/
theorem ChangesOnly.standing {S : Location → Prop} {fs fs' : FileSystem} (h : ChangesOnly S fs fs')
    (hS : ∀ k, S k → fs.tree.get? k ≠ some .directory) : Standing fs fs' := by
  refine ⟨h.workDir, fun k hk => ?_⟩
  rw [h.entries k fun hs => hS k hs hk]
  exact hk

theorem Grown.standing {S : Location → Prop} {fs fs' : FileSystem} (h : Grown S fs fs') :
    Standing fs fs' := by
  refine ⟨h.workDir, fun k hk => ?_⟩
  rcases h.entries k with he | ⟨-, hn, -⟩
  · rw [he]
    exact hk
  · rw [hk] at hn
    cases hn

theorem openAppend_standing (p : String) (fs : FileSystem) :
    Standing fs (after (openAppend p) fs) := by
  rcases openAppend_cases p fs with ⟨e, h⟩ | ⟨-, ⟨content, -, h⟩ | ⟨hnone, -, h⟩⟩
  · rw [after_of_error h]
    exact isReach_standing.refl fs
  · rw [after_of_ok h]
    exact isReach_standing.refl fs
  · have hchange := openAppend_changesOnly p fs
    refine hchange.standing ?_
    rintro k rfl hk
    rw [hnone] at hk
    cases hk

theorem append_standing (handle : AppendHandle) (bytes : Bytes) (fs : FileSystem) :
    Standing fs (after (append handle bytes) fs) := by
  rw [after_of_ok (append_apply handle bytes fs)]
  split
  · rename_i content _ hfile
    refine ChangesOnly.standing (S := (· = handle.location)) ⟨rfl, fun k hk => get?_put_of_ne _ hk⟩ ?_
    rintro k rfl hk
    rw [hfile] at hk
    cases hk
  · exact isReach_standing.refl fs

theorem rename_standing (source target : String) (fs : FileSystem) :
    Standing fs (after (rename source target) fs) := by
  have hchange := rename_changesOnly source target fs
  rcases rename_cases source target fs with
    ⟨e, h⟩ | ⟨h, -⟩ | ⟨content, fs', h, hmoves⟩
  · rw [after_of_error h]
    exact isReach_standing.refl fs
  · rw [after_of_ok h]
    exact isReach_standing.refl fs
  · refine hchange.standing ?_
    rintro k (rfl | rfl) hk
    · rw [hmoves.file] at hk
      cases hk
    · exact hmoves.free hk

end BackupFleet.FileSystem
