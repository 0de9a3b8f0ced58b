import BackupFleet.Proofs.FileSystem.Effect

/-!
# `BackupFleet.Proofs.FileSystem.Seals` — directories in which nothing may be made or removed

No operation seals a directory or opens it again. So where a file has been made, nothing is in the way of
removing it, and no directory that it is in either.

## Contents

* `SameSeals` — the same directories are sealed;
* `makeDirectories_sameSeals`, `writeFile_sameSeals` — operations;
* `not_isSealed_of_writeFile` — what a file that was made says about its place;
* `removeAll_of_directory` — a directory that can be removed.
-/

namespace BackupFleet.FileSystem

open FileTree Effect

/-- The same directories are sealed. -/
def SameSeals (fs fs' : FileSystem) : Prop := fs'.sealedDirs = fs.sealedDirs

theorem isReach_sameSeals : IsReach SameSeals where
  refl := fun _ => rfl
  trans := fun h h' => Eq.trans h' h

theorem isSealed_congr {fs fs' : FileSystem} (h : SameSeals fs fs') (l : Location) :
    fs'.isSealed l = fs.isSealed l := by
  unfold isSealed
  rw [h]

/-- What is in a directory is in a sealed one if the directory is. -/
theorem isSealed_of_tail {fs : FileSystem} {l : Location} (h : fs.isSealed l.tail = true) :
    fs.isSealed l = true := by
  unfold isSealed at h ⊢
  obtain ⟨s, hs, hb⟩ := List.any_eq_true.1 h
  exact List.any_eq_true.2 ⟨s, hs, decide_eq_true (AtOrBelow.of_tail (of_decide_eq_true hb))⟩

/-! ## Operations -/

theorem makeAt_sameSeals (from_ : Location) (names : List String) :
    Within SameSeals (makeAt from_ names) := by
  intro fs
  unfold after
  rw [makeAt_apply]
  cases walk fs.tree from_ names with
  | error e => exact isReach_sameSeals.refl fs
  | ok l =>
    dsimp only
    by_cases hthere : fs.tree.get? l ≠ none
    · rw [if_pos hthere]
      exact isReach_sameSeals.refl fs
    · rw [if_neg hthere]
      cases fs.isSealed l <;> exact rfl

theorem makeDirectories_sameSeals (p : String) : Within SameSeals (makeDirectories p) :=
  fun _ => makeDirectories_within isReach_sameSeals fun _ _ => makeAt_sameSeals _ _

theorem writeFile_sameSeals (p : String) (content : Bytes) : Within SameSeals (writeFile p content) := by
  intro fs
  rcases writeFile_cases p content fs with ⟨e, h⟩ | ⟨h, -, -⟩
  · rw [after_of_error h]
    exact isReach_sameSeals.refl fs
  · rw [after_of_ok h]
    exact rfl

/-- **Where a file has been made, no directory is sealed.** -/
theorem not_isSealed_of_writeFile {p : String} {content : Bytes} {fs fs' : FileSystem}
    (h : writeFile p content fs = .ok () fs')
    (hnew : ∀ old, fs.tree.get? (fs.place p) ≠ some (.file old)) : fs.isSealed (fs.place p) = false := by
  rw [writeFile_apply] at h
  cases hl : fs.locate p with
  | error e =>
    rw [hl] at h
    cases h
  | ok l =>
    obtain ⟨-, -, rfl⟩ := locate_eq_ok_iff.1 hl
    rw [hl] at h
    dsimp only at h
    cases hg : fs.tree.get? (fs.place p) with
    | some e =>
      rw [hg] at h
      cases e with
      | directory => cases h
      | file old => exact absurd hg (hnew old)
    | none =>
      rw [hg] at h
      cases hs : fs.isSealed (fs.place p) with
      | false => rfl
      | true =>
        rw [hs] at h
        cases h

/-- **A directory that is found can be removed**, unless it is in a sealed one or its path ends in a dot. -/
theorem removeAll_of_directory {p : String} {fs : FileSystem} (h : fs.entry p = .ok .directory)
    (hopen : fs.isSealed (fs.place p) = false) (hlast : (Path.segments p).getLast? ≠ some ".") :
    ∃ fs', removeAll p fs = .ok () fs' := by
  obtain ⟨hp, hway, hg⟩ := entry_eq_ok_iff.1 h
  rw [removeAll_apply, locate_eq_ok_iff.2 ⟨hp, hway, rfl⟩]
  simp only [hg, hopen, hlast, Bool.false_eq_true, if_false]
  split
  · exact ⟨_, rfl⟩
  · exact ⟨_, rfl⟩

end BackupFleet.FileSystem
