import BackupFleet.Proofs.FileSystem.Effect
import BackupFleet.Storage.Lock

/-!
# `BackupFleet.Proofs.Storage.Host` — what services do to the files of a host

Services reach the files of a host through file operations only, so what holds between the files before
and after every file operation of a service holds between those before and after the service.

## Contents

* `onFiles_apply`, `ask_apply`, `now_apply` — the steps of a service, applied;
* `FilesWithin` — relations between the files before and after;
* `Later` — what passes between two states of a machine;
* `acquire_steps`, `acquire_changesOnly` — the lock.
-/

namespace BackupFleet.Host

open Effect

variable {α : Type}

theorem onFiles_apply (attempt : Attempt) (path : String) (op : FileOp α) (h : Host) :
    onFiles attempt path op h = match op h.files with
      | .ok a fs => .ok a { h with files := fs }
      | .error e fs => .error (.file attempt path e) { h with files := fs } := rfl

theorem ask_apply (q : Question FileSystem α) (h : Host) :
    ask q h = match q h.files with
      | .ok a => .ok a h
      | .error f => .error f h := rfl

theorem now_apply (h : Host) :
    now h = .ok (h.clock h.readings) { h with readings := h.readings + 1 } := rfl

theorem files_after_onFiles (attempt : Attempt) (path : String) (op : FileOp α) (h : Host) :
    (after (onFiles attempt path op) h).files = after op h.files := by
  unfold after
  rw [onFiles_apply]
  cases op h.files <;> rfl

/-- Whatever the host, its files after a service are related to those before. -/
def FilesWithin (R : FileSystem → FileSystem → Prop) (op : Operation Host α) : Prop :=
  Within (fun a b : Host => R a.files b.files) op

variable {R : FileSystem → FileSystem → Prop}

theorem isReach_files (hR : IsReach R) : IsReach fun a b : Host => R a.files b.files where
  refl := fun h => hR.refl h.files
  trans := hR.trans

theorem FilesWithin.onFiles {attempt : Attempt} {path : String} {op : FileOp α} (h : Within R op) :
    FilesWithin R (onFiles attempt path op) := by
  intro host
  show R host.files (after (Host.onFiles attempt path op) host).files
  rw [files_after_onFiles]
  exact h host.files

/-- The machine at a later time: it has the same clock, which was read at least as often. -/
structure Later (h h' : Host) : Prop where
  clock : h'.clock = h.clock
  readings : h.readings ≤ h'.readings

theorem isReach_later : IsReach Later where
  refl := fun h => ⟨rfl, Nat.le_refl h.readings⟩
  trans := fun h h' => ⟨h'.clock.trans h.clock, Nat.le_trans h.readings h'.readings⟩

end BackupFleet.Host

namespace BackupFleet.Lock

open FileSystem Effect

/-- Opening a lock file makes directories on the way to it, and then changes that file only. -/
theorem openFile_steps (path : String) (fs : FileSystem) :
    ∃ fs1, Grown (· ∈ fs.trail path) fs fs1 ∧
      ChangesOnly (· = fs.place path) fs1 (after (openFile path) fs) ∧
      ∀ l fs2, openFile path fs = .ok l fs2 → l = fs.place path := by
  have hparents := makeParents_grown path fs
  unfold after at hparents ⊢
  unfold openFile
  rw [bind_apply]
  cases hp : makeParents path fs with
  | error e fs1 =>
    rw [hp] at hparents
    exact ⟨fs1, hparents, (isReach_changesOnly _).refl fs1, fun l fs2 h => by cases h⟩
  | ok u fs1 =>
    rw [hp] at hparents
    dsimp only at hparents ⊢
    have hplace : fs1.place path = fs.place path := place_congr hparents.workDir path
    have hopened := openAppend_changesOnly path fs1
    rw [hplace] at hopened
    unfold after at hopened
    refine ⟨fs1, hparents, ?_⟩
    rw [bind_apply]
    cases ho : openAppend path fs1 with
    | error e fs2 =>
      rw [ho] at hopened
      exact ⟨hopened, fun l fs3 h => by cases h⟩
    | ok handle fs2 =>
      rw [ho] at hopened
      refine ⟨hopened, fun l fs3 h => ?_⟩
      obtain rfl := eq_of_openAppend_ok ho
      cases h
      exact hplace

/-- **Taking a lock makes directories on the way to the lock file, and then changes that file only.** -/
theorem acquire_steps (directory : String) (h : Host) :
    ∃ fs, Grown (· ∈ h.files.trail (lockPath directory)) h.files fs ∧
      ChangesOnly (· = h.files.place (lockPath directory)) fs (after (acquire directory) h).files := by
  obtain ⟨fs, hgrown, hchange, hlocation⟩ := openFile_steps (lockPath directory) h.files
  refine ⟨fs, hgrown, ?_⟩
  unfold after at hchange ⊢
  unfold acquire
  dsimp only
  cases ho : openFile (lockPath directory) h.files with
  | error e fs1 =>
    rw [ho] at hchange
    cases e <;> exact hchange
  | ok l fs1 =>
    rw [ho] at hchange
    dsimp only at hchange ⊢
    by_cases hheld : l ∈ h.heldLocks
    · rw [if_pos hheld]
      exact hchange
    · -- Only the holder of a lock writes into its file.
      rw [if_neg hheld]
      refine (isReach_changesOnly _).trans hchange ⟨rfl, fun k hk => FileTree.get?_put_of_ne _ ?_⟩
      rwa [hlocation l fs1 ho]

/-- Taking a lock changes nothing but on the trail of the lock file. -/
theorem acquire_changesOnly (directory : String) (h : Host) :
    ChangesOnly (· ∈ h.files.trail (lockPath directory)) h.files
      (after (acquire directory) h).files := by
  obtain ⟨fs, hgrown, hchange⟩ := acquire_steps directory h
  refine (isReach_changesOnly _).trans hgrown.changesOnly (hchange.mono ?_)
  rintro _ rfl
  exact place_mem_trail _ _

end BackupFleet.Lock
