import BackupFleet.Proofs.Config.Layout
import BackupFleet.Proofs.FileSystem.Made
import BackupFleet.Proofs.Storage.Archiving
import BackupFleet.Storage.Services

/-!
# `BackupFleet.Proofs.Storage.Upkeep` — what a sweep does for the check of directories

A server has four directories. A sweep makes three of them, with all that is above them; the check asks for
all four. The fourth one is there after a sweep if it is on the way to one of the others, which it is unless
all three are configured elsewhere. So a sweep that succeeds makes the check pass, or leaves the fourth
directory to its owner. An empty path is a case of its own: nothing is made for it, and nothing is found.

## Contents

* `archiveAll_gains`, `cron_gains` — the directories after a sweep;
* `mem_check_iff` — what the check asks for;
* `Encloses`, `ReachedBySweep` — a directory that others are configured in, or that is on the way to them;
* `directories_checked_after_cron`, `cron_leaves_backup_directory` — when the check passes, and a server
  for which it does not.
-/

namespace BackupFleet.Storage

open FileTree FileSystem Effect

/-! ## Directories after a sweep -/

theorem ensureDirectory_gains {dir : String} {h h' : Host} (he : ensureDirectory dir h = .ok () h') :
    Gains [dir] h.files h'.files := by
  unfold ensureDirectory at he
  rw [Host.onFiles_apply] at he
  cases hm : makeDirectories dir h.files with
  | error e fs =>
    rw [hm] at he
    cases he
  | ok u fs =>
    rw [hm] at he
    cases he
    exact makeDirectories_gains hm

/-- Moving a file and listing its name makes no directory and removes none. -/
theorem archiveOne_gains (c : ServerConfig) (handle : AppendHandle) (name : String) :
    Host.FilesWithin (Gains []) (archiveOne c handle name) := by
  intro h
  have hmoved := rename_gains (Path.join c.incomingWalsDirectory name) (Path.join c.walsDirectory name)
    h.files
  unfold after at hmoved ⊢
  rw [archiveOne_apply]
  cases hr : rename (Path.join c.incomingWalsDirectory name) (Path.join c.walsDirectory name) h.files with
  | error e fs =>
    rw [hr] at hmoved
    exact hmoved
  | ok u fs =>
    rw [hr] at hmoved
    exact hmoved.trans (append_gains _ _ fs)

theorem archiveAll_gains (c : ServerConfig) (handle : AppendHandle) (names : List String) :
    Host.FilesWithin (Gains []) (archiveAll c handle names) := by
  induction names generalizing handle with
  | nil => exact .pure (Host.isReach_files isReach_gains_nothing) ()
  | cons name r ih =>
    refine .bind (Host.isReach_files isReach_gains_nothing) (archiveOne_gains c handle name) ?_
    exact fun now _ h _ => ih now h

theorem archivePending_gains (c : ServerConfig) (names : List String) :
    Host.FilesWithin (Gains []) (archivePending c names) := by
  intro h
  have hopened := openAppend_gains (walCatalogPath c) h.files
  rw [archivePending_after]
  unfold after at hopened
  cases ho : openAppend (walCatalogPath c) h.files with
  | error e fs =>
    rw [ho] at hopened
    exact hopened
  | ok handle fs =>
    rw [ho] at hopened
    exact hopened.trans (archiveAll_gains c handle _ { h with files := fs })

/-- **The directories after a sweep that succeeds are those before and those on the way to the three
    directories that it maintains.** The arrivals have been listed, so their path is not empty. -/
theorem cron_gains {c : ServerConfig} {h h' : Host} {n : Nat} (hcron : cron c h = .ok n h') :
    Gains c.storagePaths h.files h'.files ∧ c.incomingWalsDirectory ≠ "" := by
  unfold cron at hcron
  obtain ⟨_, h1, hbase, hcron⟩ := bind_eq_ok_iff.1 hcron
  obtain ⟨_, h2, hwals, hcron⟩ := bind_eq_ok_iff.1 hcron
  obtain ⟨_, h3, hincoming, hcron⟩ := bind_eq_ok_iff.1 hcron
  obtain ⟨names, h4, hask, hcron⟩ := bind_eq_ok_iff.1 hcron
  rw [Host.ask_apply] at hask
  cases hlist : h3.files.listDirectory c.incomingWalsDirectory with
  | error e =>
    rw [hlist] at hask
    cases hask
  | ok listed =>
    rw [hlist] at hask
    cases hask
    have hmade : Gains c.storagePaths h.files h3.files :=
      ((ensureDirectory_gains hbase).trans (ensureDirectory_gains hwals)).trans
        (ensureDirectory_gains hincoming)
    have hrest := archivePending_gains c names h3
    rw [after_of_ok (show archivePending c names h3 = .ok n h' from hcron)] at hrest
    refine ⟨by simpa using hmade.trans hrest, fun hempty => ?_⟩
    rw [hempty] at hlist
    cases (listDirectory_eq_ok_iff.1 hlist).1

/-! ## The check -/

/-- The check of directories passes iff all four paths lead to directories. -/
theorem mem_check_iff {c : ServerConfig} {fs : FileSystem} :
    ⟨"directories", true, none⟩ ∈ check c fs ↔ ∀ e ∈ c.paths, fs.entry e.2 = .ok .directory := by
  have hothers : ∀ r ∈ [⟨"backup_command", c.backupCommand.isSome, none⟩, checkCatalog c fs],
      r ≠ ⟨"directories", true, none⟩ := by
    unfold checkCatalog
    cases listBackups c fs <;> simp
  have hfirst : ⟨"directories", true, none⟩ ∈ check c fs ↔
      checkDirectories c fs = ⟨"directories", true, none⟩ := by
    unfold check
    rw [List.mem_cons]
    exact ⟨fun h => (h.resolve_right fun h => hothers _ h rfl).symm, fun h => .inl h.symm⟩
  have hmissing : (c.paths.filter fun e => !fs.isDirectory e.2) = [] ↔
      ∀ e ∈ c.paths, fs.entry e.2 = .ok .directory := by
    simp only [List.filter_eq_nil_iff, Bool.not_eq_true, Bool.not_eq_false', isDirectory_iff]
  rw [hfirst, ← hmissing, checkDirectories]
  simp only [List.map_eq_nil_iff]
  split
  · rename_i h
    exact iff_of_true rfl h
  · rename_i h
    exact iff_of_false (by simp) h

/-! ## Directories in one another -/

/-- The second path is spelled as that of something in the directory of the first one, at any depth. -/
def Encloses (dir p : String) : Prop :=
  ∃ names : List String, (∀ n ∈ names, Path.IsName n) ∧ p = names.foldl Path.join dir

/-- **A path to something in a directory stands in all that the path of the directory stands in.** -/
theorem Encloses.trail_subset {dir p : String} (h : Encloses dir p) (fs : FileSystem) :
    fs.trail dir ⊆ fs.trail p := by
  obtain ⟨names, hnames, rfl⟩ := h
  induction names generalizing dir with
  | nil => exact fun _ hk => hk
  | cons name r ih =>
    obtain ⟨hname, hr⟩ := List.forall_mem_cons.1 hnames
    intro k hk
    refine ih hr ?_
    rw [trail_join hname]
    exact List.mem_append_left _ hk

/-- The system takes the path of a directory if it takes that of something in it. -/
theorem Encloses.isPath {dir p : String} (h : Encloses dir p) (hdir : dir ≠ "") (hp : IsPath p) :
    IsPath dir := by
  obtain ⟨names, hnames, rfl⟩ := h
  induction names generalizing dir with
  | nil => exact hp
  | cons name r ih =>
    obtain ⟨hname, hr⟩ := List.forall_mem_cons.1 hnames
    have hpart := isPart_of_isName hname
    refine isPath_of_join hpart hdir (ih ?_ hr hp)
    obtain ⟨rest, hrest⟩ := exists_append_of_join hpart hdir
    rw [hrest]
    exact fun he => hdir (String.append_eq_empty_iff.1 he).1

/-! ## When the check passes -/

/-- The system takes the path, and all that the path stands in is a directory already or is on the way to one
    of the three directories of a sweep. -/
def ReachedBySweep (c : ServerConfig) (fs : FileSystem) (p : String) : Prop :=
  IsPath p ∧ ∀ k ∈ fs.trail p,
    fs.tree.get? k = some .directory ∨ ∃ q ∈ c.storagePaths, k ∈ fs.trail q

section Checked

variable {c : ServerConfig} {h h' : Host} {n : Nat}

/-- A directory of the sweep is found after it, unless its path is empty. -/
theorem entry_of_cron (hcron : cron c h = .ok n h') {p : String} (hp : p ∈ c.storagePaths) :
    h'.files.entry p = .ok .directory ↔ p ≠ "" := by
  refine ⟨?_, (cron_gains hcron).1.entry hp⟩
  rintro he rfl
  cases (entry_eq_ok_iff.1 he).1.1

theorem storagePaths_ne_empty_of_cron (hcron : cron c h = .ok n h') (hb : c.basebackupsDirectory ≠ "")
    (hw : c.walsDirectory ≠ "") : ∀ p ∈ c.storagePaths, p ≠ "" := by
  simp [ServerConfig.storagePaths, hb, hw, (cron_gains hcron).2]

/-- Any other directory is found after a sweep iff the sweep reaches it. -/
theorem entry_of_cron_iff_reached (hcron : cron c h = .ok n h') (hb : c.basebackupsDirectory ≠ "")
    (hw : c.walsDirectory ≠ "") (p : String) :
    h'.files.entry p = .ok .directory ↔ ReachedBySweep c h.files p := by
  rw [(cron_gains hcron).1.entry_eq_directory_iff]
  refine and_congr_right fun _ => forall₂_congr fun k _ => or_congr_right ?_
  refine exists_congr fun q => and_congr_right fun hq => and_iff_right ?_
  exact storagePaths_ne_empty_of_cron hcron hb hw q hq

/-- What is on the way to a directory of a sweep is reached by it. -/
theorem reachedBySweep_of_encloses (hcron : cron c h = .ok n h') {dir p : String} (hdir : dir ≠ "")
    (hp : p ∈ c.storagePaths) (hne : p ≠ "") (hin : Encloses dir p) : ReachedBySweep c h.files dir :=
  ⟨hin.isPath hdir ((cron_gains hcron).1.isPath p hp hne),
    fun _ hk => .inr ⟨p, hp, hin.trail_subset h.files hk⟩⟩

/-- **A sweep that succeeds makes the check of directories pass, as far as the directories are its own.** The
    check passes iff neither of two paths is empty and the fourth directory is one that the sweep reaches. It
    does, if one of its own three directories is configured somewhere in the fourth one. -/
theorem directories_checked_after_cron (hcron : cron c h = .ok n h') :
    (⟨"directories", true, none⟩ ∈ check c h'.files ↔
      c.basebackupsDirectory ≠ "" ∧ c.walsDirectory ≠ "" ∧
        ReachedBySweep c h.files c.backupDirectory) ∧
    (c.backupDirectory ≠ "" → (∃ p ∈ c.storagePaths, Encloses c.backupDirectory p) →
      c.basebackupsDirectory ≠ "" → c.walsDirectory ≠ "" →
      ⟨"directories", true, none⟩ ∈ check c h'.files) := by
  have hincoming := (entry_of_cron hcron c.incoming_mem).2 (cron_gains hcron).2
  have hiff : ⟨"directories", true, none⟩ ∈ check c h'.files ↔
      c.basebackupsDirectory ≠ "" ∧ c.walsDirectory ≠ "" ∧
        ReachedBySweep c h.files c.backupDirectory := by
    rw [mem_check_iff]
    simp only [ServerConfig.paths, List.forall_mem_cons, List.not_mem_nil, false_implies, implies_true,
      and_true, entry_of_cron hcron c.base_mem, entry_of_cron hcron c.wals_mem, hincoming]
    rw [and_comm, and_assoc]
    refine and_congr_right fun hb => and_congr_right fun hw => ?_
    exact entry_of_cron_iff_reached hcron hb hw c.backupDirectory
  refine ⟨hiff, fun hdir ⟨p, hp, hin⟩ hb hw => hiff.2 ⟨hb, hw, ?_⟩⟩
  exact reachedBySweep_of_encloses hcron hdir hp (storagePaths_ne_empty_of_cron hcron hb hw p hp) hin

end Checked

/-! ### A server with its directories inside the fourth one, and one with them elsewhere -/

namespace TwoLayouts

def inside : ServerConfig := ServerConfig.new "main" "srv"

def elsewhere : ServerConfig :=
  { ServerConfig.new "main" "srv" with
    backupCommand := some "true"
    basebackupsDirectory := "d/base"
    walsDirectory := "d/wals"
    incomingWalsDirectory := "d/incoming" }

/-- No file is there yet. -/
def host : Host := ⟨⟨.empty, [], []⟩, fun _ => .epoch, 0, [], 1, 0, []⟩

end TwoLayouts

open TwoLayouts in
/-- Where the three directories are in the fourth one, the check passes after the first sweep. -/
theorem default_layout_checked :
    ∃ n h', cron inside host = .ok n h' ∧ ⟨"directories", true, none⟩ ∈ check inside h'.files := by
  obtain ⟨n, hcron⟩ := exists_of_succeeds (show succeeds (cron inside) host = true by decide +kernel)
  have hin : Encloses inside.backupDirectory inside.basebackupsDirectory :=
    ⟨["base"], by decide, rfl⟩
  exact ⟨n, _, hcron, (directories_checked_after_cron hcron).2 (by decide) ⟨_, inside.base_mem, hin⟩
    (by decide) (by decide)⟩

open TwoLayouts in
/-- Where all three directories are elsewhere, a sweep succeeds and the fourth directory is still missing, so
    the check does not pass after every sweep. -/
theorem cron_leaves_backup_directory :
    (succeeds (cron elsewhere) host = true ∧
      checkDirectories elsewhere (after (cron elsewhere) host).files
        = ⟨"directories", false, some "missing backup_directory=srv/main"⟩) ∧
    ¬∀ (c : ServerConfig) (h h' : Host) (n : Nat), cron c h = .ok n h' →
      ⟨"directories", true, none⟩ ∈ check c h'.files := by
  have hfound : succeeds (cron elsewhere) host = true ∧
      checkDirectories elsewhere (after (cron elsewhere) host).files
        = ⟨"directories", false, some "missing backup_directory=srv/main"⟩ := by decide +kernel
  refine ⟨hfound, fun hclaim => ?_⟩
  obtain ⟨n, hcron⟩ := exists_of_succeeds hfound.1
  exact absurd (hclaim elsewhere host _ n hcron) (by decide +kernel)

end BackupFleet.Storage
