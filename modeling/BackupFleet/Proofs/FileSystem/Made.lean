import BackupFleet.Proofs.FileSystem.Standing

/-!
# `BackupFleet.Proofs.FileSystem.Made` — which directories there are afterwards

Making the directory of a path tries the whole path first, makes what is above it only if that was missing,
and takes an error for a success if a directory is there after all. However it comes about, a success means
that all of the trail of the path is directories. Since nothing else becomes one, the directories afterwards
are those before and those on the trail; the operations on files add none and take none away.

## Contents

* `entry_eq_directory_iff`, `entry_join_of_directory`, `isDirectory_iff` — paths of directories;
* `entry_of_makeDirectories` — a directory that was made is there;
* `Gains`, `Gains.trans` — the directories after an operation, and after two;
* `Gains.entry_eq_directory_iff`, `Gains.entry` — look-ups after it;
* `makeDirectories_gains`, `openAppend_gains`, `append_gains`, `rename_gains` — the operations.
-/

namespace BackupFleet.FileSystem

open FileTree Effect

/-! ## Paths of directories -/

/-- **A path leads to a directory iff the system takes it and all of its trail is directories.** -/
theorem entry_eq_directory_iff {fs : FileSystem} {p : String} :
    fs.entry p = .ok .directory ↔ IsPath p ∧ ∀ k ∈ fs.trail p, fs.tree.get? k = some .directory := by
  rw [entry_eq_ok_iff]
  refine and_congr_right fun _ => ?_
  constructor
  · rintro ⟨hway, hend⟩ k hk
    rcases mem_trail_iff.1 hk with rfl | hk
    · exact hend
    · exact hway k hk
  · exact fun h => ⟨fun k hk => h k (fs.way_subset_trail p hk), h _ (fs.place_mem_trail p)⟩

/-- **In a directory that is found, a look-up of a name finds what is at its location.** -/
theorem entry_join_of_directory {fs : FileSystem} {dir name : String} (hdir : fs.entry dir = .ok .directory)
    (hname : Path.IsName name) {e : Entry} :
    fs.entry (Path.join dir name) = .ok e ↔
      IsPath (Path.join dir name) ∧ fs.tree.get? (name :: fs.place dir) = some e := by
  rw [entry_eq_ok_iff, way_join hname, place_join hname]
  exact and_congr_right fun _ => and_iff_right (entry_eq_directory_iff.1 hdir).2

theorem isFile_join_of_directory {fs : FileSystem} {dir name : String} (hdir : fs.entry dir = .ok .directory)
    (hname : Path.IsName name) :
    fs.isFile (Path.join dir name) = true ↔
      IsPath (Path.join dir name) ∧ ∃ content, fs.tree.get? (name :: fs.place dir) = some (.file content) := by
  rw [isFile_iff, ← exists_and_left]
  exact exists_congr fun content => entry_join_of_directory hdir hname

theorem isDirectory_iff {fs : FileSystem} {p : String} :
    fs.isDirectory p = true ↔ fs.entry p = .ok .directory := by
  unfold isDirectory
  split
  · rename_i h
    exact ⟨fun _ => h, fun _ => rfl⟩
  · rename_i h
    exact ⟨fun hd => (by cases hd), fun hd => absurd hd h⟩

/-! ## A directory that was made -/

/-- Names lead from a location to a directory. -/
def ToDirectory (t : FileTree) (from_ : Location) (names : List String) : Prop :=
  walk t from_ names = .ok (lead from_ names) ∧ t.get? (lead from_ names) = some .directory

/-- A path without names starts at the root, unless it is empty. -/
theorem start_of_segments_nil {p : String} (hp : p ≠ "") (h : Path.segments p = []) (fs : FileSystem) :
    fs.start p = [] := by
  obtain ⟨c, r, hc⟩ := List.exists_cons_of_ne_nil (mt String.toList_eq_nil_iff.1 hp)
  have hslash : c = '/' := eq_slash_of_segments_nil h c (hc ▸ List.mem_cons_self)
  have habsolute : Path.isAbsolute p = true := by
    unfold Path.isAbsolute
    rw [hc, hslash]
    rfl
  exact if_pos habsolute

section Made

variable {p : String} {fs fs' : FileSystem}

/-- Where a walk along a path ends at nothing, a directory may be put. -/
theorem admits_of_walk {t : FileTree} {l : Location} (hp : pathError p = none)
    (hl : walk t (fs.start p) (Path.segments p) = .ok l) (hn : t.get? l = none) :
    t.Admits l .directory := by
  have hpath : IsPath p := ⟨hp, (walk_eq_ok_iff.1 hl).2.1⟩
  have hne : p ≠ "" := by
    rintro rfl
    cases hp
  have hnames : Path.segments p ≠ [] := by
    intro hs
    -- The root would be the end, and it is there.
    rw [hs, start_of_segments_nil hne hs] at hl
    cases hl
    cases hn
  obtain ⟨name, hmem, dir, rfl, h1, h2, hdir⟩ := walk_end hl hnames (by simp [hn])
  exact ⟨isName_of_mem_segments hpath hmem h1 h2, hdir, .inl rfl⟩

/-- Putting a directory leaves open every walk that was open. -/
theorem walk_put_directory {t : FileTree} {l from_ k : Location} {names : List String}
    (h : walk t from_ names = .ok k) : walk (t.put l .directory) from_ names = .ok k := by
  obtain ⟨hpassed, hbytes, rfl⟩ := walk_eq_ok_iff.1 h
  refine walk_eq_ok_iff.2 ⟨fun j hj => ?_, hbytes, rfl⟩
  rcases get?_put_cases t l .directory j with hput | ⟨-, hput⟩
  · rw [hput]
    exact hpassed j hj
  · exact hput

theorem toDirectory_of_makeAt {fs₀ : FileSystem} (hp : pathError p = none)
    (h : makeAt (fs₀.start p) (Path.segments p) fs = .ok () fs') :
    ToDirectory fs'.tree (fs₀.start p) (Path.segments p) := by
  rw [makeAt_apply] at h
  cases hl : walk fs.tree (fs₀.start p) (Path.segments p) with
  | error e =>
    rw [hl] at h
    cases h
  | ok l =>
    rw [hl] at h
    dsimp only at h
    split at h
    · cases h
    rename_i hnone
    split at h
    · cases h
    cases h
    have hadmits := admits_of_walk hp hl (Decidable.not_not.1 hnone)
    obtain ⟨-, -, rfl⟩ := walk_eq_ok_iff.1 hl
    exact ⟨walk_put_directory hl, (get?_put hadmits _).trans (if_pos rfl)⟩

/-- Where an error is forgiven, a directory is there. -/
theorem toDirectory_of_unlessThere {from_ : Location} {names : List String} {e : FileError}
    (h : (do if ← leadsToDirectory from_ names then pure () else throw e : FileOp Unit) fs = .ok () fs') :
    ToDirectory fs'.tree from_ names := by
  rw [bind_apply, leadsToDirectory_apply] at h
  cases hl : walk fs.tree from_ names with
  | error e' =>
    rw [hl] at h
    cases h
  | ok l =>
    obtain ⟨-, -, rfl⟩ := walk_eq_ok_iff.1 hl
    rw [hl] at h
    by_cases hd : fs.tree.get? (lead from_ names) = some .directory
    · simp only [hd, decide_true, if_true] at h
      cases h
      exact ⟨hl, hd⟩
    · simp only [hd, decide_false] at h
      cases h

/-- However a directory was made after what is above it, it is there. -/
theorem toDirectory_of_makeAfter {from_ : Location} {names : List String} {parents : FileOp Unit}
    (hat : ∀ fs fs', makeAt from_ names fs = .ok () fs' → ToDirectory fs'.tree from_ names)
    (h : makeAfter from_ names parents fs = .ok () fs') : ToDirectory fs'.tree from_ names := by
  unfold makeAfter at h
  rw [tryCatch_apply] at h
  cases hfirst : makeAt from_ names fs with
  | ok u fs₁ =>
    rw [hfirst] at h
    cases h
    exact hat _ _ hfirst
  | error e fs₁ =>
    rw [hfirst] at h
    dsimp only at h
    by_cases he : e = .notFound
    · rw [if_pos he] at h
      obtain ⟨u, fs₂, -, h⟩ := bind_eq_ok_iff.1 h
      rw [tryCatch_apply] at h
      cases hsecond : makeAt from_ names fs₂ with
      | ok u fs₃ =>
        rw [hsecond] at h
        cases h
        exact hat _ _ hsecond
      | error e fs₃ =>
        rw [hsecond] at h
        exact toDirectory_of_unlessThere h
    · rw [if_neg he] at h
      exact toDirectory_of_unlessThere h

/-- **A directory that was made is there.** -/
theorem entry_of_makeDirectories (hp : p ≠ "") (h : makeDirectories p fs = .ok () fs') :
    fs'.entry p = .ok .directory := by
  have hstart : fs'.start p = fs.start p := by
    have hgrown := makeDirectories_grown p fs
    rw [after_of_ok h] at hgrown
    exact start_congr hgrown.workDir p
  rw [makeDirectories_apply, if_neg hp] at h
  cases herror : pathError p with
  | some e =>
    rw [herror] at h
    cases h
  | none =>
    rw [herror] at h
    obtain ⟨hwalk, hend⟩ := toDirectory_of_makeAfter (fun _ _ => toDirectory_of_makeAt herror) h
    obtain ⟨hpassed, hbytes, -⟩ := walk_eq_ok_iff.1 hwalk
    refine entry_eq_directory_iff.2 ⟨⟨herror, hbytes⟩, fun k hk => ?_⟩
    unfold trail at hk
    rw [hstart, visited_eq] at hk
    rcases List.mem_append.1 hk with hk | hk
    · exact hpassed k hk
    · rw [List.mem_singleton.1 hk]
      exact hend

end Made

/-! ## The directories afterwards -/

/-- The directories afterwards are those before, and those on the trails of some paths, which the system
    takes. The empty path counts for nothing, since nothing is made for it. -/
structure Gains (ps : List String) (fs fs' : FileSystem) : Prop where
  workDir : fs'.workDir = fs.workDir
  isPath : ∀ p ∈ ps, p ≠ "" → IsPath p
  directory_iff : ∀ k, fs'.tree.get? k = some .directory ↔
    fs.tree.get? k = some .directory ∨ ∃ p ∈ ps, p ≠ "" ∧ k ∈ fs.trail p

namespace Gains

variable {ps qs : List String} {fs fs' fs'' : FileSystem}

/-- What two operations gain is what both of them gain. -/
theorem trans (h : Gains ps fs fs') (h' : Gains qs fs' fs'') : Gains (ps ++ qs) fs fs'' := by
  refine ⟨h'.workDir.trans h.workDir, List.forall_mem_append.2 ⟨h.isPath, h'.isPath⟩, fun k => ?_⟩
  rw [h'.directory_iff, h.directory_iff, or_assoc]
  refine or_congr_right ?_
  simp only [List.mem_append, or_and_right, exists_or, trail_congr h.workDir]

/-- Where directories stand and no new one comes, nothing is gained. -/
theorem of_standing (h : Standing fs fs')
    (hnew : ∀ k, fs'.tree.get? k = some .directory → fs.tree.get? k = some .directory) :
    Gains [] fs fs' := by
  refine ⟨h.workDir, by simp, fun k => ?_⟩
  simp only [List.not_mem_nil, false_and, exists_const, or_false]
  exact ⟨hnew k, h.directories k⟩

/-- **What a look-up needs to find a directory afterwards.** -/
theorem entry_eq_directory_iff (h : Gains ps fs fs') {q : String} :
    fs'.entry q = .ok .directory ↔ IsPath q ∧ ∀ k ∈ fs.trail q,
      fs.tree.get? k = some .directory ∨ ∃ p ∈ ps, p ≠ "" ∧ k ∈ fs.trail p := by
  rw [FileSystem.entry_eq_directory_iff, trail_congr h.workDir]
  simp only [h.directory_iff]

/-- What was made is there. -/
theorem entry (h : Gains ps fs fs') {p : String} (hp : p ∈ ps) (hne : p ≠ "") :
    fs'.entry p = .ok .directory :=
  h.entry_eq_directory_iff.2 ⟨h.isPath p hp hne, fun _ hk => .inr ⟨p, hp, hne, hk⟩⟩

end Gains

theorem isReach_gains_nothing : IsReach (Gains []) where
  refl := fun fs => .of_standing (isReach_standing.refl fs) fun _ h => h
  trans := fun h h' => h.trans h'

/-- **Making directories gains those on the trail of the path.** -/
theorem makeDirectories_gains {p : String} {fs fs' : FileSystem} (h : makeDirectories p fs = .ok () fs') :
    Gains [p] fs fs' := by
  have hgrown := makeDirectories_grown p fs
  rw [after_of_ok h] at hgrown
  have hthere (hp : p ≠ "") := FileSystem.entry_eq_directory_iff.1 (entry_of_makeDirectories hp h)
  refine ⟨hgrown.workDir, by simpa using fun hp => (hthere hp).1, fun k => ?_⟩
  simp only [List.mem_singleton, exists_eq_left]
  constructor
  · intro hk
    by_cases hp : p = ""
    · rw [makeDirectories_apply, if_pos hp] at h
      cases h
      exact .inl hk
    · rcases hgrown.entries k with he | ⟨htrail, -, -⟩
      · exact .inl (he ▸ hk)
      · exact .inr ⟨hp, htrail⟩
  · rintro (hk | ⟨hp, hk⟩)
    · exact hgrown.standing.directories k hk
    · rw [← trail_congr hgrown.workDir] at hk
      exact (hthere hp).2 k hk

/-! ## Operations on files -/

/-- Where a file is put, no directory comes. -/
theorem directory_of_put_file {t : FileTree} {l k : Location} {content : Bytes}
    (h : (t.put l (.file content)).get? k = some .directory) : t.get? k = some .directory := by
  rcases get?_put_cases t l (.file content) k with hput | ⟨-, hput⟩
  · rwa [hput] at h
  · rw [hput] at h
    cases h

theorem openAppend_gains (p : String) (fs : FileSystem) : Gains [] fs (after (openAppend p) fs) := by
  refine .of_standing (openAppend_standing p fs) fun k hk => ?_
  rcases openAppend_cases p fs with ⟨e, h⟩ | ⟨-, ⟨content, -, h⟩ | ⟨-, -, h⟩⟩
  · rwa [after_of_error h] at hk
  · rwa [after_of_ok h] at hk
  · rw [after_of_ok h] at hk
    exact directory_of_put_file hk

theorem append_gains (handle : AppendHandle) (bytes : Bytes) (fs : FileSystem) :
    Gains [] fs (after (append handle bytes) fs) := by
  refine .of_standing (append_standing handle bytes fs) fun k hk => ?_
  rw [after_of_ok (append_apply handle bytes fs)] at hk
  split at hk
  · exact directory_of_put_file hk
  · exact hk

theorem rename_gains (source target : String) (fs : FileSystem) :
    Gains [] fs (after (rename source target) fs) := by
  refine .of_standing (rename_standing source target fs) fun k hk => ?_
  rcases rename_cases source target fs with
    ⟨e, h⟩ | ⟨h, -⟩ | ⟨content, fs', h, hmoves⟩
  · rwa [after_of_error h] at hk
  · rwa [after_of_ok h] at hk
  · rw [after_of_ok h, hmoves.entries] at hk
    split at hk
    · cases hk
    split at hk
    · cases hk
    · exact hk

end BackupFleet.FileSystem
