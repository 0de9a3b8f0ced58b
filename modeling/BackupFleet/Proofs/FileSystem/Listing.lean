import BackupFleet.Proofs.FileSystem.Made

/-!
# `BackupFleet.Proofs.FileSystem.Listing` — the files below a directory

A listing goes through a directory and the directories in it, and tells each file by the path that was
built up on the way. The way is a list of names, and different lists of names give different paths, so no
path is told twice. Only the paths of directories are given back to the system; if it does not take the path
of one, the files in that directory are passed over. A listing that starts at a file tells that file.

## Contents

* `segments_foldl_join`, `foldl_join_injective`, `utf8ByteSize_le_join` — paths that are built up;
* `FoundFrom`, `mem_filesUnder_iff` — which files are listed;
* `pairwise_filesUnder` — their order.
-/

namespace BackupFleet.FileSystem

open FileTree

/-! ## Paths that are built up -/

theorem segments_foldl_join {names : List String} (h : ∀ n ∈ names, IsPart n) (p : String) :
    Path.segments (names.foldl Path.join p) = Path.segments p ++ names := by
  induction names generalizing p with
  | nil => simp
  | cons name r ih =>
    obtain ⟨hname, hr⟩ := List.forall_mem_cons.1 h
    rw [List.foldl_cons, ih hr, segments_join hname, List.append_assoc, List.singleton_append]

/-- **Different names lead to different paths.** -/
theorem foldl_join_injective {a b : List String} (ha : ∀ n ∈ a, IsPart n) (hb : ∀ n ∈ b, IsPart n)
    {p : String} (h : a.foldl Path.join p = b.foldl Path.join p) : a = b := by
  have hsegments := congrArg Path.segments h
  rw [segments_foldl_join ha, segments_foldl_join hb] at hsegments
  exact List.append_cancel_left hsegments

/-- A path with a name more is longer. -/
theorem utf8ByteSize_le_join {name : String} (h : IsPart name) (dir : String) :
    dir.utf8ByteSize + name.utf8ByteSize ≤ (Path.join dir name).utf8ByteSize := by
  rcases join_cases h dir with ⟨hd, hj⟩ | ⟨d, hd, hj⟩ | ⟨-, hj⟩
  · rw [hj, hd]
    simp
  · have hsplit : String.ofList (d ++ '/' :: name.toList) = String.ofList (d ++ ['/']) ++ name := by
      rw [← String.toList_inj]
      simp
    have hsize : (Path.join dir name).utf8ByteSize = dir.utf8ByteSize + name.utf8ByteSize := by
      rw [hj, hsplit, String.utf8ByteSize_append, ← hd]
    exact Nat.le_of_eq hsize.symm
  · rw [hj, String.ofList_append, String.ofList_cons, String.utf8ByteSize_append,
      String.utf8ByteSize_append, String.ofList_toList, String.ofList_toList]
    omega

/-- A path that the system takes is within the limit. -/
theorem utf8ByteSize_lt_of_pathError {p : String} (h : pathError p = none) :
    p.utf8ByteSize < pathLimit := by
  unfold pathError at h
  refine Nat.not_le.1 fun hlimit => ?_
  rw [if_pos hlimit] at h
  split at h
  · cases h
  · split at h <;> cases h

theorem canEnter_iff {p : String} {names : List String} :
    canEnter p names = true ↔ pathError (names.foldl Path.join p) = none :=
  Option.isNone_iff_eq_none

/-- The names that lead to an entry are names that a walk can ask for. -/
theorem isName_of_get?_below {t : FileTree} {names : List String} {l : Location} {e : Entry}
    (h : t.get? (names.reverse ++ l) = some e) : ∀ n ∈ names, Path.IsName n := by
  intro n hn
  obtain ⟨before, after, hsplit⟩ := List.append_of_mem hn
  have habove : AtOrBelow (n :: (before.reverse ++ l)) (names.reverse ++ l) :=
    atOrBelow_iff.2 ⟨after.reverse, by simp [hsplit]⟩
  by_cases heq : n :: (before.reverse ++ l) = names.reverse ++ l
  · exact isName_of_get? (heq ▸ h)
  · exact isName_of_get? (get?_above h habove heq)

/-! ## Which files are listed -/

/-- A listing that starts at a path tells the file at another path: the file that it starts at, or one that
    is below the directory that it starts at, in a directory whose path the system takes. -/
inductive FoundFrom (fs : FileSystem) (p : String) : String → Prop
  | itself {content : Bytes} (h : fs.entry p = .ok (.file content)) : FoundFrom fs p p
  | below {dirs : List String} {name : String} {content : Bytes} (h : fs.entry p = .ok .directory)
      (enter : canEnter p dirs = true)
      (file : fs.tree.get? (name :: (dirs.reverse ++ fs.place p)) = some (.file content)) :
      FoundFrom fs p (Path.join (dirs.foldl Path.join p) name)

section Listing

variable {fs : FileSystem} {p : String}

theorem filesUnder_of_file {content : Bytes} (h : fs.entry p = .ok (.file content)) :
    fs.filesUnder p = [p] := by
  obtain ⟨hp, hway, hget⟩ := entry_eq_ok_iff.1 h
  unfold filesUnder
  rw [locate_eq_ok_iff.2 ⟨hp, hway, rfl⟩]
  simp only [hget]

/-- The lists of names that lead to the files that are listed. -/
def waysUnder (fs : FileSystem) (p : String) : List (List String) :=
  (fs.tree.filesBelow (fs.place p)).filter fun names => canEnter p names.dropLast

theorem filesUnder_of_directory (h : fs.entry p = .ok .directory) :
    fs.filesUnder p = sortOn id ((fs.waysUnder p).map fun names => names.foldl Path.join p) := by
  obtain ⟨hp, hway, hget⟩ := entry_eq_ok_iff.1 h
  unfold filesUnder
  rw [locate_eq_ok_iff.2 ⟨hp, hway, rfl⟩]
  simp only [hget]
  rfl

theorem filesUnder_of_error {e : FileError} (h : fs.entry p = .error e) : fs.filesUnder p = [] := by
  unfold filesUnder
  cases hl : fs.locate p with
  | error e => rfl
  | ok l =>
    obtain ⟨hp, hway, rfl⟩ := locate_eq_ok_iff.1 hl
    dsimp only
    cases hget : fs.tree.get? (fs.place p) with
    | none => rfl
    | some found =>
      rw [entry_eq_ok_iff.2 ⟨hp, hway, hget⟩] at h
      cases h

/-- A way to a file goes through directories and ends with the name of the file. -/
theorem mem_waysUnder {names : List String} :
    names ∈ fs.waysUnder p ↔ ∃ dirs name content, names = dirs ++ [name] ∧ canEnter p dirs = true ∧
      fs.tree.get? (name :: (dirs.reverse ++ fs.place p)) = some (.file content) := by
  unfold waysUnder
  rw [List.mem_filter, mem_filesBelow]
  constructor
  · rintro ⟨⟨hne, content, hget⟩, henter⟩
    obtain ⟨dirs, name, rfl⟩ := (List.eq_nil_or_concat names).resolve_left hne
    rw [List.concat_eq_append] at *
    exact ⟨dirs, name, content, rfl, by simpa using henter, by simpa using hget⟩
  · rintro ⟨dirs, name, content, rfl, henter, hget⟩
    exact ⟨⟨by simp, content, by simpa using hget⟩, by simpa using henter⟩

theorem isPart_of_mem_waysUnder {names : List String} (h : names ∈ fs.waysUnder p) :
    ∀ n ∈ names, IsPart n := by
  obtain ⟨-, content, hget⟩ := mem_filesBelow.1 (List.mem_filter.1 h).1
  exact fun n hn => isPart_of_isName (isName_of_get?_below hget n hn)

/-- **The files that are listed are those that are found from the path.** -/
theorem mem_filesUnder_iff {q : String} : q ∈ fs.filesUnder p ↔ FoundFrom fs p q := by
  cases hentry : fs.entry p with
  | error e =>
    rw [filesUnder_of_error hentry]
    refine iff_of_false List.not_mem_nil ?_
    rintro (hfile | hdir)
    · rw [hentry] at hfile
      cases hfile
    · rw [hentry] at hdir
      cases hdir
  | ok e =>
    cases e with
    | file content =>
      rw [filesUnder_of_file hentry, List.mem_singleton]
      constructor
      · rintro rfl
        exact .itself hentry
      · rintro (- | hdir)
        · rfl
        · rw [hentry] at hdir
          cases hdir
    | directory =>
      rw [filesUnder_of_directory hentry, mem_sortOn, List.mem_map]
      constructor
      · rintro ⟨names, hmem, rfl⟩
        obtain ⟨dirs, name, content, rfl, henter, hget⟩ := mem_waysUnder.1 hmem
        rw [List.foldl_append]
        exact .below hentry henter hget
      · rintro (hfile | ⟨-, henter, hget⟩)
        · rw [hentry] at hfile
          cases hfile
        · exact ⟨_, mem_waysUnder.2 ⟨_, _, _, rfl, henter, hget⟩, List.foldl_append⟩

/-- **The files are listed in ascending order of their paths, and no path twice.** -/
theorem pairwise_filesUnder (fs : FileSystem) (p : String) : (fs.filesUnder p).Pairwise (· < ·) := by
  cases hentry : fs.entry p with
  | error e =>
    rw [filesUnder_of_error hentry]
    exact .nil
  | ok e =>
    cases e with
    | file content =>
      rw [filesUnder_of_file hentry]
      exact List.pairwise_singleton _ _
    | directory =>
      rw [filesUnder_of_directory hentry]
      refine pairwise_lt_of_nodup (pairwise_sortOn id _) ((sortOn_perm id _).nodup_iff.2 ?_)
      have hways : (fs.waysUnder p).Nodup := (nodup_filesBelow _ _).sublist List.filter_sublist
      refine List.pairwise_map.2 (hways.imp_of_mem fun ha hb hne he => hne ?_)
      exact foldl_join_injective (isPart_of_mem_waysUnder ha) (isPart_of_mem_waysUnder hb) he

end Listing

end BackupFleet.FileSystem
