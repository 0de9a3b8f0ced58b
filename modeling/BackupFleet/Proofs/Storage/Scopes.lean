import BackupFleet.Proofs.FileSystem.Listing
import BackupFleet.Storage.Reading

/-!
# `BackupFleet.Proofs.Storage.Scopes` — how the listings of a backup are put together

A scope selects parts: the files of the copy, and WAL files from the catalog. The first part is what a walk
from the data directory finds, and finding it cannot fail; a listing fails only where the catalogs that it
asks cannot be read. So one listing is told from another one.

The walk does not tell the files below the data directory in every state. Where a file has the place of the
directory, that file is told, and a directory whose path has become too long for the system is passed over
with all that is in it (`data_scope_is_not_exact`).

## Contents

* `listFiles_data`, `listFiles_full`, `listFiles_standalone`, `listFiles_of_none` — one scope each;
* `file_scopes_compose` — all of them;
* `TellsAllBelow`, `data_scope_is_not_exact` — two states in which the walk tells something else.
-/

namespace BackupFleet.Storage

open FileTree FileSystem Catalog

/-! ## The scopes -/

section Scopes

variable {c : ServerConfig} {r : Record} {fs : FileSystem}

theorem listFiles_data : listFiles c r .data fs = .ok (dataFiles c r fs) := by
  unfold listFiles
  cases r.beginWal <;> rfl

/-- Without a first WAL file, a listing has no WAL files. -/
theorem listFiles_of_none (h : r.beginWal = none) (scope : FileScope) :
    listFiles c r scope fs = .ok (if scope = .wal then [] else dataFiles c r fs) := by
  unfold listFiles
  rw [h]
  cases scope <;> rfl

/-- **The full listing is the data and the WAL files**, and fails where the listing of the WAL files does. -/
theorem listFiles_full : listFiles c r .full fs = (listFiles c r .wal fs).map (dataFiles c r fs ++ ·) := by
  cases hfirst : r.beginWal with
  | none =>
    rw [listFiles_of_none hfirst, listFiles_of_none hfirst]
    simp [Except.map]
  | some first =>
    unfold listFiles
    simp only [hfirst]
    cases walsUntilNext c r first fs <;> rfl

/-- The listing of a backup alone has the WAL files from its first one up to its last one. -/
theorem listFiles_standalone {first : String} (hfirst : r.beginWal = some first) :
    listFiles c r .standalone fs = (readWalCatalog c fs).map fun wals =>
      dataFiles c r fs ++ (wals.filter fun wal =>
        decide (first ≤ wal ∧ wal ≤ r.endWal.getD first)).map (Path.join c.walsDirectory) := by
  unfold listFiles walFiles
  simp only [hfirst, WalEnd.covers]
  cases readWalCatalog c fs with
  | error f => rfl
  | ok wals => simp [Except.map, Bool.decide_and, bind, Except.bind, pure, Except.pure]

end Scopes

/-- **How the scopes are put together.** The data scope cannot fail: its paths are those of the files that a
    walk from the data directory finds, ascending, none of them twice. The full scope is the data scope and
    then the WAL scope, and fails as that one does. The standalone scope is the data scope and then the
    catalogued WAL files from the first to the last one of the backup, in the order of the catalog; it fails
    if the catalog cannot be read. Without a first WAL file no scope has WAL files, and none fails. -/
theorem file_scopes_compose (c : ServerConfig) (r : Record) (fs : FileSystem) :
    ∃ data : List String, data.Pairwise (· < ·) ∧
      (∀ q, q ∈ data ↔ FoundFrom fs (dataDir c r.id) q) ∧
      ((∀ e, fs.entry (dataDir c r.id) ≠ .ok e) → data = []) ∧
      listFiles c r .data fs = .ok data ∧
      listFiles c r .full fs = (listFiles c r .wal fs).map (data ++ ·) ∧
      (∀ first, r.beginWal = some first → listFiles c r .standalone fs =
        (readWalCatalog c fs).map fun wals => data ++ (wals.filter fun wal =>
          decide (first ≤ wal ∧ wal ≤ r.endWal.getD first)).map (Path.join c.walsDirectory)) ∧
      (r.beginWal = none → listFiles c r .wal fs = .ok [] ∧ listFiles c r .standalone fs = .ok data ∧
        listFiles c r .full fs = .ok data) := by
  refine ⟨dataFiles c r fs, pairwise_filesUnder fs _, fun q => mem_filesUnder_iff, fun hmissing => ?_,
    listFiles_data, listFiles_full, fun first => listFiles_standalone, fun hnone => ?_⟩
  · cases hentry : fs.entry (dataDir c r.id) with
    | error e => exact filesUnder_of_error hentry
    | ok e => exact absurd hentry (hmissing e)
  · exact ⟨listFiles_of_none hnone .wal, listFiles_of_none hnone .standalone,
      listFiles_of_none hnone .full⟩

/-! ### A file in the place of the directory, and a directory with a long path -/

/-- The data scope tells the files below the data directory, at any depth: all of them, and no others. -/
def TellsAllBelow (c : ServerConfig) (r : Record) (fs : FileSystem) : Prop :=
  ∃ data, listFiles c r .data fs = .ok data ∧ ∀ q, q ∈ data ↔
    ∃ (dirs : List String) (name : String) (content : Bytes),
      fs.tree.get? (name :: (dirs.reverse ++ fs.place (dataDir c r.id))) = some (.file content) ∧
        q = Path.join (dirs.foldl Path.join (dataDir c r.id)) name

section Inexact

variable {c : ServerConfig} {r : Record} {fs : FileSystem}

/-- Where a file has the place of the data directory, it is told, and nothing is below it. -/
theorem not_tellsAllBelow_of_file {content : Bytes}
    (h : fs.entry (dataDir c r.id) = .ok (.file content)) : ¬TellsAllBelow c r fs := by
  rintro ⟨data, hlist, hall⟩
  obtain rfl : dataFiles c r fs = data := Except.ok.inj (listFiles_data.symm.trans hlist)
  have htold : dataDir c r.id ∈ dataFiles c r fs := mem_filesUnder_iff.2 (.itself h)
  obtain ⟨dirs, name, content', hget, -⟩ := (hall _).1 htold
  have hdirectory := (get?_directory_of_below hget).symm.trans (entry_eq_ok_iff.1 h).2.2
  cases hdirectory

/-- A file in a directory that cannot be gone into is not told. -/
theorem not_tellsAllBelow_of_passed_over {dirs : List String} {name : String} {content : Bytes}
    (hget : fs.tree.get? (name :: (dirs.reverse ++ fs.place (dataDir c r.id))) = some (.file content))
    (hnot : canEnter (dataDir c r.id) dirs = false) : ¬TellsAllBelow c r fs := by
  rintro ⟨data, hlist, hall⟩
  obtain rfl : dataFiles c r fs = data := Except.ok.inj (listFiles_data.symm.trans hlist)
  have htold : FoundFrom fs (dataDir c r.id) _ :=
    mem_filesUnder_iff.1 ((hall _).2 ⟨dirs, name, content, hget, rfl⟩)
  generalize hq : Path.join (dirs.foldl Path.join (dataDir c r.id)) name = q at htold
  rcases htold with hentry | ⟨-, henter, hget'⟩
  · have hdirectory := (get?_directory_of_below hget).symm.trans (entry_eq_ok_iff.1 hentry).2.2
    cases hdirectory
  · -- The path of a file tells the directories that it is in.
    rename_i dirs' name' content'
    have hways : dirs ++ [name] = dirs' ++ [name'] := by
      refine foldl_join_injective (p := dataDir c r.id) ?_ ?_ (by simpa using hq)
      · exact fun n hn => isPart_of_isName (isName_of_get?_below (l := fs.place (dataDir c r.id))
          (by simpa using hget) n hn)
      · exact fun n hn => isPart_of_isName (isName_of_get?_below (l := fs.place (dataDir c r.id))
          (by simpa using hget') n hn)
    rw [(List.append_inj' hways rfl).1, henter] at hnot
    cases hnot

end Inexact

namespace OddData

/-- A backup without WAL files. -/
def backup : Record := Record.new "main" "b1" .epoch

/-- One server, stored in `srv`. -/
def server : ServerConfig := ServerConfig.new "main" "srv"

/-- The directory of the backup, and a file where the data directory should be. -/
def files : FileSystem :=
  let base : Location := ["base", "main", "srv"]
  let tree := ((((FileTree.empty.put ["srv"] .directory).put ["main", "srv"] .directory).put base
    .directory).put ("b1" :: base) .directory)
  ⟨tree.put ("data" :: "b1" :: base) (.file [120]), [], []⟩

/-- The path of the directory `srv/base`, with as many slashes between its names. -/
def spelled (slashes : Nat) : String := "srv" ++ String.ofList (List.replicate slashes '/') ++ "base"

/-- A server whose base backups are stored under a path of 4080 bytes. -/
def longServer : ServerConfig := { server with basebackupsDirectory := spelled 4073 }

/-- A file in a directory of the data directory. -/
def longFiles : FileSystem :=
  let base : Location := ["base", "srv"]
  let data : Location := "data" :: "b1" :: base
  let tree := ((((FileTree.empty.put ["srv"] .directory).put base .directory).put ("b1" :: base)
    .directory).put data .directory).put ("subdirectory" :: data) .directory
  ⟨tree.put ("file" :: "subdirectory" :: data) (.file [120]), [], []⟩

theorem utf8ByteSize_spelled (n : Nat) : (spelled n).utf8ByteSize = n + 7 := by
  have hslashes : (String.ofList (List.replicate n '/')).utf8ByteSize = n := by
    induction n with
    | zero => rfl
    | succ n ih =>
      rw [List.replicate_succ, String.ofList_cons, String.utf8ByteSize_append, ih,
        String.utf8ByteSize_singleton, Nat.add_comm]
      rfl
  have hfirst : "srv".utf8ByteSize = 3 := by decide
  have hlast : "base".utf8ByteSize = 4 := by decide
  unfold spelled
  rw [String.utf8ByteSize_append, String.utf8ByteSize_append, hslashes, hfirst, hlast]
  omega

/-- Slashes at the start of a text separate like none. -/
theorem segments_slashes (n : Nat) (cs : List Char) :
    Path.segments (String.ofList (List.replicate n '/' ++ cs)) = Path.segments (String.ofList cs) := by
  induction n with
  | zero => rfl
  | succ n ih =>
    have hsplit := segments_append_slash [] (List.replicate n '/' ++ cs)
    rw [List.nil_append] at hsplit
    rw [List.replicate_succ, List.cons_append, hsplit, ih]
    rfl

/-- The path leads to the same place however many slashes it has. -/
theorem place_spelled (n : Nat) (fs : FileSystem) (hw : fs.workDir = []) :
    fs.place (spelled (n + 1)) = ["base", "srv"] := by
  have hspelled : spelled (n + 1)
      = String.ofList ("srv".toList ++ '/' :: (List.replicate n '/' ++ "base".toList)) := by
    unfold spelled
    rw [← String.toList_inj]
    simp [List.replicate_succ]
  have hsegments : Path.segments (spelled (n + 1)) = ["srv", "base"] := by
    rw [hspelled, segments_append_slash, segments_slashes]
    decide
  have hstart : fs.start (spelled (n + 1)) = [] := by
    unfold start
    rw [hw, ite_self]
  unfold place
  rw [hstart, hsegments]
  rfl

/-- Below a path of that length, the path of the inner directory is too long. -/
theorem not_canEnter_subdirectory {c : ServerConfig} (h : 4080 ≤ c.basebackupsDirectory.utf8ByteSize) :
    canEnter (dataDir c "b1") ["subdirectory"] = false := by
  have hb1 := utf8ByteSize_le_join (isPart_of_isName (by decide : Path.IsName "b1"))
    c.basebackupsDirectory
  have hdata := utf8ByteSize_le_join (isPart_of_isName (by decide : Path.IsName "data"))
    (Path.join c.basebackupsDirectory "b1")
  have hinner := utf8ByteSize_le_join (isPart_of_isName (by decide : Path.IsName "subdirectory"))
    (Path.join (Path.join c.basebackupsDirectory "b1") "data")
  have hsizes : "b1".utf8ByteSize = 2 ∧ "data".utf8ByteSize = 4 ∧ "subdirectory".utf8ByteSize = 12 := by
    decide
  refine Bool.eq_false_iff.2 fun henter => ?_
  have hfits := utf8ByteSize_lt_of_pathError (canEnter_iff.1 henter)
  unfold dataDir backupDir pathLimit at hfits
  rw [List.foldl_cons, List.foldl_nil] at hfits
  omega

/-- The path has 4080 bytes. -/
theorem utf8ByteSize_base_longServer : longServer.basebackupsDirectory.utf8ByteSize = 4080 := by
  rw [show longServer.basebackupsDirectory = spelled 4073 from rfl, utf8ByteSize_spelled]

end OddData

open OddData in
/-- **The data scope may tell a file that is not below the data directory, and pass over one that is.** -/
theorem data_scope_is_not_exact :
    ¬TellsAllBelow server backup files ∧ ¬TellsAllBelow longServer backup longFiles := by
  obtain ⟨content, hfile⟩ := isFile_iff.1
    (show files.isFile (dataDir server backup.id) = true by decide +kernel)
  have hplace : longFiles.place (dataDir longServer backup.id) = ["data", "b1", "base", "srv"] := by
    unfold dataDir backupDir
    rw [place_join (by decide), place_join (by decide)]
    exact congrArg (fun l => "data" :: "b1" :: l) (place_spelled 4072 longFiles rfl)
  have hinner : longFiles.tree.get?
      ("file" :: (["subdirectory"].reverse ++ longFiles.place (dataDir longServer backup.id)))
        = some (.file [120]) := by
    rw [hplace]
    decide +kernel
  have hlong := not_canEnter_subdirectory (Nat.le_of_eq utf8ByteSize_base_longServer.symm)
  exact ⟨not_tellsAllBelow_of_file hfile, not_tellsAllBelow_of_passed_over hinner hlong⟩

end BackupFleet.Storage
