import Mathlib.Data.List.Basic
import BackupFleet.Proofs.FileSystem.Made
import BackupFleet.Proofs.Storage.Holding
import BackupFleet.Proofs.Storage.Rebuilding

/-!
# `BackupFleet.Proofs.Storage.Rebuilt` — a catalog that was written anew, and written anew again

Whatever the catalog said before, a rebuild that succeeds writes into it what is in the archive, and nothing
else depends on what was there. So a second rebuild finds the same files and writes the same text. Reading
the catalog gives the names back if they can be listed; a name with a line feed in it, or with blanks at
either end, comes out of the catalog as other names than it went in.

## Contents

* `Rebuilt` — a catalog and its archive after a rebuild;
* `archived_iff_of_written`, `rebuilt_of_written` — what a rebuild that succeeds has done;
* `rebuild_again` — the second rebuild;
* `rebuilt_catalog_lists_archive` — all of it, with what is read afterwards.
-/

namespace BackupFleet.Storage

open FileTree FileSystem Effect Catalog

/-! ## What was written -/

/-- The text of the catalog is the names of the archived files, ascending and one a line, and no other file
    has changed. -/
structure Rebuilt (c : ServerConfig) (names : List String) (fs fs' : FileSystem) : Prop where
  ascending : names.Pairwise (· < ·)
  archived : ∀ m, m ∈ names ↔ Archived c fs' m
  text : fs'.readFile (walCatalogPath c) = .ok (Text.encode (names.flatMap fun name => name.toList ++ ['\n']))
  elsewhere : GrownOutside (· = fs.place (walCatalogPath c)) (· ∈ fs.trail c.walsDirectory) fs fs'

/-- In a directory that is found, the archived files are those that are at their locations. -/
theorem archived_iff_of_directory {c : ServerConfig} {fs : FileSystem}
    (hdir : fs.entry c.walsDirectory = .ok .directory) (m : String) :
    Archived c fs m ↔ Path.IsName m ∧ m ≠ walCatalogName ∧ IsPath (Path.join c.walsDirectory m) ∧
      ∃ content, fs.tree.get? (m :: fs.place c.walsDirectory) = some (.file content) :=
  and_congr_right fun hm => and_congr_right fun _ => isFile_join_of_directory hdir hm

/-- The names that are written are in strictly ascending order. -/
theorem pairwise_archivedNames {c : ServerConfig} {fs : FileSystem} {names : List String}
    (h : fs.listDirectory c.walsDirectory = .ok names) : (archivedNames c fs names).Pairwise (· < ·) := by
  refine pairwise_lt_of_nodup ?_ (nodup_archivedNames h)
  unfold archivedNames
  exact pairwise_sortOn id _

section Written

variable {c : ServerConfig} {h h' : Host} {fs fs' : FileSystem} {names : List String} {n : Nat}

/-- The directory with the catalog in it is still one after the catalog was written. -/
theorem entry_wals_of_written {content : Bytes} (hlist : fs.listDirectory c.walsDirectory = .ok names)
    (hw : writeFile (walCatalogPath c) content fs = .ok () fs') :
    fs'.entry c.walsDirectory = .ok .directory := by
  have hdir := (listDirectory_eq_ok_iff.1 hlist).1
  have hne : c.walsDirectory ≠ "" := by
    intro he
    rw [he] at hdir
    cases (entry_eq_ok_iff.1 hdir).1.1
  exact entry_of_join isName_walCatalogName hne (entry_of_writeFile hw)

/-- The same files are archived after the catalog was written. -/
theorem archived_iff_of_written {content : Bytes} (hlist : fs.listDirectory c.walsDirectory = .ok names)
    (hw : writeFile (walCatalogPath c) content fs = .ok () fs') (m : String) :
    Archived c fs' m ↔ Archived c fs m := by
  have hchange := writeFile_changesOnly (walCatalogPath c) content fs
  rw [after_of_ok hw, place_walCatalogPath] at hchange
  rw [archived_iff_of_directory (entry_wals_of_written hlist hw),
    archived_iff_of_directory (listDirectory_eq_ok_iff.1 hlist).1, place_congr hchange.workDir]
  refine and_congr_right fun _ => and_congr_right fun hm => ?_
  rw [hchange.entries (m :: fs.place c.walsDirectory) (by simpa using hm)]

theorem rebuilt_of_written (hlist : fs.listDirectory c.walsDirectory = .ok names)
    (hw : writeFile (walCatalogPath c) (Text.encode (walCatalogText (archivedNames c fs names))) fs
      = .ok () fs') : Rebuilt c (archivedNames c fs names) fs fs' where
  ascending := pairwise_archivedNames hlist
  archived := fun m => by rw [mem_archivedNames hlist, archived_iff_of_written hlist hw]
  text := readFile_eq_ok_iff.2 (entry_of_writeFile hw)
  elsewhere := by
    have hchange := writeFile_changesOnly (walCatalogPath c)
      (Text.encode (walCatalogText (archivedNames c fs names))) fs
    rw [after_of_ok hw] at hchange
    exact hchange.outside _

/-- **A second rebuild finds the same names and writes the same text.** -/
theorem rebuild_again (hlist : fs.listDirectory c.walsDirectory = .ok names)
    (hw : writeFile (walCatalogPath c) (Text.encode (walCatalogText (archivedNames c fs names))) fs
      = .ok () h'.files) :
    rebuildWalCatalog c h' = .ok (archivedNames c fs names).length h' := by
  have hdir := entry_wals_of_written hlist hw
  have hlist' := listDirectory_eq_ok_iff.2 ⟨hdir, rfl⟩
  have hnames : archivedNames c h'.files (h'.files.tree.childNames (h'.files.place c.walsDirectory))
      = archivedNames c fs names := by
    refine eq_of_ascending_of_mem_iff (pairwise_archivedNames hlist') (pairwise_archivedNames hlist)
      fun m => ?_
    rw [mem_archivedNames hlist', mem_archivedNames hlist, archived_iff_of_written hlist hw]
  rw [rebuildWalCatalog_eq, bind_apply, Host.onFiles_apply, makeDirectories_of_directory hdir]
  show rewriteCatalog c h' = _
  rw [rewriteCatalog_apply, hlist']
  simp only [hnames, writeFile_again hw]

end Written

/-! ## What is read afterwards -/

/-- **A rebuild that succeeds makes the catalog list the archive.** It has the names of the archived files,
    ascending and one a line, whatever it said before; no other file changes; and a second rebuild gives the
    same answer and changes nothing. If the names can be listed, they are what is read from the catalog, and
    their number is what the status and the diagnosis tell. -/
theorem rebuilt_catalog_lists_archive {c : ServerConfig} {h h' : Host} {n : Nat}
    (hr : rebuildWalCatalog c h = .ok n h') :
    h' = { h with files := h'.files } ∧
    ∃ names, Rebuilt c names h.files h'.files ∧ n = names.length ∧ rebuildWalCatalog c h' = .ok n h' ∧
      ((∀ m ∈ names, '\n' ∉ m.toList ∧ Text.trim m.toList = m.toList) →
        readWalCatalog c h'.files = .ok names ∧
        ∀ backups, listBackups c h'.files = .ok backups →
          status c h'.files = .ok (statusLines c backups n) ∧
          ∃ statuses, diagnose c h'.files
            = .ok (.ofFields [("config", c.toJson), ("backups", statuses), ("wal_files", .count n)])) := by
  obtain ⟨fs, names, hmake, hlist, hw, rfl, hhost⟩ := rebuildWalCatalog_ok hr
  have hgrown := makeDirectories_grown c.walsDirectory h.files
  rw [after_of_ok hmake] at hgrown
  have hwritten := rebuilt_of_written hlist hw
  have hrebuilt : Rebuilt c (archivedNames c fs names) h.files h'.files := by
    refine { hwritten with elsewhere := ?_ }
    have helsewhere := hwritten.elsewhere
    rw [place_congr hgrown.workDir, trail_congr hgrown.workDir] at helsewhere
    exact (hgrown.outside _).trans helsewhere
  refine ⟨hhost, _, hrebuilt, rfl, rebuild_again hlist hw, fun hlines => ?_⟩
  have hlistable : ∀ m ∈ archivedNames c fs names, Listable m := fun m hm =>
    ⟨((hrebuilt.archived m).1 hm).1.1, hlines m hm⟩
  have hread : readWalCatalog c h'.files = .ok (archivedNames c fs names) := by
    refine readWalCatalog_eq_ok_iff.2 ⟨_, .inr ⟨_, readFile_eq_ok_iff.1 hrebuilt.text,
      Text.decode_encode _⟩, (walNames_walCatalogText hlistable).symm⟩
  refine ⟨hread, fun backups hbackups => ⟨status_of_catalogs hbackups hread, ?_⟩⟩
  unfold diagnose
  rw [hbackups, hread]
  exact ⟨_, rfl⟩

/-! ### A catalog that was out of date -/

namespace StaleCatalog

/-- One server, stored in `srv`. -/
def server : ServerConfig := ServerConfig.new "main" "srv"

/-- Two archived files and a directory beside them, and a catalog that lists another file. -/
def host : Host :=
  let home : Location := ["main", "srv"]
  let wals : Location := "wals" :: home
  let tree := (((FileTree.empty.put ["srv"] .directory).put home .directory).put wals .directory).put
    ("history" :: wals) .directory
  { (default : Host) with
    files := ⟨((tree.put ("B" :: wals) (.file [1])).put ("A" :: wals) (.file [2])).put
      (walCatalogName :: wals) (.file (Text.encode (walCatalogText ["C"]))), [], []⟩ }

end StaleCatalog

open StaleCatalog in
/-- The two files are listed in order, the directory and the other file are not. -/
theorem stale_catalog_rebuilt :
    readWalCatalog server host.files = .ok ["C"] ∧
    ∃ h', rebuildWalCatalog server host = .ok 2 h' ∧ rebuildWalCatalog server h' = .ok 2 h' ∧
      Rebuilt server ["A", "B"] host.files h'.files ∧ readWalCatalog server h'.files = .ok ["A", "B"] := by
  have hr := eq_ok_of_result? (show result? (rebuildWalCatalog server) host = some 2 by decide +kernel)
  obtain ⟨-, names, hrebuilt, hlength, hagain, hread⟩ := rebuilt_catalog_lists_archive hr
  -- The two files are archived, and there are no more than two names.
  have hA : "A" ∈ names := (hrebuilt.archived "A").2 (by decide +kernel)
  have hB : "B" ∈ names := (hrebuilt.archived "B").2 (by decide +kernel)
  obtain ⟨first, second, rfl⟩ := List.length_eq_two.1 hlength.symm
  have horder : first < second := List.pairwise_pair.1 hrebuilt.ascending
  obtain ⟨rfl, rfl⟩ : "A" = first ∧ "B" = second := by
    simp only [List.mem_cons, List.not_mem_nil, or_false] at hA hB
    rcases hA with rfl | rfl
    · exact ⟨rfl, hB.resolve_left (by decide)⟩
    · obtain rfl := hB.resolve_right (by decide)
      exact absurd horder (by decide)
  exact ⟨by rfl, _, hr, hagain, hrebuilt, (hread (by decide)).1⟩

end BackupFleet.Storage
