import BackupFleet.Proofs.Config.Conflict
import BackupFleet.Proofs.Storage.Confinement

/-!
# `BackupFleet.Proofs.Storage.Neighbour` — what the services of one server do to another one

What is known of a server is read from three directories and what is below them. The services of another
server change only what is above or below its own directories. So they leave it alone if no directory of
the one lies inside a directory of the other. The check for conflicts gives half of that: it rules out
that two directories are the same, as long as their paths are written alike. It does not look for one
directory inside another.

## Contents

* `Unaffected`, `unaffected_of_changesOnly` — what is read of a server stays the same;
* `Near`, `cron_near`, `rebuildWalCatalog_near`, `deleteBackup_near` — what services change;
* `Unnested`, `services_leave_other_servers_alone` — two servers without a conflict;
* `nested_archive_spoils_catalog` — a directory of one server inside a directory of the other.
-/

namespace BackupFleet.Storage

open FileTree FileSystem Effect

/-! ## What is read of a server -/

/-- What is read of a server is the same, and so is all that has arrived for it. -/
structure Unaffected (c : ServerConfig) (fs fs' : FileSystem) : Prop where
  backups : listBackups c fs' = listBackups c fs
  walCatalog : readWalCatalog c fs' = readWalCatalog c fs
  arrivals : ∀ k, AtOrBelow (fs.place c.incomingWalsDirectory) k → fs'.tree.get? k = fs.tree.get? k

section Reading

variable {c : ServerConfig} {fs fs' : FileSystem}

/-- The catalog of WAL files is read from what is found at its path. -/
theorem readWalCatalog_congr (h : SameFound fs fs' (walCatalogPath c)) :
    readWalCatalog c fs' = readWalCatalog c fs := by
  have hexists := exists_congr_of_sameFound h
  unfold readWalCatalog
  dsimp only
  rw [hexists]
  by_cases hx : fs.exists_ (walCatalogPath c) = true
  · rw [if_pos hx, if_pos hx]
    obtain ⟨e, he⟩ := exists_iff.1 hx
    have hread : fs'.readText (walCatalogPath c) = fs.readText (walCatalogPath c) := by
      unfold readText readFile
      rw [he, (h e).2 he]
    rw [hread]
  · rw [if_neg hx, if_neg hx]

/-- **A change outside of the directories of a server does not affect it.** -/
theorem unaffected_of_changesOnly {S : Location → Prop} (h : ChangesOnly S fs fs')
    (hdown : ∀ p ∈ c.storagePaths, GoesDown p)
    (houtside : ∀ p ∈ c.storagePaths, ∀ k, AtOrBelow (fs.place p) k → ¬S k) : Unaffected c fs fs' := by
  refine ⟨?_, ?_, fun k hk => h.entries k (houtside _ c.incoming_mem k hk)⟩
  · exact listBackups_congr_of_sameBelow (sameBelow_of_entries (hdown _ c.base_mem) h.workDir fun k hk =>
      h.entries k (houtside _ c.base_mem k hk))
  · refine readWalCatalog_congr (sameFound_of_place ?_ h.workDir ?_)
    · exact goesDown_join (hdown _ c.wals_mem) isName_walCatalogName
    · rw [place_walCatalogPath]
      exact h.entries _ (houtside _ c.wals_mem _ (.cons walCatalogName _))

end Reading

/-! ## What services change -/

/-- The location is above or below a directory of the server, or is one. -/
def Near (c : ServerConfig) (fs : FileSystem) (k : Location) : Prop :=
  ∃ p ∈ c.storagePaths, AtOrBelow k (fs.place p) ∨ AtOrBelow (fs.place p) k

theorem near_congr {c : ServerConfig} (fs fs' : FileSystem) (hw : fs'.workDir = fs.workDir) :
    Near c fs' = Near c fs := by
  funext k
  unfold Near
  refine propext (exists_congr fun p => and_congr_right fun _ => ?_)
  rw [place_congr hw]

section Services

variable {c : ServerConfig}

theorem isReach_near (c : ServerConfig) : IsReach fun fs fs' => ChangesOnly (Near c fs) fs fs' :=
  isReach_changesOnly_at near_congr

theorem makeDirectories_near {p : String} (hp : p ∈ c.storagePaths) (hdown : GoesDown p) :
    Within (fun fs fs' => ChangesOnly (Near c fs) fs fs') (makeDirectories p) := by
  intro fs
  refine (makeDirectories_grown p fs).changesOnly.mono fun k hk => ?_
  exact ⟨p, hp, .inl (atOrBelow_of_mem_trail hdown hk)⟩

/-- The files of an archive, and the arrivals, are below directories of the server. -/
theorem near_of_inArchive {fs : FileSystem} {k : Location} (h : InArchive c fs k) : Near c fs k := by
  obtain ⟨n, rfl | rfl⟩ := h
  · exact ⟨c.walsDirectory, c.wals_mem, .inr (.cons n _)⟩
  · exact ⟨c.incomingWalsDirectory, c.incoming_mem, .inr (.cons n _)⟩

theorem cron_near (hdown : ∀ p ∈ c.storagePaths, GoesDown p) :
    Host.FilesWithin (fun fs fs' => ChangesOnly (Near c fs) fs fs') (cron c) := by
  refine cron_within (isReach_near c) (fun p hp => makeDirectories_near hp (hdown p hp)) ?_
  intro names h hlist
  exact (archivePending_changesOnly hlist).mono fun k hk => near_of_inArchive hk

theorem rebuildWalCatalog_near (hdown : GoesDown c.walsDirectory) :
    Host.FilesWithin (fun fs fs' => ChangesOnly (Near c fs) fs fs') (rebuildWalCatalog c) := by
  rw [rebuildWalCatalog_eq]
  refine Within.bind (Host.isReach_files (isReach_near c))
    (Host.FilesWithin.onFiles (makeDirectories_near c.wals_mem hdown)) fun _ _ h _ => ?_
  exact (rewriteCatalog_changesOnly c h).mono fun k hk => near_of_inArchive hk

/-- The text is one part of a path, and a name in it if the system takes it. -/
def IsOrdinary (id : String) : Prop := IsPart id ∧ id ≠ "." ∧ id ≠ ".."

theorem place_backupDir_of_isOrdinary {id : String} (h : IsOrdinary id) (c : ServerConfig)
    (fs : FileSystem) : fs.place (backupDir c id) = id :: fs.place c.basebackupsDirectory := by
  obtain ⟨hpart, hpoint, hup⟩ := h
  unfold backupDir place start
  rw [isAbsolute_join hpart, segments_join hpart, lead_append, lead_cons, lead_nil]
  unfold stepTo
  rw [if_neg hpoint, if_neg hup]

theorem deleteBackup_near {r : Catalog.Record} (hid : IsOrdinary r.id) :
    Host.FilesWithin (fun fs fs' => ChangesOnly (Near c fs) fs fs') (deleteBackup c r) := by
  refine .onFiles fun fs => (removeAll_changesOnly (backupDir c r.id) fs).mono fun k hk => ?_
  rw [place_backupDir_of_isOrdinary hid] at hk
  exact ⟨c.basebackupsDirectory, c.base_mem, .inr ((AtOrBelow.cons _ _).trans hk)⟩

end Services

/-! ## Two servers without a conflict -/

/-- No directory of one server is inside a directory of the other, no path leads up, and two paths that
    lead to the same place are written alike. -/
structure Unnested (a b : ServerConfig) (fs : FileSystem) : Prop where
  down : ∀ p ∈ a.storagePaths, GoesDown p
  down' : ∀ q ∈ b.storagePaths, GoesDown q
  alike : ∀ p ∈ a.storagePaths, ∀ q ∈ b.storagePaths, fs.place p = fs.place q → Path.SameComponents p q
  inside : ∀ p ∈ a.storagePaths, ∀ q ∈ b.storagePaths,
    AtOrBelow (fs.place p) (fs.place q) ∨ AtOrBelow (fs.place q) (fs.place p) → fs.place p = fs.place q

/-- What is near one of two servers without a conflict is in no directory of the other. -/
theorem not_near_of_unnested {a b : ServerConfig} {fs : FileSystem} (h : Unnested a b fs)
    (hdiffer : ∀ p ∈ a.storagePaths, ∀ q ∈ b.storagePaths, ¬Path.SameComponents p q) :
    ∀ q ∈ b.storagePaths, ∀ k, AtOrBelow (fs.place q) k → ¬Near a fs k := by
  rintro q hq k hk ⟨p, hp, hnear⟩
  have hrelated : AtOrBelow (fs.place p) (fs.place q) ∨ AtOrBelow (fs.place q) (fs.place p) := by
    rcases hnear with habove | hbelow
    · exact .inr (hk.trans habove)
    · exact hbelow.total hk
  exact hdiffer p hp q hq (h.alike p hp q hq (h.inside p hp q hq hrelated))

/-- **In a configuration that was loaded without a conflict, archiving, rebuilding and deleting for one
    server affects no other server**, provided that no directory of the one is inside a directory of the
    other, and that their paths are written alike and do not lead up. -/
theorem services_leave_other_servers_alone {configuration : FileSystem} {path : String} {f : Fleet}
    (hload : Fleet.load configuration path = .ok f) (hnone : f.conflicts = []) {a b : ServerConfig}
    (ha : a ∈ f.servers) (hb : b ∈ f.servers) (hne : a ≠ b) (h : Host) (hlayout : Unnested a b h.files) :
    Unaffected b h.files (after (cron a) h).files ∧
    Unaffected b h.files (after (rebuildWalCatalog a) h).files ∧
    ∀ r : Catalog.Record, IsOrdinary r.id → Unaffected b h.files (after (deleteBackup a r) h).files := by
  have houtside : ∀ q ∈ b.storagePaths, ∀ k, AtOrBelow (h.files.place q) k → ¬Near a h.files k :=
    not_near_of_unnested hlayout fun p hp q hq =>
      not_sameComponents_of_load hload hnone ha hb hne hp hq
  refine ⟨?_, ?_, fun r hid => ?_⟩
  · exact unaffected_of_changesOnly (cron_near hlayout.down h) hlayout.down' houtside
  · exact unaffected_of_changesOnly (rebuildWalCatalog_near (hlayout.down _ a.wals_mem) h) hlayout.down' houtside
  · exact unaffected_of_changesOnly (deleteBackup_near hid h) hlayout.down' houtside

/-! ### Two servers -/

namespace TwoServers

/-- A configuration of two servers, with more options for the first one. -/
def text (more : String) : String :=
  "[global]\nhome = \"srv\"\n[servers.a]\nbackup_command = \"true\"\n" ++ more ++
    "[servers.b]\nbackup_command = \"true\"\n"

/-- A file has arrived for the first server, and the second one has no backup yet. -/
def host (more : String) : Host :=
  let home : Location := ["srv"]
  let tree := (((((FileTree.empty.put home .directory).put ("a" :: home) .directory).put
    ("incoming" :: "a" :: home) .directory).put ("b" :: home) .directory).put
    ("base" :: "b" :: home) .directory)
  { (default : Host) with
    files := ⟨(tree.put ["bman.toml"] (.file (Text.encode (text more).toList))).put
      (recordName :: "incoming" :: "a" :: home) (.file [120]), [], []⟩ }

/-- The same with the archive of the first server inside a directory of the second one. -/
def nested : Host := host "wals_directory = \"srv/b/base/x\"\n"

/-- The first server, with its archive somewhere. -/
def first (archive : String) : ServerConfig :=
  { ServerConfig.new "a" "srv" with backupCommand := some "true", walsDirectory := archive }

def second : ServerConfig := { ServerConfig.new "b" "srv" with backupCommand := some "true" }

def fleet (archive : String) : Fleet :=
  ⟨{ Settings.new "bman.toml" with home := "srv", lockDirectory := "srv" }, [first archive, second], []⟩

end TwoServers

open TwoServers in
/-- Archiving for the first server leaves the second one alone. -/
theorem second_server_unaffected :
    Unaffected second (host "").files (after (cron (first "srv/a/wals")) (host "")).files := by
  have hload : Fleet.load (host "").files "bman.toml" = .ok (fleet "srv/a/wals") :=
    Fleet.load_of_toOption (by decide +kernel)
  have hlayout : Unnested (first "srv/a/wals") second (host "").files :=
    ⟨by decide +kernel, by decide +kernel, by decide +kernel, by decide +kernel⟩
  exact (services_leave_other_servers_alone hload rfl (by decide) (by decide) (by decide) _ hlayout).1

open TwoServers in
/-- **No conflict is found when one server archives into a directory below the base backups of another
    one**, and a file that is archived there can make the catalog of that server unreadable. -/
theorem nested_archive_spoils_catalog :
    Fleet.load nested.files "bman.toml" = .ok (fleet "srv/b/base/x") ∧
      (fleet "srv/b/base/x").conflicts = [] ∧ first "srv/b/base/x" ∈ (fleet "srv/b/base/x").servers ∧
      second ∈ (fleet "srv/b/base/x").servers ∧ first "srv/b/base/x" ≠ second ∧
      ¬Unaffected second nested.files (after (cron (first "srv/b/base/x")) nested).files := by
  refine ⟨Fleet.load_of_toOption (by decide +kernel), rfl, by decide, by decide, by decide, fun h => ?_⟩
  have hbefore : (listBackups second nested.files).toOption = some [] := by decide +kernel
  have hafter : (listBackups second
      (after (cron (first "srv/b/base/x")) nested).files).toOption = none := by decide +kernel
  rw [h.backups, hbefore] at hafter
  cases hafter

end BackupFleet.Storage
