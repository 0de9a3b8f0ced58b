import BackupFleet.Proofs.Catalog.Identifier
import BackupFleet.Proofs.Storage.Readability
import BackupFleet.Proofs.Storage.Records
import BackupFleet.Proofs.Storage.WalCatalog

/-!
# `BackupFleet.Proofs.Storage.Confinement` — what a look-up of a backup can see

A user names a backup by a text, and records store ids that may be any text as well. Both become parts of
paths. A look-up sees no more than what is at or below the directory of base backups all the same: a text
that could lead elsewhere is turned away before any path is made of it, and so is a stored id that an alias
stands for. A literal id sees one file only.

That two runs cannot be told apart is said of what is found at paths (`SameBelow`). The paths may lead up; if
they go down, it is enough that the entries are the same (`sameBelow_of_entries`).

Main statement: `lookup_confined_to_catalog`.

## Contents

* `SameFound.symm`, `readFile_congr`, `loadRecords_congr` — the same is found at a path;
* `SameBelow`, `sameBelow_of_entries` — the same is found at a path and below it;
* `listBackups_congr_of_sameBelow`, `getBackup_congr_of_sameBelow` — the catalog;
* `LeadsElsewhere`, `getBackup_of_leadsElsewhere` — texts that name no backup;
* `lookup_confined_to_catalog` — every text that a user can type.
-/

namespace BackupFleet.Storage

open Catalog FileTree FileSystem

/-! ## The same at a path -/

section Found

variable {fs fs' : FileSystem} {p : String}

theorem SameFound.symm (h : SameFound fs fs' p) : SameFound fs' fs p := fun e => (h e).symm

theorem sameFound_of_place (hdown : GoesDown p) (hw : fs'.workDir = fs.workDir)
    (h : fs'.tree.get? (fs.place p) = fs.tree.get? (fs.place p)) : SameFound fs fs' p := by
  intro e
  constructor
  · intro he
    refine entry_of_place hdown hw.symm ?_ he
    rw [place_congr hw]
    exact h.symm
  · exact entry_of_place hdown hw h

theorem exists_congr_of_sameFound (h : SameFound fs fs' p) : fs'.exists_ p = fs.exists_ p := by
  refine Bool.eq_iff_iff.2 ?_
  rw [exists_iff, exists_iff]
  exact exists_congr h

theorem readFile_congr (h : SameFound fs fs' p) (hfile : fs.isFile p = true) :
    fs'.readFile p = fs.readFile p := by
  obtain ⟨content, he⟩ := isFile_iff.1 hfile
  rw [readFile_eq_ok_iff.2 he, readFile_eq_ok_iff.2 ((h _).2 he)]

/-- A record is read from the content of its file. -/
theorem loadRecord_congr (h : fs'.readFile p = fs.readFile p) : loadRecord fs' p = loadRecord fs p := by
  rw [loadRecord, loadRecord, h]

theorem loadRecords_congr {paths : List String} (h : ∀ p ∈ paths, fs'.readFile p = fs.readFile p) :
    loadRecords fs' paths = loadRecords fs paths := by
  induction paths with
  | nil => rfl
  | cons p r ih =>
    obtain ⟨hp, hr⟩ := List.forall_mem_cons.1 h
    rw [loadRecords, loadRecords, ih hr, loadRecord_congr hp]

end Found

/-! ## The same at a path and below it -/

/-- The same is found at a path and at every path that goes on from it by names. -/
def SameBelow (fs fs' : FileSystem) (dir : String) : Prop :=
  ∀ names : List String, (∀ n ∈ names, Path.IsName n) → SameFound fs fs' (names.foldl Path.join dir)

section Below

variable {c : ServerConfig} {fs fs' : FileSystem} {dir : String}

theorem SameBelow.symm (h : SameBelow fs fs' dir) : SameBelow fs' fs dir :=
  fun names hnames => (h names hnames).symm

theorem SameBelow.base (h : SameBelow fs fs' dir) : SameFound fs fs' dir :=
  h [] fun _ hn => absurd hn List.not_mem_nil

theorem SameBelow.record (h : SameBelow fs fs' c.basebackupsDirectory) {name : String}
    (hname : Path.IsName name) : SameFound fs fs' (recordPath c name) := by
  refine h [name, recordName] fun n hn => ?_
  rcases List.mem_cons.1 hn with rfl | hn
  · exact hname
  · obtain rfl := List.mem_singleton.1 hn
    exact isName_recordName

/-- **Below a path that goes down the same is found if the entries there are the same.** -/
theorem sameBelow_of_entries (hdown : GoesDown dir) (hw : fs'.workDir = fs.workDir)
    (h : ∀ k, AtOrBelow (fs.place dir) k → fs'.tree.get? k = fs.tree.get? k) : SameBelow fs fs' dir := by
  intro names hnames
  induction names generalizing dir with
  | nil => exact sameFound_of_place hdown hw (h _ (.refl _))
  | cons name r ih =>
    obtain ⟨hname, hr⟩ := List.forall_mem_cons.1 hnames
    refine ih (goesDown_join hdown hname) (fun k hk => h k ?_) hr
    rw [place_join hname] at hk
    exact (AtOrBelow.cons name _).trans hk

/-! ## The catalog -/

/-- A record that a listing opens in one state is opened in the other one. -/
theorem HasRecordFile.of_sameBelow (h : SameBelow fs fs' c.basebackupsDirectory) {name : String}
    (hrecord : HasRecordFile c fs name) : HasRecordFile c fs' name := by
  obtain ⟨e, he⟩ := Option.ne_none_iff_exists'.1 hrecord.child
  have hname : Path.IsName name := isName_of_get? he
  have hfile : fs'.isFile (recordPath c name) = true := (isFile_congr (h.record hname)).trans hrecord.file
  refine ⟨(h.base _).2 hrecord.base, ?_, hfile⟩
  -- The file that is found there stands in a directory with this name.
  obtain ⟨content, hentry⟩ := isFile_iff.1 hfile
  have hat := (entry_eq_ok_iff.1 hentry).2.2
  rw [place_recordPath hname] at hat
  exact Option.ne_none_iff_exists'.2 ⟨.directory, get?_tail hat⟩

theorem recordNames_congr (h : SameBelow fs fs' c.basebackupsDirectory)
    (hbase : fs.entry c.basebackupsDirectory = .ok .directory) : recordNames c fs' = recordNames c fs := by
  refine eq_of_ascending_of_mem_iff (pairwise_recordNames c fs') (pairwise_recordNames c fs) fun name => ?_
  rw [mem_recordNames_iff hbase, mem_recordNames_iff ((h.base _).2 hbase)]
  exact ⟨HasRecordFile.of_sameBelow h.symm, HasRecordFile.of_sameBelow h⟩

/-- **A listing sees what is at or below the directory of base backups only.** -/
theorem listBackups_congr_of_sameBelow (h : SameBelow fs fs' c.basebackupsDirectory) :
    listBackups c fs' = listBackups c fs := by
  by_cases hexists : fs.exists_ c.basebackupsDirectory = true
  · obtain ⟨e, hbase⟩ := exists_iff.1 hexists
    have hbase' := (h.base e).2 hbase
    cases e with
    | file content => rw [listBackups_of_file hbase, listBackups_of_file hbase']
    | directory =>
      rw [listBackups_of_names hbase, listBackups_of_names hbase', recordNames_congr h hbase, loadRecords_congr]
      intro p hp
      obtain ⟨name, hname, rfl⟩ := List.mem_map.1 hp
      have hrecord := (mem_recordNames_iff hbase).1 hname
      obtain ⟨e, he⟩ := Option.ne_none_iff_exists'.1 hrecord.child
      exact readFile_congr (h.record (isName_of_get? he)) hrecord.file
  · have hmissing := Bool.eq_false_iff.2 hexists
    rw [listBackups_of_missing hmissing,
      listBackups_of_missing ((exists_congr_of_sameFound h.base).trans hmissing)]

/-- **A look-up of an id sees the file at one path only.** -/
theorem getBackup_congr_of_sameFound {id : String} (h : SameFound fs fs' (recordPath c id)) :
    getBackup c id fs' = getBackup c id fs := by
  by_cases hbackup : HasBackup c id fs
  · have hbackup' : HasBackup c id fs' := ⟨hbackup.1, (isFile_congr h).trans hbackup.2⟩
    rw [getBackup_of_hasBackup hbackup, getBackup_of_hasBackup hbackup',
      loadRecord_congr (readFile_congr h hbackup.2)]
  · have hbackup' : ¬HasBackup c id fs' := fun hb => hbackup ⟨hb.1, (isFile_congr h).symm.trans hb.2⟩
    rw [getBackup_of_not hbackup, getBackup_of_not hbackup']

/-- Whatever the id is, the file is below the directory of base backups, or there is none. -/
theorem getBackup_congr_of_sameBelow (h : SameBelow fs fs' c.basebackupsDirectory) (id : String) :
    getBackup c id fs' = getBackup c id fs := by
  by_cases hname : Path.IsName id
  · exact getBackup_congr_of_sameFound (h.record hname)
  · rw [getBackup_of_not fun hb => hname (isName_of_hasBackup hb),
      getBackup_of_not fun hb => hname (isName_of_hasBackup hb)]

end Below

/-! ## Texts that name no backup -/

/-- The text is empty, has a slash or a backslash in it, or starts with a point. -/
def LeadsElsewhere (id : String) : Prop :=
  id = "" ∨ '/' ∈ id.toList ∨ '\\' ∈ id.toList ∨ id.toList.head? = some '.'

instance (id : String) : Decidable (LeadsElsewhere id) := inferInstanceAs (Decidable (_ ∨ _ ∨ _ ∨ _))

theorem isPlainName_eq_false_iff {id : String} : isPlainName id = false ↔ LeadsElsewhere id := by
  unfold isPlainName LeadsElsewhere
  rw [← String.toList_eq_nil_iff]
  split
  · rename_i hnil
    simp [hnil]
  · rename_i r hpoint
    simp [hpoint]
  · rename_i hnil hpoint
    have hhead : id.toList.head? ≠ some '.' := by
      intro hh
      obtain ⟨r, hr⟩ := List.head?_eq_some_iff.1 hh
      exact hpoint r hr
    have hne : id.toList ≠ [] := hnil
    simp [hne, hhead]
    tauto

/-- **Such a text is no backup, whatever the files are.** -/
theorem getBackup_of_leadsElsewhere {id : String} (h : LeadsElsewhere id) (c : ServerConfig)
    (fs : FileSystem) : getBackup c id fs = .ok none := by
  refine getBackup_of_not fun hb => ?_
  have hplain := hb.1
  rw [isPlainName_eq_false_iff.2 h] at hplain
  cases hplain

/-- No alias is such a text. -/
theorem not_alias_of_leadsElsewhere {s : String} (h : LeadsElsewhere s) :
    s ∉ ["latest", "last", "oldest", "first"] := by
  have haliases : ∀ a ∈ ["latest", "last", "oldest", "first"], ¬LeadsElsewhere a := by decide
  exact fun hs => haliases s hs h

/-! ## Every text that a user can type -/

section Lookup

variable {c : ServerConfig} {host host' : Host} {hooks hooks' : HookRunner}

/-- **Every identifier is resolved alike in two states that agree below the directory of base backups.** -/
theorem resolve_congr_of_sameBelow (h : SameBelow host.files host'.files c.basebackupsDirectory)
    (i : Identifier) :
    i.resolve ((services hooks').lookup c host') = i.resolve ((services hooks).lookup c host) := by
  have hlist : listBackups c host'.files = listBackups c host.files := listBackups_congr_of_sameBelow h
  refine Identifier.resolve_congr ?_ fun id _ => getBackup_congr_of_sameBelow h id
  cases i with
  | latest => exact congrArg (Except.map fun l => l.getLast?.map (·.id)) hlist
  | oldest => exact congrArg (Except.map fun l => l.head?.map (·.id)) hlist
  | literal id => rw [Identifier.id?, Identifier.id?]

theorem resolve_of_literal (id : String) :
    (Identifier.literal id).resolve ((services hooks).lookup c host) = getBackup c id host.files := rfl

/-- A record that is found is that of a file two names below the directory of base backups. -/
theorem holdsRecord_of_getBackup {fs : FileSystem} {id : String} {r : Record}
    (h : getBackup c id fs = .ok (some r)) :
    ¬LeadsElsewhere id ∧ Path.IsName id ∧
      fs.place (recordPath c id) = recordName :: id :: fs.place c.basebackupsDirectory ∧
      HoldsRecord fs (recordPath c id) r := by
  have hbackup := hasBackup_of_getBackup h
  have hname := isName_of_hasBackup hbackup
  refine ⟨fun helse => ?_, hname, place_recordPath hname c fs, ?_⟩
  · rw [getBackup_of_leadsElsewhere helse] at h
    cases h
  · rw [getBackup_of_hasBackup hbackup] at h
    cases hload : loadRecord fs (recordPath c id) with
    | error f =>
      rw [hload] at h
      cases h
    | ok r' =>
      rw [hload] at h
      obtain rfl : r' = r := Option.some.inj (Except.ok.inj h)
      exact loadRecord_eq_ok_iff.1 hload

end Lookup

/-- **A look-up of a backup is confined to the catalog.** Whatever text is typed and whatever ids the records
    have, two states that agree at and below the directory of base backups give the same record, none, or the
    same fault. For a text that is no alias they need to agree on one file. A text that is empty, has a slash
    or a backslash in it or starts with a point is no backup in any state; nor is an alias for such an id. A
    record that is found is that of a file two names below the directory of base backups. -/
theorem lookup_confined_to_catalog (hooks hooks' : HookRunner) (c : ServerConfig) (host host' : Host)
    (text : String) :
    let i := Identifier.read text
    let found := i.resolve ((services hooks).lookup c host)
    let found' := i.resolve ((services hooks').lookup c host')
    (SameBelow host.files host'.files c.basebackupsDirectory → found' = found) ∧
    (text ∉ ["latest", "last", "oldest", "first"] →
      SameFound host.files host'.files (recordPath c text) → found' = found) ∧
    (LeadsElsewhere text → found = .ok none) ∧
    (∀ id, i.id? ((services hooks).lookup c host) = .ok (some id) → LeadsElsewhere id → found = .ok none) ∧
    ∀ r, found = .ok (some r) → ∃ id, i.id? ((services hooks).lookup c host) = .ok (some id) ∧
      ¬LeadsElsewhere id ∧ Path.IsName id ∧
      host.files.place (recordPath c id) = recordName :: id :: host.files.place c.basebackupsDirectory ∧
      HoldsRecord host.files (recordPath c id) r := by
  dsimp only
  refine ⟨fun h => resolve_congr_of_sameBelow h _, fun halias hsame => ?_, fun helse => ?_,
    fun id hid helse => ?_, fun r hr => ?_⟩
  · rw [Identifier.read_of_not_alias halias, resolve_of_literal, resolve_of_literal]
    exact getBackup_congr_of_sameFound hsame
  · rw [Identifier.read_of_not_alias (not_alias_of_leadsElsewhere helse), resolve_of_literal]
    exact getBackup_of_leadsElsewhere helse c host.files
  · rw [Identifier.resolve_of_id hid]
    exact getBackup_of_leadsElsewhere helse c host.files
  · obtain ⟨id, hid, hget⟩ := Identifier.exists_of_resolve hr
    exact ⟨id, hid, holdsRecord_of_getBackup hget⟩

/-! ### An id that is a path -/

namespace StoredPath

/-- One server, stored in `srv`. -/
def server : ServerConfig := ServerConfig.new "main" "srv"

/-- A record whose id leads out of the directory of base backups. -/
def record : Record := { Record.new "main" "../../out" .epoch with status := .done }

/-- A backup with this record. -/
def tree : FileTree :=
  let base : Location := ["base", "main", "srv"]
  let store := ((FileTree.empty.put ["srv"] .directory).put ["main", "srv"] .directory).put base .directory
  (store.put ("b1" :: base) .directory).put ("backup.info" :: "b1" :: base) (.file record.encode)

def host : Host := { (default : Host) with files := ⟨tree, [], []⟩ }

/-- The same with a record at the place that the id leads to. -/
def baited : Host :=
  { (default : Host) with files := ⟨(tree.put ["out", "srv"] .directory).put ["backup.info", "out", "srv"]
      (.file record.encode), [], []⟩ }

theorem sameBelow : SameBelow host.files baited.files server.basebackupsDirectory := by
  refine sameBelow_of_entries (by decide +kernel) rfl fun k hk => ?_
  have hplace : host.files.place server.basebackupsDirectory = ["base", "main", "srv"] := by decide +kernel
  rw [hplace] at hk
  have hdirectory : tree.Admits ["out", "srv"] .directory := by decide +kernel
  have hfile : (tree.put ["out", "srv"] .directory).Admits ["backup.info", "out", "srv"]
      (.file record.encode) := by decide +kernel
  have houtside : ∀ l ∈ [["out", "srv"], ["backup.info", "out", "srv"]], k ≠ l := by
    rintro l hl rfl
    exact absurd hk ((by decide : ∀ l ∈ [["out", "srv"], ["backup.info", "out", "srv"]],
      ¬AtOrBelow ["base", "main", "srv"] l) k hl)
  exact (get?_put hfile k).trans ((if_neg (houtside _ (by simp))).trans
    ((get?_put hdirectory k).trans (if_neg (houtside _ (by simp)))))

end StoredPath

open StoredPath in
/-- The alias for a stored path finds nothing, with and without a record at the end of that path. -/
theorem stored_path_not_followed :
    host.files.isFile (recordPath server "../../out") = false ∧
    baited.files.isFile (recordPath server "../../out") = true ∧
    Identifier.latest.id? ((services .idle).lookup server baited) = .ok (some "../../out") ∧
    Identifier.latest.resolve ((services .idle).lookup server host) = .ok none ∧
    Identifier.latest.resolve ((services .idle).lookup server baited) = .ok none ∧
    (Identifier.literal "b1").resolve ((services .idle).lookup server baited) = .ok (some record) := by
  obtain ⟨hsame, -, -, hnone, -⟩ := lookup_confined_to_catalog .idle .idle server host baited "latest"
  have hid : (Identifier.read "latest").id? ((services .idle).lookup server host)
      = .ok (some "../../out") := by decide +kernel
  have hhost := hnone _ hid (by decide)
  obtain ⟨-, hliteral, -⟩ := lookup_confined_to_catalog .idle .idle server host baited "b1"
  have hfound := hliteral (by decide) (sameBelow.record (by decide))
  refine ⟨by decide +kernel, by decide +kernel, by decide +kernel, hhost, (hsame sameBelow).trans hhost,
    hfound.trans ?_⟩
  decide +kernel

end BackupFleet.Storage
