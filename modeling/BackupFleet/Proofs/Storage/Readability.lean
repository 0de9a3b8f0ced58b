import BackupFleet.Proofs.Catalog.Identifier
import BackupFleet.Proofs.Storage.Catalog
import BackupFleet.Proofs.Storage.RecordFile
import Mathlib.Data.List.Forall2

/-!
# `BackupFleet.Proofs.Storage.Readability` — a catalog that can be read, and one that cannot

The catalog of backups is reached on several routes. A listing opens every record below the directory of
base backups; the aliases, the status, the check and the diagnosis all start from a listing. So one damaged
record stops them all, with one fault. A look-up of one backup opens one record, and damage elsewhere does
not concern it.

Whether a catalog can be read is a matter of the files alone. What else is in the directory (stray files,
directories without a record, a directory in the place of a record) does not count.

Main statement: `catalog_readability_judged_alike`.

## Contents

* `HoldsRecord`, `loadRecord_eq_ok_iff`, `damaged_of_loadRecord` — one record;
* `loadRecords_eq_ok_iff`, `exists_loadRecords_iff`, `exists_of_loadRecords_error` — several records;
* `HasRecordFile`, `recordNames`, `listBackups_of_names` — the records that a listing opens;
* `CatalogReadable`, `IsListing`, `CatalogFault` — what a listing comes to;
* `catalog_readability_judged_alike` — every route to the catalog.
-/

namespace BackupFleet.Storage

open Catalog FileTree FileSystem

/-! ## Records -/

/-- The file at the end of a path decodes to this record. -/
def HoldsRecord (fs : FileSystem) (path : String) (r : Record) : Prop :=
  ∃ content, fs.entry path = .ok (.file content) ∧ Record.decode content = .ok r

section Records

variable {fs : FileSystem} {path : String} {paths : List String}

theorem loadRecord_of_readFile {content : Bytes} (h : fs.readFile path = .ok content) :
    loadRecord fs path = match Record.decode content with
      | .ok r => .ok r
      | .error e => .error (.undecodable path e) := by
  cases hdecode : Record.decode content with
  | ok r => exact loadRecord_of_decode h hdecode
  | error e => exact loadRecord_of_decode_error h hdecode

theorem loadRecord_eq_ok_iff {r : Record} : loadRecord fs path = .ok r ↔ HoldsRecord fs path r := by
  constructor
  · intro h
    cases hread : fs.readFile path with
    | error e =>
      unfold loadRecord at h
      rw [hread] at h
      cases h
    | ok content =>
      refine ⟨content, readFile_eq_ok_iff.1 hread, ?_⟩
      rw [loadRecord_of_readFile hread] at h
      cases hdecode : Record.decode content with
      | ok r' =>
        rw [hdecode] at h
        exact congrArg Except.ok (Except.ok.inj h)
      | error e =>
        rw [hdecode] at h
        cases h
  · rintro ⟨content, hentry, hdecode⟩
    exact loadRecord_of_decode (readFile_eq_ok_iff.2 hentry) hdecode

/-- A file that is there but gives no record does not decode, and the fault says so. -/
theorem damaged_of_loadRecord {f : Fault} (hfile : fs.isFile path = true)
    (h : loadRecord fs path = .error f) :
    ∃ content e, fs.entry path = .ok (.file content) ∧ Record.decode content = .error e ∧
      f = .undecodable path e := by
  obtain ⟨content, hentry⟩ := isFile_iff.1 hfile
  rw [loadRecord_of_readFile (readFile_eq_ok_iff.2 hentry)] at h
  cases hdecode : Record.decode content with
  | ok r =>
    rw [hdecode] at h
    cases h
  | error e =>
    rw [hdecode] at h
    exact ⟨content, e, hentry, hdecode, (Except.error.inj h).symm⟩

/-- What is loaded from several files is what they hold, one after the other. -/
theorem loadRecords_eq_ok_iff {l : List Record} :
    loadRecords fs paths = .ok l ↔ List.Forall₂ (HoldsRecord fs) paths l := by
  induction paths generalizing l with
  | nil =>
    rw [List.forall₂_nil_left_iff, loadRecords]
    exact ⟨fun h => (Except.ok.inj h).symm, fun h => by rw [h]⟩
  | cons path r ih =>
    rw [loadRecords, List.forall₂_cons_left_iff]
    simp only [← ih, ← loadRecord_eq_ok_iff]
    cases loadRecord fs path with
    | error f => simp [bind, Except.bind]
    | ok first =>
      cases loadRecords fs r with
      | error f => simp [bind, Except.bind]
      | ok rest => simp [bind, Except.bind, pure, Except.pure, eq_comm]

theorem exists_loadRecords_iff :
    (∃ l, loadRecords fs paths = .ok l) ↔ ∀ p ∈ paths, ∃ r, HoldsRecord fs p r := by
  simp only [loadRecords_eq_ok_iff]
  constructor
  · rintro ⟨l, hl⟩ p hp
    induction hl with
    | nil => cases hp
    | cons hfirst _ ih =>
      rcases List.mem_cons.1 hp with rfl | hp
      · exact ⟨_, hfirst⟩
      · exact ih hp
  · intro h
    induction paths with
    | nil => exact ⟨[], .nil⟩
    | cons path rest ih =>
      obtain ⟨⟨first, hfirst⟩, hrest⟩ := List.forall_mem_cons.1 h
      obtain ⟨l, hl⟩ := ih hrest
      exact ⟨first :: l, .cons hfirst hl⟩

/-- Several files fail to load with the fault of one of them. -/
theorem exists_of_loadRecords_error {f : Fault} (h : loadRecords fs paths = .error f) :
    ∃ p ∈ paths, loadRecord fs p = .error f := by
  induction paths with
  | nil => cases h
  | cons path r ih =>
    rw [loadRecords] at h
    cases hfirst : loadRecord fs path with
    | error e =>
      rw [hfirst] at h
      obtain rfl := Except.error.inj h
      exact ⟨path, List.mem_cons_self, hfirst⟩
    | ok first =>
      cases hrest : loadRecords fs r with
      | error e =>
        rw [hfirst, hrest] at h
        obtain rfl := Except.error.inj h
        obtain ⟨p, hp, hload⟩ := ih hrest
        exact ⟨p, List.mem_cons_of_mem _ hp, hload⟩
      | ok rest =>
        rw [hfirst, hrest] at h
        cases h

end Records

/-! ## The records that a listing opens -/

/-- The directory of base backups has an entry with this name, and in it there is a file with a record. -/
structure HasRecordFile (c : ServerConfig) (fs : FileSystem) (name : String) : Prop where
  base : fs.entry c.basebackupsDirectory = .ok .directory
  child : fs.tree.get? (name :: fs.place c.basebackupsDirectory) ≠ none
  file : fs.isFile (recordPath c name) = true

/-- The names in the directory of base backups below which there is a file with a record. -/
def recordNames (c : ServerConfig) (fs : FileSystem) : List String :=
  (fs.tree.childNames (fs.place c.basebackupsDirectory)).filter fun n => fs.isFile (recordPath c n)

section Listing

variable {c : ServerConfig} {fs : FileSystem}

theorem pairwise_recordNames (c : ServerConfig) (fs : FileSystem) :
    (recordNames c fs).Pairwise (· < ·) :=
  (pairwise_childNames _ _).filter _

theorem mem_recordNames_iff (hbase : fs.entry c.basebackupsDirectory = .ok .directory) {name : String} :
    name ∈ recordNames c fs ↔ HasRecordFile c fs name := by
  unfold recordNames
  rw [List.mem_filter, mem_childNames]
  exact ⟨fun h => ⟨hbase, h.1, h.2⟩, fun h => ⟨h.child, h.file⟩⟩

/-- A listing loads the records below these names, and sorts them. -/
theorem listBackups_of_names (hbase : fs.entry c.basebackupsDirectory = .ok .directory) :
    listBackups c fs
      = (loadRecords fs ((recordNames c fs).map (recordPath c))).map (sortOn Record.id) := by
  rw [listBackups_of_directory hbase]
  unfold recordPaths recordNames
  rw [List.filter_map]
  rfl

end Listing

/-! ## What a listing comes to -/

/-- There is no directory of base backups, or there is one and every record in it decodes. -/
inductive CatalogReadable (c : ServerConfig) (fs : FileSystem) : Prop
  | missing (h : fs.exists_ c.basebackupsDirectory = false)
  | decodes (base : fs.isDirectory c.basebackupsDirectory = true)
      (records : ∀ name, HasRecordFile c fs name → ∃ r, HoldsRecord fs (recordPath c name) r)

/-- The records of all record files, that of each file once, in ascending order of ids. -/
structure IsListing (c : ServerConfig) (fs : FileSystem) (l : List Record) : Prop where
  ascending : l.Pairwise fun a b => a.id ≤ b.id
  records : ∃ (names : List String) (rs : List Record), names.Nodup ∧
    (∀ name, name ∈ names ↔ HasRecordFile c fs name) ∧
    List.Forall₂ (fun name r => HoldsRecord fs (recordPath c name) r) names rs ∧ l.Perm rs

/-- Why a catalog cannot be read: a file has the place of the directory, or a record is damaged. -/
inductive CatalogFault (c : ServerConfig) (fs : FileSystem) : Fault → Prop
  | baseIsFile {content : Bytes} (h : fs.entry c.basebackupsDirectory = .ok (.file content)) :
      CatalogFault c fs (.file .readDirectory c.basebackupsDirectory .notDirectory)
  | damaged {name : String} {content : Bytes} {e : DecodeError} (h : HasRecordFile c fs name)
      (entry : fs.entry (recordPath c name) = .ok (.file content))
      (decode : Record.decode content = .error e) :
      CatalogFault c fs (.undecodable (recordPath c name) e)

section Outcome

variable {c : ServerConfig} {fs : FileSystem}

/-- **A listing succeeds iff there is no directory of base backups, or every record in it decodes.** -/
theorem exists_listBackups_iff : (∃ l, listBackups c fs = .ok l) ↔ CatalogReadable c fs := by
  cases hbase : fs.entry c.basebackupsDirectory with
  | error e =>
    have hmissing : fs.exists_ c.basebackupsDirectory = false := by
      rw [FileSystem.exists_, hbase]
      rfl
    exact ⟨fun _ => .missing hmissing, fun _ => ⟨[], listBackups_of_missing hmissing⟩⟩
  | ok entry =>
    have hexists : fs.exists_ c.basebackupsDirectory = true := exists_iff.2 ⟨entry, hbase⟩
    cases entry with
    | file content =>
      rw [listBackups_of_file hbase]
      refine ⟨fun hlist => absurd hlist (by rintro ⟨l, ⟨⟩⟩), ?_⟩
      rintro (hmissing | ⟨hdirectory, -⟩)
      · rw [hexists] at hmissing
        cases hmissing
      · rw [isDirectory, hbase] at hdirectory
        cases hdirectory
    | directory =>
      have hdirectory : fs.isDirectory c.basebackupsDirectory = true := by rw [isDirectory, hbase]
      have hlist : (∃ l, listBackups c fs = .ok l) ↔
          ∃ l, loadRecords fs ((recordNames c fs).map (recordPath c)) = .ok l := by
        rw [listBackups_of_names hbase]
        cases loadRecords fs ((recordNames c fs).map (recordPath c)) with
        | error f => exact iff_of_false (by rintro ⟨l, ⟨⟩⟩) (by rintro ⟨l, ⟨⟩⟩)
        | ok l => exact ⟨fun _ => ⟨l, rfl⟩, fun _ => ⟨_, rfl⟩⟩
      rw [hlist, exists_loadRecords_iff, List.forall_mem_map]
      simp only [mem_recordNames_iff hbase]
      constructor
      · exact .decodes hdirectory
      · rintro (hmissing | ⟨-, hrecords⟩)
        · rw [hexists] at hmissing
          cases hmissing
        · exact hrecords

/-- **What is listed are the records that decode, sorted by their ids.** -/
theorem isListing_of_listBackups {l : List Record} (h : listBackups c fs = .ok l) :
    IsListing c fs l := by
  cases hbase : fs.entry c.basebackupsDirectory with
  | error e =>
    rw [listBackups_of_missing (by rw [FileSystem.exists_, hbase]; rfl)] at h
    obtain rfl := Except.ok.inj h
    refine ⟨.nil, [], [], .nil, fun name => ⟨fun hn => absurd hn List.not_mem_nil, fun hn => ?_⟩, .nil, .nil⟩
    rw [hn.base] at hbase
    cases hbase
  | ok entry =>
    cases entry with
    | file content =>
      rw [listBackups_of_file hbase] at h
      cases h
    | directory =>
      rw [listBackups_of_names hbase] at h
      cases hload : loadRecords fs ((recordNames c fs).map (recordPath c)) with
      | error f =>
        rw [hload] at h
        cases h
      | ok rs =>
        rw [hload] at h
        obtain rfl : sortOn Record.id rs = l := Except.ok.inj h
        refine ⟨pairwise_sortOn Record.id rs, recordNames c fs, rs, ?_, ?_, ?_, sortOn_perm Record.id rs⟩
        · exact (pairwise_recordNames c fs).imp fun hlt => Std.ne_of_lt hlt
        · exact fun name => mem_recordNames_iff hbase
        · exact List.forall₂_map_left_iff.1 (loadRecords_eq_ok_iff.1 hload)

/-- **A listing that fails tells what is wrong with the catalog.** -/
theorem catalogFault_of_listBackups {f : Fault} (h : listBackups c fs = .error f) :
    CatalogFault c fs f := by
  cases hbase : fs.entry c.basebackupsDirectory with
  | error e =>
    rw [listBackups_of_missing (by rw [FileSystem.exists_, hbase]; rfl)] at h
    cases h
  | ok entry =>
    cases entry with
    | file content =>
      rw [listBackups_of_file hbase] at h
      obtain rfl := Except.error.inj h
      exact .baseIsFile hbase
    | directory =>
      rw [listBackups_of_names hbase] at h
      cases hload : loadRecords fs ((recordNames c fs).map (recordPath c)) with
      | ok rs =>
        rw [hload] at h
        cases h
      | error f' =>
        rw [hload] at h
        obtain rfl : f' = f := Except.error.inj h
        obtain ⟨p, hp, hdamaged⟩ := exists_of_loadRecords_error hload
        obtain ⟨name, hname, rfl⟩ := List.mem_map.1 hp
        have hfile := (mem_recordNames_iff hbase).1 hname
        obtain ⟨content, e, hentry, hdecode, rfl⟩ := damaged_of_loadRecord hfile.file hdamaged
        exact .damaged hfile hentry hdecode

/-- A look-up of a literal id opens the record of that name only. -/
theorem getBackup_of_holdsRecord {id : String} {r : Record} (h : HoldsRecord fs (recordPath c id) r) :
    getBackup c id fs = .ok (if isPlainName id then some r else none) := by
  by_cases hplain : isPlainName id = true
  · have hbackup : HasBackup c id fs := ⟨hplain, isFile_iff.2 ⟨h.choose, h.choose_spec.1⟩⟩
    rw [getBackup_of_hasBackup hbackup, loadRecord_eq_ok_iff.2 h, if_pos hplain]
    rfl
  · rw [getBackup_of_not fun hbackup => hplain hbackup.1, if_neg hplain]

end Outcome

/-! ## Every route to the catalog -/

section Routes

variable {c : ServerConfig} {fs : FileSystem} {f : Fault}

/-- Where the listing fails, so does all that starts from it. -/
theorem status_of_unreadable (h : listBackups c fs = .error f) : status c fs = .error f := by
  unfold status
  rw [h]
  rfl

theorem diagnose_of_unreadable (h : listBackups c fs = .error f) : diagnose c fs = .error f := by
  unfold diagnose
  rw [h]
  rfl

theorem firstId_of_unreadable (h : listBackups c fs = .error f) : firstId c fs = .error f := by
  rw [firstId, h]
  rfl

theorem lastId_of_unreadable (h : listBackups c fs = .error f) : lastId c fs = .error f := by
  rw [lastId, h]
  rfl

/-- Of the checks of a server, one is about the catalog. -/
theorem filter_check (c : ServerConfig) (fs : FileSystem) :
    (check c fs).filter (·.name = "backup catalog") = [checkCatalog c fs] := by
  have hdirectories : (checkDirectories c fs).name = "directories" := by
    unfold checkDirectories
    dsimp only
    split <;> rfl
  have hcatalog : (checkCatalog c fs).name = "backup catalog" := by
    unfold checkCatalog
    split <;> rfl
  simp [check, hdirectories, hcatalog]

end Routes

/-- **A catalog is judged the same on every route.** A listing succeeds iff there is no directory of base
    backups, or it is a directory in which every record file decodes; it then has the records that decode, in
    the order of their ids. The checks never fail; one of them is about the catalog, and it is passed where the
    listing succeeds and has the fault with its causes as its hint where the listing fails. Such a fault tells
    what is damaged, and the status, the diagnosis and both aliases end with it. A literal id whose own record
    decodes is looked up without a fault in any case. -/
theorem catalog_readability_judged_alike (hooks : HookRunner) (c : ServerConfig) (host : Host) :
    let s := services hooks
    ((∃ l, s.listBackups c host = .ok l) ↔ CatalogReadable c host.files) ∧
    (∀ l, s.listBackups c host = .ok l → IsListing c host.files l) ∧
    (∃ results verdict, s.check c host = .ok results ∧
      results.filter (·.name = "backup catalog") = [verdict] ∧
      (∀ l, s.listBackups c host = .ok l → verdict = ⟨"backup catalog", true, none⟩) ∧
      ∀ f, s.listBackups c host = .error f → verdict = ⟨"backup catalog", false, some f.chain⟩) ∧
    (∀ f, s.listBackups c host = .error f →
      CatalogFault c host.files f ∧ s.status c host = .error f ∧ s.diagnose c host = .error f ∧
        Identifier.latest.resolve (s.lookup c host) = .error f ∧
        Identifier.oldest.resolve (s.lookup c host) = .error f) ∧
    ∀ id r, HoldsRecord host.files (recordPath c id) r →
      (Identifier.literal id).resolve (s.lookup c host)
        = .ok (if isPlainName id then some r else none) := by
  intro s
  refine ⟨exists_listBackups_iff, fun l => isListing_of_listBackups, ?_, fun f hf => ?_, fun id r => ?_⟩
  · refine ⟨check c host.files, checkCatalog c host.files, rfl, filter_check c _, fun l hl => ?_, fun f hf => ?_⟩
    · have hlist : listBackups c host.files = .ok l := hl
      rw [checkCatalog, hlist]
    · have hlist : listBackups c host.files = .error f := hf
      rw [checkCatalog, hlist]
  · have hlist : listBackups c host.files = .error f := hf
    refine ⟨catalogFault_of_listBackups hlist, status_of_unreadable hlist, diagnose_of_unreadable hlist, ?_, ?_⟩
    · exact Identifier.resolve_of_fault (lastId_of_unreadable hlist)
    · exact Identifier.resolve_of_fault (firstId_of_unreadable hlist)
  · exact getBackup_of_holdsRecord

/-! ### One damaged record among others -/

namespace OneDamaged

/-- One server, stored in `srv`. -/
def server : ServerConfig := ServerConfig.new "main" "srv"

/-- The record of a backup that can be read. -/
def record : Record := { Record.new "main" "b1" .epoch with status := .done }

/-- A backup, a damaged one, a directory in the place of a record, an empty directory and a stray file. -/
def host : Host :=
  let base : Location := ["base", "main", "srv"]
  let store := ((FileTree.empty.put ["srv"] .directory).put ["main", "srv"] .directory).put base .directory
  let backups := (((store.put ("b1" :: base) .directory).put ("backup.info" :: "b1" :: base)
    (.file record.encode)).put ("b2" :: base) .directory).put ("backup.info" :: "b2" :: base) (.file [1])
  let others := (((backups.put ("b3" :: base) .directory).put ("backup.info" :: "b3" :: base) .directory).put
    ("b4" :: base) .directory).put ("notes" :: base) (.file [120])
  { (default : Host) with files := ⟨others, [], []⟩ }

end OneDamaged

open OneDamaged in
/-- The damaged record stops the listing and what starts from it; the other backup is still found. -/
theorem damaged_record_among_others :
    (services .idle).listBackups server host
      = .error (.undecodable "srv/main/base/b2/backup.info" .truncated) ∧
    ¬CatalogReadable server host.files ∧
    (∃ results, (services .idle).check server host = .ok results ∧
      results.filter (·.name = "backup catalog") = [⟨"backup catalog", false,
        some ("Failed to deserialize data from file: srv/main/base/b2/backup.info: " ++
          DecodeError.truncated.message)⟩]) ∧
    Identifier.latest.resolve ((services .idle).lookup server host)
      = .error (.undecodable "srv/main/base/b2/backup.info" .truncated) ∧
    (Identifier.literal "b1").resolve ((services .idle).lookup server host) = .ok (some record) := by
  obtain ⟨hreadable, -, ⟨results, verdict, hcheck, hfilter, -, hverdict⟩, hfault, hliteral⟩ :=
    catalog_readability_judged_alike .idle server host
  have hlist : listBackups server host.files
      = .error (.undecodable "srv/main/base/b2/backup.info" .truncated) := by decide +kernel
  have hheld : HoldsRecord host.files (recordPath server "b1") record :=
    loadRecord_eq_ok_iff.1 (by decide +kernel)
  refine ⟨hlist, fun hr => ?_, ⟨results, hcheck, ?_⟩, (hfault _ hlist).2.2.2.1, hliteral "b1" record hheld⟩
  · obtain ⟨l, hl⟩ := hreadable.2 hr
    cases hl.symm.trans hlist
  · rw [hfilter, hverdict _ hlist]
    rfl

end BackupFleet.Storage
