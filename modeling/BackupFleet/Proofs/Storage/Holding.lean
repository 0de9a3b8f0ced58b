import BackupFleet.Proofs.Catalog.Identifier
import BackupFleet.Proofs.Order
import BackupFleet.Proofs.Storage.Backup
import BackupFleet.Proofs.Storage.Deletion
import BackupFleet.Proofs.Storage.Readability
import BackupFleet.Proofs.Storage.RecordFile

/-!
# `BackupFleet.Proofs.Storage.Holding` — a catalog that holds given records

A catalog of base backups is a directory with a directory for each backup. As long as every backup is found
under the id in its record, and the ids are all different, nothing else matters: the backups are listed in
the order of their ids, and the first and the last one are what the aliases stand for.

## Contents

* `Holds` — the records that a catalog consists of;
* `statusLines`, `status_of_catalogs` — the status of a server;
* `Holds.listBackups`, `Holds.getBackup`, `Holds.resolve_latest`, `Holds.resolve_oldest`,
  `Holds.status` — what is read of it;
* `DirectoriesClear` — paths that stand in no other directory of storage;
* `Holds.of_grownOutside`, `Holds.of_other` — changes that do not matter;
* `Holds.of_stored`, `Holds.of_removed` — a backup more, and a backup less.
-/

namespace BackupFleet.Storage

open FileTree FileSystem Effect Catalog

/-! ## What is read -/

/-- The base backups of a server are those with these records, in the order of their ids. -/
structure Holds (c : ServerConfig) (kept : List Record) (fs : FileSystem) : Prop where
  ascending : kept.Pairwise fun a b => a.id < b.id
  plain : ∀ r ∈ kept, isPlainName r.id = true
  fits : ∀ r ∈ kept, r.Fits
  stored : ∀ r ∈ kept, fs.entry (recordPath c r.id) = .ok (.file r.encode)
  complete : ∀ id content, fs.tree.get? (recordLocation c fs id) = some (.file content) →
    ∃ r ∈ kept, r.id = id
  base : ∀ content, fs.tree.get? (fs.place c.basebackupsDirectory) ≠ some (.file content)

/-- The records below a list of ids are loaded one after the other. -/
theorem loadRecords_of_forall {c : ServerConfig} {fs : FileSystem} {kept : List Record}
    (h : ∀ r ∈ kept, loadRecord fs (recordPath c r.id) = .ok r) :
    loadRecords fs ((kept.map (·.id)).map (recordPath c)) = .ok kept := by
  induction kept with
  | nil => rfl
  | cons r rest ih =>
    obtain ⟨hr, hrest⟩ := List.forall_mem_cons.1 h
    rw [List.map_cons, List.map_cons, loadRecords, hr, ih hrest]
    rfl

/-- What the status of a server says if it has these backups and this number of WAL files. -/
def statusLines (c : ServerConfig) (backups : List Record) (wals : Nat) : List (String × String) :=
  [("Description", c.description), ("Active", flag c.active), ("Disabled", flag c.disabled),
    ("No. of available backups", toString backups.length),
    ("First available backup", describeBackup backups.head?),
    ("Last available backup", describeBackup backups.getLast?),
    ("No. of WAL files", toString wals), ("Backup directory", c.backupDirectory)]

/-- **The status is told from the two catalogs.** -/
theorem status_of_catalogs {c : ServerConfig} {fs : FileSystem} {backups : List Record} {wals : List String}
    (hbackups : listBackups c fs = .ok backups) (hwals : readWalCatalog c fs = .ok wals) :
    status c fs = .ok (statusLines c backups wals.length) := by
  unfold status
  rw [hbackups, hwals]
  rfl

namespace Holds

variable {c : ServerConfig} {kept : List Record} {fs : FileSystem}

theorem hasBackup (h : Holds c kept fs) {r : Record} (hr : r ∈ kept) : HasBackup c r.id fs :=
  ⟨h.plain r hr, isFile_iff.2 ⟨_, h.stored r hr⟩⟩

theorem isName (h : Holds c kept fs) {r : Record} (hr : r ∈ kept) : Path.IsName r.id :=
  isName_of_hasBackup (h.hasBackup hr)

theorem loadRecord (h : Holds c kept fs) {r : Record} (hr : r ∈ kept) :
    loadRecord fs (recordPath c r.id) = .ok r :=
  loadRecord_of_decode (readFile_eq_ok_iff.2 (h.stored r hr)) (Record.decode_encode (h.fits r hr))

/-- A backup that is held is found under its id. -/
theorem getBackup (h : Holds c kept fs) {r : Record} (hr : r ∈ kept) :
    getBackup c r.id fs = .ok (some r) := by
  rw [getBackup_of_hasBackup (h.hasBackup hr), h.loadRecord hr]
  rfl

/-- What is found is a backup that is held. -/
theorem mem_of_getBackup (h : Holds c kept fs) {id : String} {r : Record}
    (hget : Storage.getBackup c id fs = .ok (some r)) : r ∈ kept := by
  have hhas := hasBackup_of_getBackup hget
  obtain ⟨content, hentry⟩ := isFile_iff.1 hhas.2
  obtain ⟨-, -, hlocation⟩ := entry_eq_ok_iff.1 hentry
  rw [place_recordPath (isName_of_hasBackup hhas)] at hlocation
  obtain ⟨r', hr', rfl⟩ := h.complete id content hlocation
  obtain rfl : r' = r := Option.some.inj (Except.ok.inj ((h.getBackup hr').symm.trans hget))
  exact hr'

/-- The names in the directory that have a record are the ids, in their order. -/
theorem names_with_record (h : Holds c kept fs) : recordNames c fs = kept.map (·.id) := by
  have hids : (kept.map (·.id)).Pairwise (· < ·) := List.pairwise_map.2 h.ascending
  refine eq_of_ascending_of_mem_iff (pairwise_recordNames c fs) hids fun n => ?_
  rw [recordNames, List.mem_filter, List.mem_map, mem_childNames]
  constructor
  · rintro ⟨hchild, hfile⟩
    obtain ⟨e, he⟩ := Option.ne_none_iff_exists'.1 hchild
    obtain ⟨content, hentry⟩ := isFile_iff.1 hfile
    obtain ⟨-, -, hlocation⟩ := entry_eq_ok_iff.1 hentry
    rw [place_recordPath (isName_of_get? he)] at hlocation
    exact h.complete n content hlocation
  · rintro ⟨r, hr, rfl⟩
    obtain ⟨-, -, hlocation⟩ := entry_eq_ok_iff.1 (h.stored r hr)
    rw [place_recordPath (h.isName hr)] at hlocation
    have hchild : fs.tree.get? (r.id :: fs.place c.basebackupsDirectory) = some .directory :=
      get?_tail hlocation
    refine ⟨?_, isFile_iff.2 ⟨_, h.stored r hr⟩⟩
    rw [hchild]
    simp

/-- **The backups are listed in the order of their ids.** -/
theorem listBackups (h : Holds c kept fs) (hbase : c.basebackupsDirectory ≠ "") :
    listBackups c fs = .ok kept := by
  by_cases hx : fs.exists_ c.basebackupsDirectory = true
  · obtain ⟨e, he⟩ := exists_iff.1 hx
    cases e with
    | file content => exact absurd (entry_eq_ok_iff.1 he).2.2 (h.base content)
    | directory =>
      have hsorted : sortOn Record.id kept = kept := sortOn_eq_of_perm h.ascending (.refl kept)
      rw [listBackups_of_names he, h.names_with_record, loadRecords_of_forall fun r hr => h.loadRecord hr]
      exact congrArg Except.ok hsorted
  · -- Without the directory there is no backup in it.
    rw [listBackups_of_missing (Bool.eq_false_iff.2 hx)]
    cases kept with
    | nil => rfl
    | cons r rest =>
      have hr : r ∈ r :: rest := List.mem_cons_self
      have hname := h.isName hr
      have hdir := entry_of_join isName_recordName (backupDir_ne_empty hname c) (h.stored r hr)
      exact absurd (exists_iff.2 ⟨_, entry_of_join hname hbase hdir⟩) hx

/-- What a look-up leads to is a backup that is held. -/
theorem mem_of_resolve (h : Holds c kept fs) {l : Lookup Fault Record}
    (hl : l.get = fun id => Storage.getBackup c id fs) {i : Identifier} {r : Record}
    (hresolve : i.resolve l = .ok (some r)) : r ∈ kept := by
  obtain ⟨id, -, hget⟩ := Identifier.exists_of_resolve hresolve
  rw [hl] at hget
  exact h.mem_of_getBackup hget

/-- The id of a backup that is held leads to the backup. -/
theorem resolve (h : Holds c kept fs) {l : Lookup Fault Record} (hl : l.get = fun id => Storage.getBackup c id fs)
    {i : Identifier} {found : Option Record} (hfound : ∀ r, found = some r → r ∈ kept)
    (hid : i.id? l = .ok (found.map (·.id))) : i.resolve l = .ok found := by
  cases found with
  | none => exact Identifier.resolve_of_none hid
  | some r =>
    rw [Identifier.resolve_of_id hid, hl]
    exact h.getBackup (hfound r rfl)

/-- **The latest backup is the last one that is held.** -/
theorem resolve_latest {host : Host} (h : Holds c kept host.files) (hbase : c.basebackupsDirectory ≠ "")
    (hooks : HookRunner) :
    Identifier.latest.resolve ((services hooks).lookup c host) = .ok kept.getLast? := by
  refine h.resolve rfl (fun r hr => List.mem_of_getLast? hr) ?_
  show (Storage.listBackups c host.files).map _ = _
  rw [h.listBackups hbase]
  rfl

/-- **The oldest backup is the first one that is held.** -/
theorem resolve_oldest {host : Host} (h : Holds c kept host.files) (hbase : c.basebackupsDirectory ≠ "")
    (hooks : HookRunner) :
    Identifier.oldest.resolve ((services hooks).lookup c host) = .ok kept.head? := by
  refine h.resolve rfl (fun r hr => List.mem_of_head? hr) ?_
  show (Storage.listBackups c host.files).map _ = _
  rw [h.listBackups hbase]
  rfl

/-- **The status names the first and the last backup that is held.** -/
theorem status (h : Holds c kept fs) (hbase : c.basebackupsDirectory ≠ "")
    (hwals : fs.tree.get? (walCatalogName :: fs.place c.walsDirectory) = none) :
    Storage.status c fs = .ok (statusLines c kept 0) := by
  have hmissing : fs.exists_ (walCatalogPath c) = false := by
    refine Bool.eq_false_iff.2 fun hx => ?_
    obtain ⟨e, he⟩ := exists_iff.1 hx
    have hget := (entry_eq_ok_iff.1 he).2.2
    rw [place_walCatalogPath, hwals] at hget
    cases hget
  have hnames : readWalCatalog c fs = .ok [] := by
    unfold readWalCatalog
    dsimp only
    rw [hmissing]
    rfl
  exact status_of_catalogs (h.listBackups hbase) hnames

end Holds

/-! ## Places -/

/-- No path to a directory of storage stands in anything that is in one. -/
def DirectoriesClear (f : Fleet) (fs : FileSystem) : Prop :=
  ∀ p ∈ f.storagePaths, ∀ q ∈ f.storagePaths, ∀ k ∈ fs.trail p, AtOrBelow (fs.place q) k → k = fs.place q

section Places

variable {f : Fleet} {fs fs' : FileSystem} {c d : ServerConfig}

theorem DirectoriesClear.congr (h : DirectoriesClear f fs) (hw : fs'.workDir = fs.workDir) :
    DirectoriesClear f fs' := by
  intro p hp q hq
  rw [trail_congr hw, place_congr hw]
  exact h p hp q hq

theorem DirectoriesClear.clearBase (h : DirectoriesClear f fs) (hc : c ∈ f.servers) : ClearBase c fs :=
  h _ (mem_storagePaths_base hc) _ (mem_storagePaths_base hc)

/-- Where nothing is stored yet, no path leads through anything that is stored. -/
theorem directoriesClear_of_vacant (ha : f.StoresApart fs) (hvacant : ∀ p ∈ f.storagePaths, fs.Vacant p) :
    DirectoriesClear f fs := by
  intro p hp q hq k hk hb
  by_cases hpq : p = q
  · subst hpq
    exact (hvacant p hp).eq_place_of_mem_trail hk hb
  · by_cases hne : k = fs.place q
    · exact hne
    · have hnone := (hvacant q hq).get?_below hb hne
      rcases mem_trail_iff.1 hk with rfl | hway
      · exact absurd hb (ha.apart hp hq hpq).2
      · rcases hvacant p hp with hlist | ⟨hdown, -⟩
        · have hdirectory := (entry_eq_ok_iff.1 (listDirectory_eq_ok_iff.1 hlist).1).2.1 k hway
          rw [hnone] at hdirectory
          cases hdirectory
        · exact absurd (hb.trans (atOrBelow_of_mem_trail hdown hk)) (ha.apart hp hq hpq).2

/-- **The directory of a backup is not on the path of any other record.** -/
theorem not_below_backupDir (ha : f.StoresApart fs) (hclear : DirectoriesClear f fs) (hc : c ∈ f.servers)
    (hd : d ∈ f.servers) {id other : String} (hid : Path.IsName id) (hother : Path.IsName other)
    (hne : ¬(c = d ∧ id = other)) {k : Location} (hk : k ∈ fs.trail (recordPath d other)) :
    ¬AtOrBelow (fs.place (backupDir c id)) k := by
  intro hb
  by_cases hcd : c = d
  · subst hcd
    exact not_below_of_mem_trail (hclear.clearBase hc) hid hother (fun he => hne ⟨rfl, he.symm⟩) hk hb
  · rw [place_backupDir hid] at hb
    have hbase := (AtOrBelow.cons id _).trans hb
    rw [trail_recordPath hother] at hk
    rcases List.mem_append.1 hk with hk | hk
    · have hend := hclear _ (mem_storagePaths_base hd) _ (mem_storagePaths_base hc) k hk hbase
      rw [hend] at hb
      exact absurd hb.length_le (by simp)
    · -- What is below both directories of base backups is not there.
      have hkd : AtOrBelow (fs.place d.basebackupsDirectory) k := by
        rcases List.mem_cons.1 hk with rfl | hk
        · exact .cons other _
        · obtain rfl := List.mem_singleton.1 hk
          exact below_recordLocation d fs other
      exact hcd (eq_of_below ha hc hd hbase hkd)

/-- What is in another directory of storage is not changed where a backup is. -/
theorem get?_of_changesBackup (ha : f.StoresApart fs) (hclear : DirectoriesClear f fs) (hc : c ∈ f.servers)
    {id : String} (hid : Path.IsName id) (h : ChangesBackup c id fs fs') {p : String}
    (hp : p ∈ f.storagePaths) (hne : p ≠ c.basebackupsDirectory) (name : String) :
    fs'.tree.get? (name :: fs.place p) = fs.tree.get? (name :: fs.place p) := by
  have hbase := mem_storagePaths_base hc
  refine GrownOutside.get?_of_not h (fun hb => ?_) fun hk => ?_
  · rw [place_backupDir hid] at hb
    rcases ((AtOrBelow.cons id _).trans hb).total (AtOrBelow.cons name (fs.place p)) with hab | hab
    · exact (ha.apart hp hbase hne).2 hab
    · exact (ha.apart hp hbase hne).1 hab
  · have hend := hclear _ hbase p hp _ hk (.cons name _)
    exact absurd (congrArg List.length hend) (by simp)

end Places

/-! ## What changes -/

namespace Holds

variable {f : Fleet} {c d : ServerConfig} {kept : List Record} {fs fs' : FileSystem} {S T : Location → Prop}

/-- A record stays stored where nothing on its path changes but that directories come. -/
theorem stored_of_grownOutside (h : Holds c kept fs) (hchange : GrownOutside S T fs fs') {r : Record}
    (hr : r ∈ kept) (hS : ∀ k ∈ fs.trail (recordPath c r.id), ¬S k) :
    fs'.entry (recordPath c r.id) = .ok (.file r.encode) := by
  obtain ⟨hp, hway, hget⟩ := entry_eq_ok_iff.1 (h.stored r hr)
  have hw := hchange.workDir
  refine entry_eq_ok_iff.2 ⟨hp, fun k hk => ?_, ?_⟩
  · rw [way_congr hw] at hk
    exact hchange.get?_directory (hS k (way_subset_trail fs _ hk)) (hway k hk)
  · rw [place_congr hw]
    exact (hchange.get?_file_iff (hS _ (place_mem_trail fs _))).2 hget

theorem base_of_grownOutside (h : Holds c kept fs) (hchange : GrownOutside S T fs fs')
    (hS : ¬S (fs.place c.basebackupsDirectory)) (content : Bytes) :
    fs'.tree.get? (fs'.place c.basebackupsDirectory) ≠ some (.file content) := by
  rw [place_congr hchange.workDir]
  exact fun hk => h.base content ((hchange.get?_file_iff hS).1 hk)

/-- **A change away from the paths of all records keeps the same records.** -/
theorem of_grownOutside (h : Holds c kept fs) (hchange : GrownOutside S T fs fs')
    (hS : ∀ id, Path.IsName id → ∀ k ∈ fs.trail (recordPath c id), ¬S k) : Holds c kept fs' where
  ascending := h.ascending
  plain := h.plain
  fits := h.fits
  stored := fun r hr => h.stored_of_grownOutside hchange hr (hS r.id (h.isName hr))
  complete := by
    intro id content hk
    rw [recordLocation_congr hchange.workDir] at hk
    have hname : Path.IsName id := isName_of_get? (get?_tail hk)
    refine h.complete id content ((hchange.get?_file_iff (hS id hname _ ?_)).1 hk)
    rw [← place_recordPath hname]
    exact place_mem_trail fs _
  base := by
    refine h.base_of_grownOutside hchange (hS recordName isName_recordName _ ?_)
    rw [trail_recordPath isName_recordName]
    exact List.mem_append_left _ (place_mem_trail fs _)

/-- Directories that are made change nothing. -/
theorem of_grown (h : Holds c kept fs) (hchange : Grown T fs fs') : Holds c kept fs' :=
  h.of_grownOutside (hchange.outside fun _ => False) fun _ _ _ _ => id

/-- What happens to a backup of another server changes nothing. -/
theorem of_other (h : Holds d kept fs) (ha : f.StoresApart fs) (hclear : DirectoriesClear f fs)
    (hc : c ∈ f.servers) (hd : d ∈ f.servers) (hne : c ≠ d) {id : String} (hid : Path.IsName id)
    (hchange : ChangesBackup c id fs fs') : Holds d kept fs' := by
  refine h.of_grownOutside hchange fun other hother k hk => ?_
  exact not_below_backupDir ha hclear hc hd hid hother (fun he => hne he.1) hk

section Own

variable {r : Record}

/-- Of the backups of one server, only the one in whose directory something happens is affected. -/
theorem stored_of_changesBackup (h : Holds c kept fs) (ha : f.StoresApart fs)
    (hclear : DirectoriesClear f fs) (hc : c ∈ f.servers) {id : String} (hid : Path.IsName id)
    (hchange : ChangesBackup c id fs fs') (hr : r ∈ kept) (hne : r.id ≠ id) :
    fs'.entry (recordPath c r.id) = .ok (.file r.encode) := by
  refine h.stored_of_grownOutside hchange hr fun k hk => ?_
  exact not_below_backupDir ha hclear hc hc hid (h.isName hr) (fun he => hne he.2.symm) hk

theorem base_of_changesBackup (h : Holds c kept fs) {id : String} (hid : Path.IsName id)
    (hchange : ChangesBackup c id fs fs') (content : Bytes) :
    fs'.tree.get? (fs'.place c.basebackupsDirectory) ≠ some (.file content) := by
  refine h.base_of_grownOutside hchange (fun hb => ?_) content
  rw [place_backupDir hid] at hb
  exact absurd hb.length_le (by simp)

/-- A record that is there afterwards, and not in the directory that was changed, is held. -/
theorem exists_of_changesBackup (h : Holds c kept fs) (ha : f.StoresApart fs) (hc : c ∈ f.servers)
    {id other : String} (hid : Path.IsName id) (hchange : ChangesBackup c id fs fs') (hne : other ≠ id)
    {content : Bytes} (hk : fs'.tree.get? (recordLocation c fs' other) = some (.file content)) :
    ∃ r ∈ kept, r.id = other := by
  rw [recordLocation_congr hchange.workDir] at hk
  refine h.complete other content ((hchange.get?_file_iff fun hb => ?_).1 hk)
  exact hne (eq_of_below_backupDir ha hc hc hid hb).2.symm

/-- **A backup under a later id is held after the others.** -/
theorem of_stored (h : Holds c kept fs) (ha : f.StoresApart fs) (hclear : DirectoriesClear f fs)
    (hc : c ∈ f.servers) (hplain : isPlainName r.id = true) (hlater : ∀ r' ∈ kept, r'.id < r.id)
    (hchange : ChangesBackup c r.id fs fs') (hfits : r.Fits)
    (hrecord : fs'.entry (recordPath c r.id) = .ok (.file r.encode)) : Holds c (kept ++ [r]) fs' := by
  have hid : Path.IsName r.id := isName_of_hasBackup ⟨hplain, isFile_iff.2 ⟨_, hrecord⟩⟩
  refine ⟨?_, ?_, ?_, ?_, ?_, h.base_of_changesBackup hid hchange⟩
  · rw [List.pairwise_append]
    refine ⟨h.ascending, List.pairwise_singleton _ r, fun r' hr' last hlast => ?_⟩
    obtain rfl := List.mem_singleton.1 hlast
    exact hlater r' hr'
  · exact List.forall_mem_append.2 ⟨h.plain, List.forall_mem_singleton.2 hplain⟩
  · exact List.forall_mem_append.2 ⟨h.fits, List.forall_mem_singleton.2 hfits⟩
  · refine List.forall_mem_append.2 ⟨fun r' hr' => ?_, List.forall_mem_singleton.2 hrecord⟩
    refine h.stored_of_changesBackup ha hclear hc hid hchange hr' fun he => ?_
    exact String.lt_irrefl r.id (he ▸ hlater r' hr')
  · intro other content hk
    by_cases he : other = r.id
    · exact ⟨r, by simp, he.symm⟩
    · obtain ⟨r', hr', hother⟩ := h.exists_of_changesBackup ha hc hid hchange he hk
      exact ⟨r', List.mem_append_left _ hr', hother⟩

/-- **A backup that is removed is held no more**, and all others are. -/
theorem of_removed (h : Holds c kept fs) (ha : f.StoresApart fs) (hclear : DirectoriesClear f fs)
    (hc : c ∈ f.servers) (hr : r ∈ kept) (hremove : removeAll (backupDir c r.id) fs = .ok () fs') :
    Holds c (kept.filter (· ≠ r)) fs' := by
  have hid := h.isName hr
  have hmem : ∀ {r'}, r' ∈ kept.filter (· ≠ r) ↔ r' ∈ kept ∧ r' ≠ r := by simp
  have hchange : ChangesBackup c r.id fs fs' := by
    have honly := removeAll_changesOnly (backupDir c r.id) fs
    rw [after_of_ok hremove] at honly
    exact changesBackup_of_changesOnly honly fun _ => id
  refine ⟨h.ascending.filter _, fun r' hr' => h.plain r' (hmem.1 hr').1,
    fun r' hr' => h.fits r' (hmem.1 hr').1, fun r' hr' => ?_, fun other content hk => ?_,
    h.base_of_changesBackup hid hchange⟩
  · obtain ⟨hr', hne⟩ := hmem.1 hr'
    refine h.stored_of_changesBackup ha hclear hc hid hchange hr' fun he => ?_
    exact hne (eq_of_key_eq h.ascending r' hr' r hr he)
  · by_cases he : other = r.id
    · -- Nothing is left of the directory that was removed.
      obtain ⟨-, -, hget⟩ := removeAll_ok hremove
      rw [recordLocation_congr hchange.workDir, hget, if_pos] at hk
      · cases hk
      · rw [removes_backupDir_iff hid, place_backupDir hid, he]
        exact .cons recordName _
    · obtain ⟨r', hr', rfl⟩ := h.exists_of_changesBackup ha hc hid hchange he hk
      exact ⟨r', hmem.2 ⟨hr', fun hsame => he (congrArg Record.id hsame)⟩, rfl⟩

end Own

end Holds

end BackupFleet.Storage
