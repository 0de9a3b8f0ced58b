import Mathlib.Logic.ExistsUnique
import BackupFleet.Proofs.Order
import BackupFleet.Storage.Reading

/-!
# `BackupFleet.Proofs.Storage.WalOwner` — which backup a WAL file belongs to

A backup needs the WAL files from its own first one up to the first one of the next backup. Where the
backups of a server have recorded their first WAL files in ascending order, every file that is not older
than all of these belongs to one backup: the last one that had begun by then.

A listing ends at the first WAL file of the very next backup. If that backup recorded none, because it
failed or is not finished, then nothing ends the listing, and it goes on into the files of the backups after
it (`PastGap`). Where every backup has recorded its first WAL file, the listings share the files out.

## Contents

* `Chronological`, `BegunBy`, `ownerOf` — the backup that a WAL file belongs to;
* `GapAfter`, `PastGap`, `ListedFor` — listings that do not end;
* `ascending_of_listBackups`, `ownerOf_eq_some_iff`, `find?_later_eq_some_iff` — the order of the catalog;
* `walEnd`, `covers_walEnd_iff`, `listFiles_wal` — what is listed for a backup;
* `wal_file_listed_twice_iff_past_gap` — all backups together;
* `walsOf`, `complete_catalog_shares_out_wals` — all backups of a complete catalog.
-/

namespace BackupFleet.Storage

open Catalog

/-! ## The backup of a WAL file -/

/-- The ids of the backups are different, and in their order the first WAL files do not descend. -/
structure Chronological (backups : List Record) : Prop where
  ids : (backups.map (·.id)).Nodup
  begins : ∀ a ∈ backups, ∀ b ∈ backups, a.id < b.id → ∀ v ∈ a.beginWal, ∀ w ∈ b.beginWal, v ≤ w

instance (backups : List Record) : Decidable (Chronological backups) :=
  decidable_of_iff
    ((backups.map (·.id)).Nodup ∧
      ∀ a ∈ backups, ∀ b ∈ backups, a.id < b.id → ∀ v ∈ a.beginWal, ∀ w ∈ b.beginWal, v ≤ w)
    ⟨fun ⟨hids, hbegins⟩ => ⟨hids, hbegins⟩, fun h => ⟨h.ids, h.begins⟩⟩

/-- The backup had begun when a WAL file was written: it recorded its first WAL file, and that is no later
    one. -/
def BegunBy (wal : String) (r : Record) : Prop := ∃ first, r.beginWal = some first ∧ first ≤ wal

theorem begunBy_iff {wal : String} {r : Record} :
    (r.beginWal.any fun first => decide (first ≤ wal)) = true ↔ BegunBy wal r := by
  simp [BegunBy, Option.any_eq_true]

instance (wal : String) (r : Record) : Decidable (BegunBy wal r) := decidable_of_iff _ begunBy_iff

/-- The backup that a WAL file belongs to: the last one of the catalog that had begun by then. -/
def ownerOf (backups : List Record) (wal : String) : Option Record :=
  backups.reverse.find? fun r => decide (BegunBy wal r)

/-! ## Listings that do not end -/

/-- The very next backup recorded no WAL file. -/
def GapAfter (backups : List Record) (r : Record) : Prop :=
  ∃ next ∈ backups, r.id < next.id ∧ next.beginWal = none ∧
    ∀ later ∈ backups, r.id < later.id → next.id ≤ later.id

instance (backups : List Record) (r : Record) : Decidable (GapAfter backups r) :=
  inferInstanceAs (Decidable (∃ _ ∈ backups, _))

/-- The WAL file is past a gap right after the backup: a backup after the gap had begun by then. -/
def PastGap (backups : List Record) (r : Record) (wal : String) : Prop :=
  r.beginWal ≠ none ∧ GapAfter backups r ∧ ∃ later ∈ backups, r.id < later.id ∧ BegunBy wal later

instance (backups : List Record) (r : Record) (wal : String) : Decidable (PastGap backups r wal) :=
  inferInstanceAs (Decidable (_ ∧ _ ∧ ∃ _ ∈ backups, _))

/-- The WAL file belongs to the backup, or to one past a gap right after it. -/
def ListedFor (backups : List Record) (r : Record) (wal : String) : Prop :=
  ownerOf backups wal = some r ∨ PastGap backups r wal

instance (backups : List Record) (r : Record) (wal : String) : Decidable (ListedFor backups r wal) :=
  inferInstanceAs (Decidable (_ ∨ _))

/-! ## The order of the catalog -/

/-- Backups are listed in the order of their ids. -/
theorem pairwise_listBackups {c : ServerConfig} {fs : FileSystem} {backups : List Record}
    (h : listBackups c fs = .ok backups) : backups.Pairwise fun a b => a.id ≤ b.id := by
  unfold listBackups at h
  dsimp only at h
  split at h
  · cases hnames : attemptTo .readDirectory c.basebackupsDirectory
        (fs.listDirectory c.basebackupsDirectory) with
    | error e =>
      rw [hnames] at h
      cases h
    | ok names =>
      rw [hnames] at h
      simp only [bind, Except.bind] at h
      cases hrecords : loadRecords fs (recordPaths fs c names) with
      | error e =>
        rw [hrecords] at h
        cases h
      | ok records =>
        rw [hrecords] at h
        cases h
        exact pairwise_sortOn (·.id) records
  · cases h
    exact .nil

/-- Different ids are listed in strictly ascending order. -/
theorem ascending_of_listBackups {c : ServerConfig} {fs : FileSystem} {backups : List Record}
    (h : listBackups c fs = .ok backups) (hids : (backups.map (·.id)).Nodup) :
    backups.Pairwise fun a b => a.id < b.id := by
  have hsorted : (backups.map (·.id)).Pairwise (· ≤ ·) :=
    List.pairwise_map.2 (pairwise_listBackups h)
  exact List.pairwise_map.1 (pairwise_lt_of_nodup hsorted hids)

section Ascending

variable {backups : List Record}

/-- **The owner of a WAL file had begun by then, and no later backup had.** -/
theorem ownerOf_eq_some_iff (hids : backups.Pairwise fun a b => a.id < b.id) {wal : String}
    {r : Record} :
    ownerOf backups wal = some r ↔ r ∈ backups ∧ BegunBy wal r ∧
      ∀ later ∈ backups, r.id < later.id → ¬BegunBy wal later := by
  unfold ownerOf
  rw [List.find?_eq_some_iff_append]
  simp only [decide_eq_true_eq, Bool.not_eq_true', decide_eq_false_iff_not]
  constructor
  · rintro ⟨hr, after, before, hsplit, hafter⟩
    have hsplit : backups = before.reverse ++ r :: after.reverse := by
      have := congrArg List.reverse hsplit
      simpa using this
    rw [hsplit] at hids ⊢
    obtain ⟨-, -, hbefore⟩ := List.pairwise_append.1 hids
    refine ⟨by simp, hr, ?_⟩
    intro later hlater hlt
    rcases List.mem_append.1 hlater with hm | hm
    · exact absurd (String.lt_trans hlt (hbefore later hm r List.mem_cons_self)) (String.lt_irrefl _)
    · rcases List.mem_cons.1 hm with rfl | hm
      · exact absurd hlt (String.lt_irrefl _)
      · exact hafter later (List.mem_reverse.1 hm)
  · rintro ⟨hr, hbegun, hlater⟩
    obtain ⟨before, after, rfl⟩ := List.append_of_mem hr
    obtain ⟨-, hafter, -⟩ := List.pairwise_append.1 hids
    refine ⟨hbegun, after.reverse, before.reverse, by simp, ?_⟩
    intro later hm
    have hm : later ∈ after := List.mem_reverse.1 hm
    exact hlater later (by simp [hm]) ((List.pairwise_cons.1 hafter).1 later hm)

/-- A WAL file belongs to some backup as soon as one had begun by then. -/
theorem exists_owner {wal : String} {r : Record} (hr : r ∈ backups) (h : BegunBy wal r) :
    ∃ owner, ownerOf backups wal = some owner := by
  apply Option.isSome_iff_exists.1
  unfold ownerOf
  rw [List.find?_isSome]
  exact ⟨r, List.mem_reverse.2 hr, decide_eq_true h⟩

/-- The next backup is the first one of those with a larger id. -/
theorem find?_later_eq_some_iff (hids : backups.Pairwise fun a b => a.id < b.id) {r next : Record} :
    backups.find? (fun b => decide (r.id < b.id)) = some next ↔
      next ∈ backups ∧ r.id < next.id ∧ ∀ later ∈ backups, r.id < later.id → next.id ≤ later.id := by
  rw [List.find?_eq_some_iff_append]
  simp only [decide_eq_true_eq, Bool.not_eq_true', decide_eq_false_iff_not]
  constructor
  · rintro ⟨hlt, before, after, rfl, hbefore⟩
    obtain ⟨-, hafter, -⟩ := List.pairwise_append.1 hids
    refine ⟨by simp, hlt, ?_⟩
    intro later hm hlater
    rcases List.mem_append.1 hm with hm | hm
    · exact absurd hlater (hbefore later hm)
    · rcases List.mem_cons.1 hm with rfl | hm
      · exact String.le_refl _
      · exact Std.le_of_lt ((List.pairwise_cons.1 hafter).1 later hm)
  · rintro ⟨hm, hlt, hleast⟩
    obtain ⟨before, after, rfl⟩ := List.append_of_mem hm
    obtain ⟨-, -, hbefore⟩ := List.pairwise_append.1 hids
    refine ⟨hlt, before, after, rfl, ?_⟩
    intro d hd hlater
    have hle : next.id ≤ d.id := hleast d (by simp [hd]) hlater
    exact absurd (hbefore d hd next List.mem_cons_self) (String.not_lt.2 hle)

/-- Among different ids, a backup that is not before another one is that one or after it. -/
theorem eq_or_lt_of_id_le (hids : backups.Pairwise fun a b => a.id < b.id) {a b : Record}
    (ha : a ∈ backups) (hb : b ∈ backups) (h : a.id ≤ b.id) : a = b ∨ a.id < b.id := by
  by_cases he : a.id = b.id
  · exact .inl (eq_of_key_eq hids a ha b hb he)
  · exact .inr (Std.lt_of_le_of_ne h he)

end Ascending

/-! ## What is listed for a backup -/

/-- How the listing of a backup ends: before the first WAL file of the next backup, if it recorded one. -/
def walEnd (backups : List Record) (r : Record) : WalEnd :=
  match (backups.find? fun b => decide (r.id < b.id)).bind (·.beginWal) with
  | some wal => .before wal
  | none => .open_

/-- The next backup ends a listing, or there is a gap, or no backup comes later. -/
theorem covers_walEnd_iff {backups : List Record} (h : Chronological backups)
    (hids : backups.Pairwise fun a b => a.id < b.id) {r : Record} (wal : String) :
    (walEnd backups r).covers wal = true ↔
      (∀ later ∈ backups, r.id < later.id → ¬BegunBy wal later) ∨ GapAfter backups r := by
  unfold walEnd
  cases hnext : backups.find? (fun b => decide (r.id < b.id)) with
  | none =>
    have hlast : ∀ later ∈ backups, ¬r.id < later.id := by simpa using List.find?_eq_none.1 hnext
    simp only [Option.bind_none, WalEnd.covers, true_iff]
    left
    intro later hm hlt
    exact absurd hlt (hlast later hm)
  | some next =>
    obtain ⟨hm, hlt, hleast⟩ := (find?_later_eq_some_iff hids).1 hnext
    rw [Option.bind_some]
    cases hwal : next.beginWal with
    | none =>
      simp only [WalEnd.covers, true_iff]
      right
      exact ⟨next, hm, hlt, hwal, hleast⟩
    | some first =>
      -- A backup that ends the listing leaves no gap, and later ones did not begin before it did.
      have hnogap : ¬GapAfter backups r := by
        rintro ⟨gap, hgap, hgaplt, hnone, hgapleast⟩
        have hle := String.le_antisymm (hgapleast next hm hlt) (hleast gap hgap hgaplt)
        obtain rfl := eq_of_key_eq hids gap hgap next hm hle
        rw [hwal] at hnone
        cases hnone
      simp only [WalEnd.covers, decide_eq_true_eq, hnogap, or_false]
      constructor
      · rintro hbefore later hlater hrlater ⟨v, hv, hle⟩
        have hfirst : first ≤ v := by
          rcases eq_or_lt_of_id_le hids hm hlater (hleast later hlater hrlater) with rfl | hnl
          · obtain rfl := Option.some.inj (hwal.symm.trans hv)
            exact String.le_refl _
          · exact h.begins next hm later hlater hnl first hwal v hv
        exact String.not_lt.2 (String.le_trans hfirst hle) hbefore
      · intro hnone
        apply String.not_le.1
        intro hle
        exact hnone next hm hlt ⟨first, hwal, hle⟩

/-- **The listing of a backup that recorded its first WAL file has the files from there on that belong to
    it, and those past a gap.** -/
theorem listedFor_iff {backups : List Record} (h : Chronological backups)
    (hids : backups.Pairwise fun a b => a.id < b.id) {r : Record} (hr : r ∈ backups) {first : String}
    (hfirst : r.beginWal = some first) (wal : String) :
    ListedFor backups r wal ↔ first ≤ wal ∧ (walEnd backups r).covers wal = true := by
  have hbegun : BegunBy wal r ↔ first ≤ wal := by simp [BegunBy, hfirst]
  rw [covers_walEnd_iff h hids, ← hbegun]
  unfold ListedFor
  rw [ownerOf_eq_some_iff hids]
  constructor
  · rintro (⟨-, hb, hlater⟩ | ⟨-, hgap, later, hm, hlt, v, hv, hle⟩)
    · exact ⟨hb, .inl hlater⟩
    · have hfv := h.begins r hr later hm hlt first hfirst v hv
      exact ⟨hbegun.2 (String.le_trans hfv hle), .inr hgap⟩
  · rintro ⟨hb, hend⟩
    by_cases hlater : ∀ later ∈ backups, r.id < later.id → ¬BegunBy wal later
    · exact .inl ⟨hr, hb, hlater⟩
    · have hgap := hend.resolve_left hlater
      simp only [Classical.not_forall, Classical.not_not] at hlater
      obtain ⟨later, hm, hlt, hbegun⟩ := hlater
      exact .inr ⟨by simp [hfirst], hgap, later, hm, hlt, hbegun⟩

/-- Nothing is listed for a backup that recorded no WAL file. -/
theorem not_listedFor_of_none {backups : List Record} (hids : backups.Pairwise fun a b => a.id < b.id)
    {r : Record} (hnone : r.beginWal = none) (wal : String) : ¬ListedFor backups r wal := by
  rintro (howner | ⟨hsome, -⟩)
  · obtain ⟨-, ⟨first, hfirst, -⟩, -⟩ := (ownerOf_eq_some_iff hids).1 howner
    rw [hnone] at hfirst
    cases hfirst
  · exact hsome hnone

/-- **What is listed for a backup**: the files that belong to it and those past a gap, in the order of the
    WAL catalog. -/
theorem listFiles_wal {c : ServerConfig} {fs : FileSystem} {backups : List Record} {wals : List String}
    (hbackups : listBackups c fs = .ok backups) (hwals : readWalCatalog c fs = .ok wals)
    (h : Chronological backups) {r : Record} (hr : r ∈ backups) :
    listFiles c r .wal fs
      = .ok ((wals.filter fun wal => decide (ListedFor backups r wal)).map
          (Path.join c.walsDirectory)) := by
  have hids := ascending_of_listBackups hbackups h.ids
  unfold listFiles
  cases hfirst : r.beginWal with
  | none =>
    have hempty : (wals.filter fun wal => decide (ListedFor backups r wal)) = [] := by
      apply List.filter_eq_nil_iff.2
      intro wal _
      simpa using not_listedFor_of_none hids hfirst wal
    rw [hempty]
    rfl
  | some first =>
    have hfilter : (fun wal => decide (first ≤ wal) && (walEnd backups r).covers wal)
        = fun wal => decide (ListedFor backups r wal) := by
      funext wal
      rw [Bool.eq_iff_iff]
      simp [listedFor_iff h hids hr hfirst wal]
    unfold walsUntilNext nextBackup walFiles
    rw [hbackups, hwals]
    show Except.ok ((wals.filter fun wal => decide (first ≤ wal) && (walEnd backups r).covers wal).map
      (Path.join c.walsDirectory)) = _
    rw [hfilter]

/-! ## All backups together -/

/-- **A WAL file is listed for two backups exactly when it is past a gap.** With different ids and first WAL
    files that do not descend, each listing has the files that belong to the backup and those past a gap
    right after it; so a file is listed twice, or is listed although it is not older than the first WAL file
    of a later backup, iff some backup has a gap right after it and the file is past that gap. -/
theorem wal_file_listed_twice_iff_past_gap {c : ServerConfig} {fs : FileSystem} {backups : List Record}
    {wals : List String} (hbackups : listBackups c fs = .ok backups)
    (hwals : readWalCatalog c fs = .ok wals) (h : Chronological backups) :
    (∀ b ∈ backups, listFiles c b .wal fs
      = .ok ((wals.filter fun wal => decide (ListedFor backups b wal)).map
          (Path.join c.walsDirectory))) ∧
    ∀ wal,
      ((∃ a ∈ backups, ∃ b ∈ backups, a ≠ b ∧ ListedFor backups a wal ∧ ListedFor backups b wal) ↔
        ∃ b ∈ backups, PastGap backups b wal) ∧
      ∀ b ∈ backups, (ListedFor backups b wal ∧
          ∃ later ∈ backups, b.id < later.id ∧ BegunBy wal later) ↔ PastGap backups b wal := by
  have hids := ascending_of_listBackups hbackups h.ids
  refine ⟨fun b hb => listFiles_wal hbackups hwals h hb, ?_⟩
  intro wal
  refine ⟨⟨?_, ?_⟩, ?_⟩
  · rintro ⟨a, ha, b, hb, hne, hla, hlb⟩
    -- A file has one owner, so one of the two listings has it from past a gap.
    rcases hla with howner | hpast
    · rcases hlb with howner' | hpast
      · exact absurd (Option.some.inj (howner.symm.trans howner')) hne
      · exact ⟨b, hb, hpast⟩
    · exact ⟨a, ha, hpast⟩
  · rintro ⟨b, hb, hpast⟩
    obtain ⟨-, -, later, hm, hlt, hbegun⟩ := id hpast
    obtain ⟨owner, howner⟩ := exists_owner hm hbegun
    obtain ⟨hmem, -, hlast⟩ := (ownerOf_eq_some_iff hids).1 howner
    refine ⟨b, hb, owner, hmem, ?_, .inr hpast, .inl howner⟩
    rintro rfl
    exact hlast later hm hlt hbegun
  · intro b hb
    constructor
    · rintro ⟨howner | hpast, later, hm, hlt, hbegun⟩
      · exact absurd hbegun (((ownerOf_eq_some_iff hids).1 howner).2.2 later hm hlt)
      · exact hpast
    · intro hpast
      exact ⟨.inr hpast, hpast.2.2⟩

/-! ### Three backups -/

namespace ThreeInRow

/-- One server, stored in `srv`. -/
def server : ServerConfig := ServerConfig.new "main" "srv"

/-- A backup with the first WAL file that it recorded, if it recorded one. -/
def record (id : String) (first : Option String) : Record :=
  { Record.new "main" id .epoch with beginWal := first }

/-- The backups `b1` to `b3`, with what the second one recorded. -/
def backups (second : Option String) : List Record :=
  [record "b1" (some "A"), record "b2" second, record "b3" (some "C")]

/-- The directories of the three backups, and a WAL catalog with a line twice. -/
def files (second : Option String) : FileSystem :=
  let base : Location := ["base", "main", "srv"]
  let wals : Location := ["wals", "main", "srv"]
  let tree := (((FileTree.empty.put ["srv"] .directory).put ["main", "srv"] .directory).put wals
    .directory).put base .directory
  let tree := (backups second).foldl (fun tree r => (tree.put (r.id :: base) .directory).put
    (recordName :: r.id :: base) (.file r.encode)) tree
  ⟨tree.put (walCatalogName :: wals) (.file (Text.encode "0\nA\nB\nB\nC\n".toList)), [], []⟩

theorem listBackups_files_none : listBackups server (files none) = .ok (backups none) := by rfl

theorem listBackups_files_some : listBackups server (files (some "A")) = .ok (backups (some "A")) := by
  rfl

/-- The lines of the WAL catalog. -/
def wals : List String := ["0", "A", "B", "B", "C"]

theorem readWalCatalog_files_none : readWalCatalog server (files none) = .ok wals := by rfl

theorem readWalCatalog_files_some : readWalCatalog server (files (some "A")) = .ok wals := by rfl

end ThreeInRow

open ThreeInRow in
/-- The second backup recorded no WAL file, so the last line is listed for the first one and for the third
    one. -/
theorem line_past_gap_listed_twice :
    listFiles server (record "b1" (some "A")) .wal (files none)
        = .ok ["srv/main/wals/A", "srv/main/wals/B", "srv/main/wals/B", "srv/main/wals/C"] ∧
      listFiles server (record "b3" (some "C")) .wal (files none) = .ok ["srv/main/wals/C"] ∧
      ∃ a ∈ backups none, ∃ b ∈ backups none, a ≠ b ∧ ListedFor (backups none) a "C" ∧
        ListedFor (backups none) b "C" := by
  obtain ⟨hlistings, hlines⟩ := wal_file_listed_twice_iff_past_gap listBackups_files_none
    readWalCatalog_files_none (by decide)
  have hpast : PastGap (backups none) (record "b1" (some "A")) "C" := by decide
  refine ⟨?_, ?_, (hlines "C").1.2 ⟨_, List.mem_cons_self, hpast⟩⟩
  · rw [hlistings (record "b1" (some "A")) (by simp [backups])]
    rfl
  · rw [hlistings (record "b3" (some "C")) (by simp [backups])]
    rfl

/-! ## Complete catalogs -/

/-- The lines of the WAL catalog that belong to a backup. -/
def walsOf (backups : List Record) (wals : List String) (r : Record) : List String :=
  wals.filter fun wal => decide (ownerOf backups wal = some r)

@[simp] theorem mem_walsOf {backups : List Record} {wals : List String} {r : Record} {wal : String} :
    wal ∈ walsOf backups wals r ↔ wal ∈ wals ∧ ownerOf backups wal = some r := by
  simp [walsOf]

/-- Nothing belongs to a backup that is older than the first WAL files of all. -/
theorem not_owner_of_lt {backups : List Record} (h : Chronological backups)
    (hids : backups.Pairwise fun a b => a.id < b.id) {first : Record} {rest : List Record}
    (hbackups : backups = first :: rest) {start wal : String} (hstart : first.beginWal = some start)
    (hlt : wal < start) (b : Record) : ownerOf backups wal ≠ some b := by
  intro howner
  obtain ⟨hb, ⟨v, hv, hle⟩, -⟩ := (ownerOf_eq_some_iff hids).1 howner
  subst hbackups
  have hstartv : start ≤ v := by
    rcases List.mem_cons.1 hb with rfl | hrest
    · obtain rfl := Option.some.inj (hstart.symm.trans hv)
      exact String.le_refl _
    · have hafter : first.id < b.id := (List.pairwise_cons.1 hids).1 b hrest
      exact h.begins first List.mem_cons_self b hb hafter start hstart v hv
  exact String.not_lt.2 (String.le_trans hstartv hle) hlt

/-- **Where every backup recorded its first WAL file, the listings share the WAL catalog out.** Each listing
    has the lines that belong to the backup, in the order of the catalog; a line that is not older than the
    first WAL file of the first backup belongs to exactly one backup, and an older one to none. -/
theorem complete_catalog_shares_out_wals {c : ServerConfig} {fs : FileSystem} {backups : List Record}
    {wals : List String} (hbackups : listBackups c fs = .ok backups)
    (hwals : readWalCatalog c fs = .ok wals) (h : Chronological backups)
    (hcomplete : ∀ b ∈ backups, b.beginWal ≠ none) :
    (∀ b ∈ backups,
      listFiles c b .wal fs = .ok ((walsOf backups wals b).map (Path.join c.walsDirectory)) ∧
        (walsOf backups wals b).Sublist wals) ∧
    ∀ first, backups.head? = some first → ∀ start, first.beginWal = some start → ∀ wal ∈ wals,
      (start ≤ wal → ∃! b, b ∈ backups ∧ wal ∈ walsOf backups wals b) ∧
      (wal < start → ∀ b ∈ backups, wal ∉ walsOf backups wals b) := by
  have hids := ascending_of_listBackups hbackups h.ids
  -- A gap needs a backup that recorded nothing.
  have howned : ∀ b wal, ListedFor backups b wal ↔ ownerOf backups wal = some b := by
    intro b wal
    constructor
    · rintro (howner | ⟨-, ⟨next, hm, -, hnone, -⟩, -⟩)
      · exact howner
      · exact absurd hnone (hcomplete next hm)
    · exact .inl
  constructor
  · intro b hb
    constructor
    · rw [listFiles_wal hbackups hwals h hb]
      simp only [howned, walsOf]
    · exact List.filter_sublist
  · intro first hfirst start hstart wal hwal
    obtain ⟨rest, hsplit⟩ := List.head?_eq_some_iff.1 hfirst
    constructor
    · intro hle
      have hbegun : BegunBy wal first := ⟨start, hstart, hle⟩
      obtain ⟨owner, howner⟩ := exists_owner (List.mem_of_head? hfirst) hbegun
      have hm : owner ∈ backups := ((ownerOf_eq_some_iff hids).1 howner).1
      refine ⟨owner, ⟨hm, mem_walsOf.2 ⟨hwal, howner⟩⟩, ?_⟩
      rintro b ⟨-, hb⟩
      have hbowner : ownerOf backups wal = some b := (mem_walsOf.1 hb).2
      exact Option.some.inj (hbowner.symm.trans howner)
    · intro hlt b _ hb
      exact not_owner_of_lt h hids hsplit hstart hlt b (mem_walsOf.1 hb).2

open ThreeInRow in
/-- Of three complete backups, of which two begin with one WAL file, the second and the third one have all
    lines but the one that is older than the backups. -/
theorem three_backups_share_out_wals :
    listFiles server (record "b1" (some "A")) .wal (files (some "A")) = .ok [] ∧
      listFiles server (record "b2" (some "A")) .wal (files (some "A"))
        = .ok ["srv/main/wals/A", "srv/main/wals/B", "srv/main/wals/B"] ∧
      (∃! b, b ∈ backups (some "A") ∧ "C" ∈ walsOf (backups (some "A")) wals b) ∧
      ∀ b ∈ backups (some "A"), "0" ∉ walsOf (backups (some "A")) wals b := by
  obtain ⟨hlistings, hlines⟩ := complete_catalog_shares_out_wals listBackups_files_some
    readWalCatalog_files_some (by decide) (by decide)
  have hline := hlines (record "b1" (some "A")) rfl "A" rfl
  refine ⟨?_, ?_, (hline "C" (by decide)).1 (by decide), (hline "0" (by decide)).2 (by decide)⟩
  · rw [(hlistings (record "b1" (some "A")) (by simp [backups])).1]
    rfl
  · rw [(hlistings (record "b2" (some "A")) (by simp [backups])).1]
    rfl

end BackupFleet.Storage
