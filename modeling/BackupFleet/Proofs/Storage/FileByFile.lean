import BackupFleet.Proofs.FileSystem.Made
import BackupFleet.Proofs.Storage.Archiving

/-!
# `BackupFleet.Proofs.Storage.FileByFile` — how far archiving gets

Archiving takes the arrivals in ascending order and stops at the first one that cannot be moved. Each of them
is moved and listed before the next one is looked at, so wherever it stops, the files before that one are in
the archive and in the catalog, and the others are where they were. This holds of any configuration in which
the arrivals have a directory of their own; the paths may be spelled in any way, and what the catalog says
does not matter.

## Contents

* `Arrived`, `arrivals` — the files that wait, in order;
* `Transfers`, `Transfers.trans` — files moved and listed, and nothing else;
* `archiveAll_transfers` — a run over files that wait;
* `cron_transfers_first_arrivals`, `stopped_at_second_arrival` — the service.
-/

namespace BackupFleet.Storage

open FileTree FileSystem Effect

/-! ## The files that wait -/

section Arrivals

variable {c : ServerConfig} {fs fs' : FileSystem}

/-- A file is in the directory of arrivals, and the system takes its path. -/
def Arrived (c : ServerConfig) (fs : FileSystem) (name : String) : Prop :=
  IsPath (Path.join c.incomingWalsDirectory name) ∧
    ∃ content, fs.tree.get? (name :: fs.place c.incomingWalsDirectory) = some (.file content)

instance (c : ServerConfig) (fs : FileSystem) (name : String) : Decidable (Arrived c fs name) :=
  have : Decidable (IsPath (Path.join c.incomingWalsDirectory name)) :=
    inferInstanceAs (Decidable (_ ∧ ∀ n ∈ Path.segments _, _))
  have : Decidable (∃ content,
      fs.tree.get? (name :: fs.place c.incomingWalsDirectory) = some (.file content)) :=
    match fs.tree.get? (name :: fs.place c.incomingWalsDirectory) with
    | some (.file content) => .isTrue ⟨content, rfl⟩
    | some .directory => .isFalse (by simp)
    | none => .isFalse (by simp)
  inferInstanceAs (Decidable (_ ∧ _))

/-- The names of the files that have arrived, ascending. -/
def arrivals (c : ServerConfig) (fs : FileSystem) : List String :=
  (fs.tree.childNames (fs.place c.incomingWalsDirectory)).filter fun name => decide (Arrived c fs name)

theorem mem_arrivals {name : String} : name ∈ arrivals c fs ↔ Arrived c fs name := by
  unfold arrivals
  rw [List.mem_filter, decide_eq_true_eq, mem_childNames]
  refine and_iff_right_of_imp ?_
  rintro ⟨-, content, hget⟩
  rw [hget]
  exact Option.some_ne_none _

theorem pairwise_arrivals (c : ServerConfig) (fs : FileSystem) : (arrivals c fs).Pairwise (· < ·) :=
  (pairwise_childNames _ _).filter _

theorem Arrived.isName {name : String} (h : Arrived c fs name) : Path.IsName name := by
  obtain ⟨-, content, hget⟩ := h
  exact isName_of_get? hget

/-- **Where the directory of arrivals can be listed, the files that are archived are those that have
    arrived.** -/
theorem pendingNames_eq_arrivals {names : List String}
    (hlist : fs.listDirectory c.incomingWalsDirectory = .ok names) :
    pendingNames c fs names = arrivals c fs := by
  have hdir := (listDirectory_eq_ok_iff.1 hlist).1
  have hpending := pairwise_lt_of_nodup (pairwise_sortOn id _) (nodup_pendingNames (c := c) hlist)
  refine eq_of_ascending_of_mem_iff hpending (pairwise_arrivals c fs) fun name => ?_
  rw [mem_arrivals]
  unfold pendingNames
  rw [mem_sortOn, List.mem_filter, mem_listDirectory hlist]
  constructor
  · rintro ⟨hpresent, hfile⟩
    obtain ⟨e, he⟩ := Option.ne_none_iff_exists'.1 hpresent
    exact (isFile_join_of_directory hdir (isName_of_get? he)).1 hfile
  · intro h
    obtain ⟨-, content, hget⟩ := id h
    exact ⟨by simp [hget], (isFile_join_of_directory hdir h.isName).2 h⟩

/-- Where directories are made, the same files have arrived. -/
theorem arrivals_of_grown {S : Location → Prop} (h : Grown S fs fs') : arrivals c fs' = arrivals c fs := by
  have hmem : ∀ name, Arrived c fs' name ↔ Arrived c fs name := by
    intro name
    unfold Arrived
    rw [place_congr h.workDir]
    simp only [h.get?_file_iff]
  refine eq_of_ascending_of_mem_iff (pairwise_arrivals c fs') (pairwise_arrivals c fs) fun name => ?_
  rw [mem_arrivals, mem_arrivals, hmem]

end Arrivals

/-! ## Files moved and listed -/

/-- The content of the file at a location; nothing, if there is no file. -/
def contentAt (t : FileTree) (l : Location) : Bytes :=
  match t.get? l with
  | some (.file content) => content
  | _ => []

theorem contentAt_of_file {t : FileTree} {l : Location} {content : Bytes}
    (h : t.get? l = some (.file content)) : contentAt t l = content := by
  unfold contentAt
  rw [h]

/-- The places of the catalog and of the files, before they are moved and after. -/
def Touched (c : ServerConfig) (ms : List String) (fs : FileSystem) (k : Location) : Prop :=
  k = walCatalogName :: fs.place c.walsDirectory ∨
    ∃ m ∈ ms, k = m :: fs.place c.walsDirectory ∨ k = m :: fs.place c.incomingWalsDirectory

/-- The files were moved out of the directory of arrivals into the archive, and their names, one a line, are
    the new end of the catalog. Nothing else has changed, but that directories have come to some of the
    locations in `T`. -/
structure Transfers (c : ServerConfig) (ms : List String) (T : Location → Prop) (fs fs' : FileSystem) :
    Prop where
  moved : ∀ m ∈ ms, ∃ content,
    fs.tree.get? (m :: fs.place c.incomingWalsDirectory) = some (.file content) ∧
      fs'.tree.get? (m :: fs.place c.walsDirectory) = some (.file content)
  gone : ∀ m ∈ ms, fs'.tree.get? (m :: fs.place c.incomingWalsDirectory) = none
  listed : contentAt fs'.tree (walCatalogName :: fs.place c.walsDirectory)
    = contentAt fs.tree (walCatalogName :: fs.place c.walsDirectory) ++ Text.encode (walCatalogText ms)
  elsewhere : GrownOutside (Touched c ms fs) T fs fs'

section Places

variable {c : ServerConfig} {ms : List String} {fs fs' : FileSystem} {n : String}

theorem touched_congr (hw : fs'.workDir = fs.workDir) : Touched c ms fs' = Touched c ms fs := by
  unfold Touched
  rw [place_congr hw, place_congr hw]

/-- A file that is not among those that are moved stays where it waits. -/
theorem not_touched_incoming (hcross : fs.place c.incomingWalsDirectory ≠ fs.place c.walsDirectory)
    (hn : n ∉ ms) : ¬Touched c ms fs (n :: fs.place c.incomingWalsDirectory) := by
  rintro (he | ⟨m, hm, he | he⟩)
  · exact hcross (List.cons.inj he).2
  · exact hcross (List.cons.inj he).2
  · exact hn ((List.cons.inj he).1 ▸ hm)

/-- A file of the archive stays as it is unless one with its name is moved. -/
theorem not_touched_wals (hcross : fs.place c.incomingWalsDirectory ≠ fs.place c.walsDirectory)
    (hnot : n ≠ walCatalogName) (hn : n ∉ ms) : ¬Touched c ms fs (n :: fs.place c.walsDirectory) := by
  rintro (he | ⟨m, hm, he | he⟩)
  · exact hnot (List.cons.inj he).1
  · exact hn ((List.cons.inj he).1 ▸ hm)
  · exact hcross (List.cons.inj he).2.symm

end Places

namespace Transfers

variable {c : ServerConfig} {ms : List String} {T : Location → Prop} {fs fs' fs'' : FileSystem}

/-- Where only directories were made, no file was moved. -/
theorem of_grown (h : Grown T fs fs') : Transfers c [] T fs fs' where
  moved := fun _ hm => absurd hm List.not_mem_nil
  gone := fun _ hm => absurd hm List.not_mem_nil
  listed := by
    have hnil : Text.encode (walCatalogText []) = [] := rfl
    rw [hnil, List.append_nil]
    unfold contentAt
    rcases h.entries (walCatalogName :: fs.place c.walsDirectory) with he | ⟨-, hnone, hdirectory⟩
    · rw [he]
    · rw [hnone, hdirectory]
  elsewhere := h.outside _

/-- A catalog that was opened is there, and has the content that it had. -/
theorem of_opened {handle : AppendHandle} (h : openAppend (walCatalogPath c) fs = .ok handle fs') :
    Transfers c [] (fun _ => False) fs fs' where
  moved := fun _ hm => absurd hm List.not_mem_nil
  gone := fun _ hm => absurd hm List.not_mem_nil
  listed := by
    have hnil : Text.encode (walCatalogText []) = [] := rfl
    rw [hnil, List.append_nil, ← place_walCatalogPath]
    unfold contentAt
    rcases openAppend_cases (walCatalogPath c) fs with
      ⟨e, ho⟩ | ⟨-, ⟨content, hfile, ho⟩ | ⟨hmissing, hadmits, ho⟩⟩
    · rw [ho] at h
      cases h
    · rw [ho] at h
      cases h
      rfl
    · rw [ho] at h
      cases h
      rw [tree_withTree, get?_put hadmits, if_pos rfl, hmissing]
  elsewhere := by
    have hchange := openAppend_changesOnly (walCatalogPath c) fs
    rw [after_of_ok h] at hchange
    refine (hchange.mono ?_).outside _
    rintro k rfl
    exact .inl (place_walCatalogPath c fs)

/-- **Files moved one after the other.** Directories are made before the first file is moved. -/
theorem trans {ms' : List String} (h : Transfers c ms T fs fs')
    (h' : Transfers c ms' (fun _ => False) fs' fs'')
    (hcross : fs.place c.incomingWalsDirectory ≠ fs.place c.walsDirectory)
    (hnot : walCatalogName ∉ ms) (hdisjoint : ∀ m ∈ ms, m ∉ ms') :
    Transfers c (ms ++ ms') T fs fs'' := by
  have hw := h.elsewhere.workDir
  obtain ⟨hmoved', hgone', hlisted', helsewhere'⟩ := h'
  rw [place_congr hw] at hlisted'
  simp only [place_congr hw] at hmoved' hgone'
  rw [touched_congr hw] at helsewhere'
  refine ⟨fun m hm => ?_, fun m hm => ?_, ?_, ?_⟩
  · rcases List.mem_append.1 hm with hm | hm
    · obtain ⟨content, hbefore, hafter⟩ := h.moved m hm
      have hne : m ≠ walCatalogName := fun he => hnot (he ▸ hm)
      refine ⟨content, hbefore, ?_⟩
      rw [helsewhere'.get?_of_not (not_touched_wals hcross hne (hdisjoint m hm)) id, hafter]
    · obtain ⟨content, hbefore, hafter⟩ := hmoved' m hm
      have hfresh : m ∉ ms := fun hm' => hdisjoint m hm' hm
      exact ⟨content, (h.elsewhere.get?_file_iff (not_touched_incoming hcross hfresh)).1 hbefore, hafter⟩
  · rcases List.mem_append.1 hm with hm | hm
    · rw [helsewhere'.get?_of_not (not_touched_incoming hcross (hdisjoint m hm)) id, h.gone m hm]
    · exact hgone' m hm
  · rw [hlisted', h.listed, walCatalogText_append, Text.encode_append, List.append_assoc]
  · have hleft : ∀ k, Touched c ms fs k → Touched c (ms ++ ms') fs k := fun k hk =>
      hk.imp_right fun ⟨m, hm, hplace⟩ => ⟨m, List.mem_append_left _ hm, hplace⟩
    have hright : ∀ k, Touched c ms' fs k → Touched c (ms ++ ms') fs k := fun k hk =>
      hk.imp_right fun ⟨m, hm, hplace⟩ => ⟨m, List.mem_append_right _ hm, hplace⟩
    exact (h.elsewhere.mono hleft fun _ => .inl).trans
      (helsewhere'.mono hright fun _ hk => absurd hk id)

end Transfers

/-- **One file, moved and listed.** -/
theorem MovedIn.transfers {c : ServerConfig} {name : String} {content listed : Bytes}
    {fs fs' : FileSystem} (h : MovedIn c name content listed fs fs')
    (hcross : fs.place c.incomingWalsDirectory ≠ fs.place c.walsDirectory) (hnot : name ≠ walCatalogName) :
    Transfers c [name] (fun _ => False) fs fs' where
  moved := by
    rintro m hm
    obtain rfl := List.mem_singleton.1 hm
    exact ⟨content, h.file, by rw [h.entries, if_neg (by simpa using hnot), if_pos rfl]⟩
  gone := by
    rintro m hm
    obtain rfl := List.mem_singleton.1 hm
    rw [h.entries, if_neg fun he => hcross (List.cons.inj he).2,
      if_neg fun he => hcross (List.cons.inj he).2, if_pos rfl]
  listed := by
    have hone : walCatalogText [name] = name.toList ++ ['\n'] := by simp [walCatalogText]
    rw [hone, contentAt_of_file h.catalog]
    exact contentAt_of_file ((h.entries _).trans (if_pos rfl))
  elsewhere := by
    refine ⟨h.workDir, fun k hk => .inl ?_⟩
    unfold Touched at hk
    simp only [List.mem_singleton, exists_eq_left, not_or] at hk
    rw [h.entries, if_neg hk.1, if_neg hk.2.1, if_neg hk.2.2]

/-! ## A run over files that wait -/

/-- **However far a run gets, the files before that are moved and listed.** It gets to the end, or the fault
    names the file that it stops at. -/
theorem archiveAll_transfers {c : ServerConfig} {l : List String} (hnames : ∀ n ∈ l, Path.IsName n)
    (hnodup : l.Nodup) (hnot : walCatalogName ∉ l) {handle : AppendHandle} {h : Host}
    (hcross : h.files.place c.incomingWalsDirectory ≠ h.files.place c.walsDirectory)
    (hloc : handle.location = walCatalogName :: h.files.place c.walsDirectory)
    (hheld : HeldCatalog c h.files handle) :
    ∃ k ≤ l.length,
      Transfers c (l.take k) (fun _ => False) h.files (after (archiveAll c handle l) h).files ∧
      match archiveAll c handle l h with
      | .ok _ _ => k = l.length
      | .error f _ => ∃ name e, l[k]? = some name ∧
        f = .file .archiveWal (Path.join c.incomingWalsDirectory name) e := by
  induction l generalizing h with
  | nil => exact ⟨0, Nat.le_refl 0, .of_grown ((isReach_grown _).refl h.files), rfl⟩
  | cons name r ih =>
    obtain ⟨hname, hr⟩ := List.forall_mem_cons.1 hnames
    obtain ⟨hfresh, hrest⟩ := List.nodup_cons.1 hnodup
    obtain ⟨hne, hnot⟩ := List.ne_and_not_mem_of_not_mem_cons hnot
    unfold after
    rw [archiveAll, bind_apply]
    rcases archiveOne_movedIn hcross hname hne.symm hloc hheld with
      ⟨e, he⟩ | ⟨content, listed, h', he, hmoved, hheld'⟩
    · rw [he]
      exact ⟨0, Nat.zero_le _, .of_grown ((isReach_grown _).refl h.files), name, e, rfl, rfl⟩
    · rw [he]
      dsimp only
      have hw := hmoved.workDir
      obtain ⟨k, hk, htransfers, hend⟩ := ih hr hrest hnot (h := h')
        (by rwa [place_congr hw, place_congr hw]) (by rw [place_congr hw, hloc]) hheld'
      refine ⟨k + 1, Nat.succ_le_succ hk, ?_, ?_⟩
      · rw [List.take_succ_cons]
        refine (hmoved.transfers hcross hne.symm).trans htransfers hcross (by simpa using hne) ?_
        rintro m hm hmem
        obtain rfl := List.mem_singleton.1 hm
        exact hfresh (List.mem_of_mem_take hmem)
      · cases ha : archiveAll c handle r h' with
        | ok u h'' =>
          rw [ha] at hend
          exact congrArg (· + 1) hend
        | error f h'' =>
          rw [ha] at hend
          exact hend

/-! ## The service -/

/-- The fault tells why archiving stopped with `k` files moved: the next file cannot be moved, or it was
    stopped before it came to the first one. -/
inductive StopsAfter (c : ServerConfig) (pending : List String) : Nat → Fault → Prop
  | atFile {k : Nat} {name : String} {e : FileError} (next : pending[k]? = some name) :
      StopsAfter c pending k (.file .archiveWal (Path.join c.incomingWalsDirectory name) e)
  | before {attempt : Attempt} {path : String} {e : FileError}
      (h : attempt = .createDirectory ∨ attempt = .readDirectory ∨ attempt = .openWalCatalog) :
      StopsAfter c pending 0 (.file attempt path e)

/-- The location is on the way to one of the directories of a server. -/
def OnTrails (c : ServerConfig) (fs : FileSystem) (k : Location) : Prop :=
  ∃ p ∈ c.storagePaths, k ∈ fs.trail p

theorem onTrails_congr {c : ServerConfig} (fs fs' : FileSystem) (hw : fs'.workDir = fs.workDir) :
    OnTrails c fs' = OnTrails c fs := by
  funext k
  unfold OnTrails
  simp only [trail_congr hw]

/-- Once the arrivals are known, archiving goes through them. -/
theorem archivePending_transfers {c : ServerConfig} {names : List String} {h : Host}
    (hlist : h.files.listDirectory c.incomingWalsDirectory = .ok names)
    (hcross : h.files.place c.incomingWalsDirectory ≠ h.files.place c.walsDirectory)
    (hnot : ¬Arrived c h.files walCatalogName) :
    ∃ k ≤ (arrivals c h.files).length,
      Transfers c ((arrivals c h.files).take k) (fun _ => False) h.files
        (after (archivePending c names) h).files ∧
      match archivePending c names h with
      | .ok count _ => k = (arrivals c h.files).length ∧ count = k
      | .error f _ => StopsAfter c (arrivals c h.files) k f := by
  unfold after
  rw [archivePending_apply, pendingNames_eq_arrivals hlist]
  cases ho : openAppend (walCatalogPath c) h.files with
  | error e fs =>
    obtain rfl := eq_of_openAppend_error ho
    exact ⟨0, Nat.zero_le _, .of_grown ((isReach_grown _).refl _), .before (.inr (.inr rfl))⟩
  | ok handle fs =>
    obtain ⟨hloc, hin⟩ := openCatalog_changesOnly ho
    have hopened := Transfers.of_opened ho
    have hw := hin.workDir
    obtain ⟨k, hk, htransfers, hend⟩ := archiveAll_transfers (c := c) (l := arrivals c h.files)
      (h := { h with files := fs }) (fun n hn => (mem_arrivals.1 hn).isName)
      ((pairwise_arrivals c h.files).imp fun hlt => Std.ne_of_lt hlt) (fun hm => hnot (mem_arrivals.1 hm))
      (by rwa [place_congr hw, place_congr hw]) (by rw [place_congr hw, hloc]) (heldCatalog_of_opened ho)
    have hall := hopened.trans htransfers hcross List.not_mem_nil fun m hm => absurd hm List.not_mem_nil
    refine ⟨k, hk, ?_, ?_⟩
    · unfold after at hall
      rw [List.nil_append] at hall
      dsimp only at hall ⊢
      cases ha : archiveAll c handle (arrivals c h.files) { h with files := fs } <;> rwa [ha] at hall
    · dsimp only
      cases ha : archiveAll c handle (arrivals c h.files) { h with files := fs } with
      | ok u h' =>
        rw [ha] at hend
        exact ⟨hend, hend.symm⟩
      | error f h' =>
        rw [ha] at hend
        obtain ⟨name, e, hnext, rfl⟩ := hend
        exact .atFile hnext

/-- **Archiving moves and lists file by file.** If the arrivals have a directory of their own and none of them
    has the name of the catalog, then archiving moves the first ones of them, in ascending order, and lists
    exactly these; all that is left among the arrivals is as it was. Either these are all arrivals, and the
    answer is their number, or the fault names the next one, or archiving was stopped before the first. -/
theorem cron_transfers_first_arrivals {c : ServerConfig} {h : Host}
    (hcross : h.files.place c.incomingWalsDirectory ≠ h.files.place c.walsDirectory)
    (hnot : ¬Arrived c h.files walCatalogName) :
    ∃ k ≤ (arrivals c h.files).length,
      Transfers c ((arrivals c h.files).take k) (OnTrails c h.files) h.files (after (cron c) h).files ∧
      (∀ n ∉ (arrivals c h.files).take k, ∀ content,
        (after (cron c) h).files.tree.get? (n :: h.files.place c.incomingWalsDirectory)
            = some (.file content) ↔
          h.files.tree.get? (n :: h.files.place c.incomingWalsDirectory) = some (.file content)) ∧
      match cron c h with
      | .ok count _ => k = (arrivals c h.files).length ∧ count = k
      | .error f _ => StopsAfter c (arrivals c h.files) k f := by
  have hensure : ∀ p ∈ c.storagePaths,
      Within (fun fs fs' => Grown (OnTrails c fs) fs fs') (makeDirectories p) :=
    fun p hp fs => (makeDirectories_grown p fs).mono fun k hk => ⟨p, hp, hk⟩
  have hstays : ∀ {ms fs'}, Transfers c ms (OnTrails c h.files) h.files fs' → ∀ n ∉ ms, ∀ content,
      fs'.tree.get? (n :: h.files.place c.incomingWalsDirectory) = some (.file content) ↔
        h.files.tree.get? (n :: h.files.place c.incomingWalsDirectory) = some (.file content) :=
    fun ht n hn _ => ht.elsewhere.get?_file_iff (not_touched_incoming hcross hn)
  rcases cron_cases (isReach_grown_at onTrails_congr) hensure h with
    ⟨f, h', he, hgrown, attempt, path, e, rfl, hattempt⟩ | ⟨names, h', hgrown, hlist, hnext⟩
  · have hnone := Transfers.of_grown (c := c) hgrown
    rw [after_of_error he, he]
    refine ⟨0, Nat.zero_le _, hnone, hstays hnone, .before ?_⟩
    exact hattempt.imp_right .inl
  · have hw := hgrown.workDir
    have hnot' : ¬Arrived c h'.files walCatalogName := by
      rwa [← mem_arrivals, arrivals_of_grown hgrown, mem_arrivals]
    obtain ⟨k, hk, htransfers, hend⟩ := archivePending_transfers hlist
      (by rwa [place_congr hw, place_congr hw]) hnot'
    rw [arrivals_of_grown hgrown] at hk htransfers hend
    have hall := (Transfers.of_grown hgrown).trans htransfers hcross List.not_mem_nil
      fun m hm => absurd hm List.not_mem_nil
    rw [List.nil_append, show after (archivePending c names) h' = after (cron c) h by
      rw [after, ← hnext, after]] at hall
    rw [hnext]
    exact ⟨k, hk, hall, hstays hall, hend⟩

/-! ### A directory in the way of the second arrival -/

namespace DirectoryInTheWay

/-- One server, stored in `srv`. -/
def server : ServerConfig := ServerConfig.new "main" "srv"

/-- Three arrivals, an archive with a directory that has the name of the second one, and a catalog whose last
    line has no end. -/
def host : Host :=
  let home : Location := ["main", "srv"]
  let wals : Location := "wals" :: home
  let incoming : Location := "incoming" :: home
  let tree := (((((FileTree.empty.put ["srv"] .directory).put home .directory).put wals .directory).put
    incoming .directory).put ("B" :: wals) .directory).put (walCatalogName :: wals) (.file [48])
  { (default : Host) with
    files := ⟨((tree.put ("C" :: incoming) (.file [3])).put ("B" :: incoming) (.file [2])).put
      ("A" :: incoming) (.file [1]), [], []⟩ }

end DirectoryInTheWay

open DirectoryInTheWay in
/-- The first arrival is in the archive and in the catalog, and the fault names the second one. -/
theorem stopped_at_second_arrival :
    arrivals server host.files = ["A", "B", "C"] ∧
    ∃ e h', cron server host = .error (.file .archiveWal "srv/main/incoming/B" e) h' ∧
      Transfers server ["A"] (OnTrails server host.files) host.files h'.files := by
  have harrivals : arrivals server host.files = ["A", "B", "C"] := by decide +kernel
  have hcross : host.files.place server.incomingWalsDirectory ≠ host.files.place server.walsDirectory := by
    decide +kernel
  have hnot : ¬Arrived server host.files walCatalogName := by decide +kernel
  have hfault : (match cron server host with
      | .error (.file attempt path _) _ => some (attempt, path)
      | _ => none) = some (.archiveWal, "srv/main/incoming/B") := by decide +kernel
  have hfirst := cron_transfers_first_arrivals (c := server) (h := host) hcross hnot
  rw [harrivals] at hfirst
  refine ⟨harrivals, ?_⟩
  cases hcron : cron server host with
  | ok count h' =>
    rw [hcron] at hfault
    cases hfault
  | error f h' =>
    rw [hcron] at hfault hfirst
    rw [after_of_error (x := cron server) (s := host) hcron] at hfirst
    obtain ⟨k, -, htransfers, -, hend⟩ := hfirst
    rcases hend with hnext | hbefore
    · rename_i name e
      have hpath : Path.join server.incomingWalsDirectory name = "srv/main/incoming/B" :=
        congrArg Prod.snd (Option.some.inj hfault)
      obtain rfl : k = 1 := by
        match k with
        | 0 =>
          obtain rfl : "A" = name := Option.some.inj hnext
          exact absurd hpath (by decide +kernel)
        | 1 => rfl
        | 2 =>
          obtain rfl : "C" = name := Option.some.inj hnext
          exact absurd hpath (by decide +kernel)
      rw [hpath]
      exact ⟨e, h', rfl, htransfers⟩
    · obtain rfl := congrArg Prod.fst (Option.some.inj hfault)
      simp at hbefore

end BackupFleet.Storage
