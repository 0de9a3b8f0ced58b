import BackupFleet.Proofs.Storage.Host
import BackupFleet.Proofs.Storage.WalCatalog

/-!
# `BackupFleet.Proofs.Storage.Archiving` — what archiving does to a catalog

Archiving moves files one after the other and appends their names. `Archives` says what it comes to,
however far it gets: some of the waiting files have been moved, each of them once, and their names are the
new end of the list. Two such stretches make one, so the whole service is followed file by file. For the
other servers of a fleet nothing happens at all.

## Contents

* `Archives`, `Sweeps` — some files moved, for one server and for a fleet;
* `Mislisted`, `Archives.agrees_iff` — when a catalog still agrees with its archive;
* `archiveOne_cases`, `archiveOne_movedIn` — one file;
* `archiveAll_changesOnly`, `archiveAll_archives` — all of them;
* `cron_cases`, `cron_stages`, `cron_within`, `cron_sweeps` — the service.
-/

namespace BackupFleet.Storage

open FileTree FileSystem Effect

/-! ## Files moved -/

/-- The files `ms` were moved into the archive and their names appended to the text of the catalog. -/
structure Archives (c : ServerConfig) (cs : List Char) (ms : List String) (fs fs' : FileSystem) :
    Prop where
  catalogued : Catalogued c fs' (cs ++ walCatalogText ms)
  archived : ∀ n, Archived c fs' n ↔ Archived c fs n ∨ n ∈ ms
  nodup : ms.Nodup
  moved : ∀ n, n ∈ ms ↔ Pending c fs n ∧ ¬Pending c fs' n
  pending : ∀ n, Pending c fs' n → Pending c fs n

namespace Archives

variable {c : ServerConfig} {cs : List Char} {fs fs' : FileSystem}

/-- Nothing moved. -/
theorem none (h : Catalogued c fs' cs) (ha : ∀ n, Archived c fs' n ↔ Archived c fs n)
    (hp : ∀ n, Pending c fs' n ↔ Pending c fs n) : Archives c cs [] fs fs' where
  catalogued := by
    have hnil : walCatalogText [] = [] := rfl
    rwa [hnil, List.append_nil]
  archived := fun n => by simp [ha]
  nodup := .nil
  moved := fun n => by simp [hp]
  pending := fun n => (hp n).1

theorem of_same (h : Catalogued c fs cs) (hs : SameArchive c fs fs') (hp : PlainArchive c fs) :
    Archives c cs [] fs fs' :=
  none (h.congr hs hp) (hs.archived_iff hp) (hs.pending_iff hp)

/-- **Files moved one after the other have been moved.** No file is moved twice, since what was moved does
    not wait any more. -/
theorem trans {ms ms' : List String} {fs'' : FileSystem} (h : Archives c cs ms fs fs')
    (h' : Archives c (cs ++ walCatalogText ms) ms' fs' fs'') : Archives c cs (ms ++ ms') fs fs'' where
  catalogued := by
    rw [walCatalogText_append, ← List.append_assoc]
    exact h'.catalogued
  archived := by
    intro n
    rw [h'.archived, h.archived, List.mem_append, or_assoc]
  nodup := by
    refine List.nodup_append.2 ⟨h.nodup, h'.nodup, ?_⟩
    rintro n hn _ hn' rfl
    exact ((h.moved n).1 hn).2 ((h'.moved n).1 hn').1
  moved := by
    intro n
    rw [List.mem_append, h.moved, h'.moved]
    constructor
    · rintro (⟨hp, hn⟩ | ⟨hp, hn⟩)
      · exact ⟨hp, fun hp' => hn (h'.pending n hp')⟩
      · exact ⟨h.pending n hp, hn⟩
    · rintro ⟨hp, hn⟩
      by_cases hm : Pending c fs' n
      · exact .inr ⟨hm, hn⟩
      · exact .inl ⟨hp, hm⟩
  pending := fun n hn => h.pending n (h'.pending n hn)

end Archives

/-- A file was archived whose name cannot be listed once: the archive had one of that name, or the catalog
    stopped in the middle of a line. -/
def Mislisted (c : ServerConfig) (fs fs' : FileSystem) (name : String) : Prop :=
  (Pending c fs name ∧ ¬Pending c fs' name) ∧ (Archived c fs name ∨ ¬Ended c fs)

section Agreement

variable {c : ServerConfig} {cs : List Char} {ms : List String} {fs fs' : FileSystem}

theorem Archives.listable (h : Archives c cs ms fs fs') : ∀ n ∈ ms, Listable n :=
  fun n hn => h.catalogued.listable n ((h.archived n).2 (.inr hn))

/-- To a catalog without an unfinished line, what is archived is added at its end. -/
theorem Archives.covers (h : Archives c cs ms fs fs') (hcat : Catalogued c fs cs) (hf : Finished cs)
    (hc : Covers c fs) : Covers c fs' := by
  rw [covers_iff hcat.text] at hc
  rw [covers_iff h.catalogued.text, walNames_append_names hf h.listable]
  intro n
  rw [List.mem_append, hc, h.archived]

/-- **A catalog that agreed with its archive still does exactly if each name that was added could be listed
    once.** -/
theorem Archives.agrees_iff (h : Archives c cs ms fs fs') (hcat : Catalogued c fs cs)
    (ha : Agrees c fs) : Agrees c fs' ↔ ∀ n, ¬Mislisted c fs fs' n := by
  have hlists := ((Storage.agrees_iff hcat.text).1 ha).2
  by_cases hf : Finished cs
  · have hcovers := (covers_iff h.catalogued.text).1 (h.covers hcat hf ha.covers)
    rw [Storage.agrees_iff h.catalogued.text, and_iff_left hcovers,
      walNames_append_names hf h.listable, List.nodup_append]
    constructor
    · rintro ⟨-, -, hdisjoint⟩ n ⟨hmoved, harchived | hnot⟩
      · exact hdisjoint n ((hlists n).2 harchived) n ((h.moved n).2 hmoved) rfl
      · exact hnot ((ended_iff hcat.text).2 hf)
    · intro hnone
      refine ⟨((Storage.agrees_iff hcat.text).1 ha).1, h.nodup, ?_⟩
      rintro n hn _ hn' rfl
      exact hnone n ⟨(h.moved n).1 hn', .inl ((hlists n).1 hn)⟩
  · -- As soon as a file is archived, its name and the unfinished line become one.
    cases ms with
    | nil =>
      have hsame : CatalogText c fs' cs := by
        have htext := h.catalogued.text
        rwa [show walCatalogText [] = [] from rfl, List.append_nil] at htext
      have harchived : ∀ n, Archived c fs' n ↔ Archived c fs n := fun n => by simp [h.archived]
      refine iff_of_true ?_ fun n hn => List.not_mem_nil ((h.moved n).2 hn.1)
      rw [Storage.agrees_iff hsame]
      exact ⟨((Storage.agrees_iff hcat.text).1 ha).1, fun n => by rw [hlists, harchived]⟩
    | cons m r =>
      have hmoved := (h.moved m).1 List.mem_cons_self
      refine iff_of_false ?_ fun hnone => hnone m ⟨hmoved, .inr fun he => hf (he cs hcat.text)⟩
      exact not_agrees_of_merged ha hcat.text hf (hcat.clean m hmoved.1)
        (fun n hn => h.listable n (List.mem_cons_of_mem _ hn)) h.catalogued.text h.archived

end Agreement

/-- For every server of the fleet whose catalog was in order, some files were moved. -/
structure Sweeps (f : Fleet) (fs fs' : FileSystem) : Prop where
  workDir : fs'.workDir = fs.workDir
  archives : PlainLayout f fs → ∀ c ∈ f.servers, ∀ cs, Catalogued c fs cs →
    ∃ ms, Archives c cs ms fs fs'

theorem isReach_sweeps (f : Fleet) : IsReach (Sweeps f) where
  refl := fun fs => ⟨rfl, fun _ c _ cs hc => ⟨[], .none hc (fun _ => Iff.rfl) fun _ => Iff.rfl⟩⟩
  trans := by
    intro a b d h h'
    refine ⟨h'.workDir.trans h.workDir, fun hl c hc cs hn => ?_⟩
    obtain ⟨ms, hm⟩ := h.archives hl c hc cs hn
    obtain ⟨ms', hm'⟩ := h'.archives (hl.congr h.workDir) c hc _ hm.catalogued
    exact ⟨ms ++ ms', hm.trans hm'⟩

/-! ## The directories of a fleet -/

section Layout

variable {f : Fleet} {fs fs' : FileSystem} {c d : ServerConfig}

theorem sameArchive_of_changesOnly {S : Location → Prop} (h : ChangesOnly S fs fs')
    (hwals : ∀ n, ¬S (n :: fs.place c.walsDirectory))
    (hincoming : ∀ n, ¬S (n :: fs.place c.incomingWalsDirectory)) : SameArchive c fs fs' :=
  ⟨h.workDir, fun n => h.entries _ (hwals n), fun n => h.entries _ (hincoming n)⟩

/-- The location is in the archive of a server, or among the arrivals for it. -/
def InArchive (c : ServerConfig) (fs : FileSystem) (k : Location) : Prop :=
  ∃ n, k = n :: fs.place c.walsDirectory ∨ k = n :: fs.place c.incomingWalsDirectory

theorem inArchive_congr (hw : fs'.workDir = fs.workDir) : InArchive c fs' = InArchive c fs := by
  unfold InArchive
  rw [place_congr hw, place_congr hw]

/-- What leaves every archive alone sweeps no file. -/
theorem sweeps_of_same (hw : fs'.workDir = fs.workDir)
    (h : PlainLayout f fs → ∀ c ∈ f.servers, SameArchive c fs fs') : Sweeps f fs fs' :=
  ⟨hw, fun hl c hc _ hn => ⟨[], .of_same hn (h hl c hc) (hl.archive hc)⟩⟩

/-- Making a directory of storage leaves every archive alone. -/
theorem sameArchive_makeDirectories (hl : PlainLayout f fs) {p : String} (hp : p ∈ f.storagePaths)
    (hc : c ∈ f.servers) : SameArchive c fs (after (makeDirectories p) fs) :=
  sameArchive_of_changesOnly (makeDirectories_grown p fs).changesOnly
    (hl.not_mem_trail hp (mem_storagePaths_wals hc))
    (hl.not_mem_trail hp (mem_storagePaths_incoming hc))

/-- **What archiving for one server changes is no part of the archive of another server.** -/
theorem sameArchive_of_other (hl : PlainLayout f fs) (hc : c ∈ f.servers) (hd : d ∈ f.servers)
    (hne : d ≠ c) (h : ChangesOnly (InArchive c fs) fs fs') : SameArchive d fs fs' := by
  have hplace : ∀ {p q}, p ∈ d.storagePaths → q ∈ c.storagePaths → fs.place p ≠ fs.place q :=
    fun hp hq => hl.apart.place_ne (Fleet.mem_storagePaths hd hp) (Fleet.mem_storagePaths hc hq)
      (hl.apart.ne_of_ne hd hc hne hp hq)
  have hdir : ∀ {p}, p ∈ d.storagePaths → ∀ n, ¬∃ m, n :: fs.place p = m :: fs.place c.walsDirectory ∨
      n :: fs.place p = m :: fs.place c.incomingWalsDirectory := by
    rintro p hp n ⟨m, he | he⟩
    · exact hplace hp c.wals_mem (List.cons.inj he).2
    · exact hplace hp c.incoming_mem (List.cons.inj he).2
  exact sameArchive_of_changesOnly h (hdir d.wals_mem) (hdir d.incoming_mem)

end Layout

/-! ## One file -/

/-- The catalog of a server is held open and in its place. -/
structure HeldCatalog (c : ServerConfig) (fs : FileSystem) (handle : AppendHandle) : Prop where
  attached : handle.attached = true
  isPath : IsPath (walCatalogPath c)
  file : ∃ content, fs.tree.get? handle.location = some (.file content)

/-- A file is moved and its name appended, or nothing changes. -/
theorem archiveOne_apply (c : ServerConfig) (handle : AppendHandle) (name : String) (h : Host) :
    archiveOne c handle name h
      = match rename (Path.join c.incomingWalsDirectory name) (Path.join c.walsDirectory name) h.files with
        | .error e fs =>
          .error (.file .archiveWal (Path.join c.incomingWalsDirectory name) e) { h with files := fs }
        | .ok () fs =>
          let now := handle.afterMove (h.files.locate (Path.join c.incomingWalsDirectory name))
            (h.files.locate (Path.join c.walsDirectory name))
          .ok now { h with files := after (append now (Text.encode (name.toList ++ ['\n']))) fs } := by
  unfold archiveOne
  simp only [bind_apply, get_apply, Host.onFiles_apply]
  cases rename (Path.join c.incomingWalsDirectory name) (Path.join c.walsDirectory name) h.files with
  | error e fs => rfl
  | ok u fs => simp only [append_apply, after, pure_apply]

theorem location_afterMove (handle : AppendHandle) (source target : Except FileError Location) :
    (handle.afterMove source target).location = handle.location := by
  unfold AppendHandle.afterMove
  split
  · split <;> rfl
  · rfl

/-- One file has been moved into the archive of a server, and its name has been appended to the catalog. -/
structure MovedIn (c : ServerConfig) (name : String) (content listed : Bytes) (fs fs' : FileSystem) :
    Prop where
  workDir : fs'.workDir = fs.workDir
  isName : Path.IsName name
  isPath : IsPath (walCatalogPath c)
  source : fs.locate (Path.join c.incomingWalsDirectory name)
    = .ok (name :: fs.place c.incomingWalsDirectory)
  target : fs.locate (Path.join c.walsDirectory name) = .ok (name :: fs.place c.walsDirectory)
  file : fs.tree.get? (name :: fs.place c.incomingWalsDirectory) = some (.file content)
  catalog : fs.tree.get? (walCatalogName :: fs.place c.walsDirectory) = some (.file listed)
  entries : ∀ k, fs'.tree.get? k = if k = walCatalogName :: fs.place c.walsDirectory then
      some (.file (listed ++ Text.encode (name.toList ++ ['\n'])))
    else if k = name :: fs.place c.walsDirectory then some (.file content)
    else if k = name :: fs.place c.incomingWalsDirectory then none else fs.tree.get? k

namespace MovedIn

variable {c : ServerConfig} {name : String} {fs fs' : FileSystem} {content listed : Bytes}

theorem pending (h : MovedIn c name content listed fs fs') (hp : PlainArchive c fs) : Pending c fs name :=
  ⟨h.isName, isFile_iff.2 ⟨content, (entry_join_iff hp.incoming h.isName).2
    ⟨(locate_eq_ok_iff.1 h.source).1, h.file⟩⟩⟩

/-- The arrivals have one file less. -/
theorem pending_iff (h : MovedIn c name content listed fs fs') (hp : PlainArchive c fs) (n : String) :
    Pending c fs' n ↔ Pending c fs n ∧ n ≠ name := by
  by_cases hn : n = name
  · subst hn
    refine ⟨fun hpending => ?_, fun hpending => absurd rfl hpending.2⟩
    obtain ⟨bytes, hentry⟩ := isFile_iff.1 hpending.2
    have hget := ((entry_join_iff hp.incoming h.isName).1 hentry).2
    rw [place_congr h.workDir, h.entries, if_neg (hp.cross _ _).symm, if_neg (hp.cross _ _).symm,
      if_pos rfl] at hget
    cases hget
  · rw [and_iff_left hn]
    refine pending_congr hp h.workDir ?_
    rw [h.entries, if_neg (hp.cross _ _).symm, if_neg (hp.cross _ _).symm, if_neg (by simpa using hn)]

/-- The archive has one file more. -/
theorem archived_iff (h : MovedIn c name content listed fs fs') (hp : PlainArchive c fs)
    (hnot : name ≠ walCatalogName) (n : String) : Archived c fs' n ↔ Archived c fs n ∨ n = name := by
  by_cases hn : n = name
  · subst hn
    refine ⟨fun _ => .inr rfl, fun _ => ⟨h.isName, hnot, isFile_iff.2 ⟨content, ?_⟩⟩⟩
    rw [entry_join_iff hp.wals h.isName, place_congr h.workDir, h.entries, if_neg (by simpa using hnot),
      if_pos rfl]
    exact ⟨(locate_eq_ok_iff.1 h.target).1, rfl⟩
  · rw [or_iff_left hn]
    refine archived_congr hp h.workDir fun hcatalog => ?_
    rw [h.entries, if_neg (by simpa using hcatalog), if_neg (by simpa using hn), if_neg (hp.cross _ _)]

/-- The text of the catalog is longer by the line of the file. -/
theorem catalogText (h : MovedIn c name content listed fs fs') (hp : PlainArchive c fs)
    {cs : List Char} (htext : CatalogText c fs cs) : CatalogText c fs' (cs ++ walCatalogText [name]) := by
  have hold : fs.entry (walCatalogPath c) = .ok (.file listed) := entry_walCatalogPath hp h.isPath h.catalog
  have hnew : fs'.entry (walCatalogPath c)
      = .ok (.file (listed ++ Text.encode (name.toList ++ ['\n']))) := by
    refine entry_walCatalogPath (hp.congr h.workDir) h.isPath ?_
    rw [place_congr h.workDir, h.entries, if_pos rfl]
  -- The catalog is there, so its text is the one that the name was appended to.
  rcases htext with ⟨hnone, -⟩ | ⟨bytes, he, hd⟩
  · exact absurd hold (hnone _)
  · rw [hold] at he
    cases he
    refine .inr ⟨_, hnew, ?_⟩
    have hone : walCatalogText [name] = name.toList ++ ['\n'] := by simp [walCatalogText]
    rw [hone]
    exact Text.decode_append_encode hd (name.toList ++ ['\n'])

/-- **A waiting file that was moved, with its name appended, is archived.** -/
theorem archives (h : MovedIn c name content listed fs fs') (hp : PlainArchive c fs) {cs : List Char}
    (hcat : Catalogued c fs cs) : Archives c cs [name] fs fs' := by
  have hwaiting := h.pending hp
  have hdeliver : Deliverable name := hcat.clean name hwaiting
  have hpending := h.pending_iff hp
  have harchived := h.archived_iff hp hdeliver.2.2
  refine ⟨⟨h.catalogText hp hcat.text, fun n hn => ?_, fun n hn => ?_⟩, fun n => ?_, by simp, fun n => ?_,
    fun n hn => ((hpending n).1 hn).1⟩
  · rcases (harchived n).1 hn with hold | rfl
    · exact hcat.listable n hold
    · exact listable_of_deliverable hdeliver
  · exact hcat.clean n ((hpending n).1 hn).1
  · rw [harchived, List.mem_singleton]
  · rw [List.mem_singleton, hpending]
    constructor
    · rintro rfl
      exact ⟨hwaiting, fun hn => hn.2 rfl⟩
    · rintro ⟨hwait, hn⟩
      by_cases he : n = name
      · exact he
      · exact absurd ⟨hwait, he⟩ hn

end MovedIn

/-- A step changes the archive of its server and nothing else, and keeps the handle on its file. -/
theorem archiveOne_changesOnly {c : ServerConfig} {name : String} {handle : AppendHandle} {h : Host}
    (hname : Path.IsName name)
    (hloc : handle.location = walCatalogName :: h.files.place c.walsDirectory) :
    ChangesOnly (InArchive c h.files) h.files (after (archiveOne c handle name) h).files ∧
      ∀ now h', archiveOne c handle name h = .ok now h' → now.location = handle.location := by
  have hrename := rename_changesOnly (Path.join c.incomingWalsDirectory name)
    (Path.join c.walsDirectory name) h.files
  rw [place_join hname, place_join hname] at hrename
  replace hrename := hrename.mono (T := InArchive c h.files) (by
    rintro k (rfl | rfl)
    · exact ⟨name, .inr rfl⟩
    · exact ⟨name, .inl rfl⟩)
  unfold after at hrename ⊢
  rw [archiveOne_apply]
  cases hr : rename (Path.join c.incomingWalsDirectory name) (Path.join c.walsDirectory name)
      h.files with
  | error e fs =>
    rw [hr] at hrename
    exact ⟨hrename, fun now h' he => by cases he⟩
  | ok u fs =>
    rw [hr] at hrename
    refine ⟨(isReach_changesOnly _).trans hrename ((append_changesOnly _ _ fs).mono ?_), ?_⟩
    · rintro k rfl
      rw [location_afterMove, hloc]
      exact ⟨walCatalogName, .inl rfl⟩
    · intro now h' he
      cases he
      exact location_afterMove _ _ _

/-- A handle on the catalog stays on it while files with other names are moved. -/
theorem afterMove_of_ne {handle : AppendHandle} {name : String} {dir : String} {fs : FileSystem}
    (hname : Path.IsName name) (hne : name ≠ walCatalogName)
    (hloc : handle.location = walCatalogName :: fs.place dir) (source : Except FileError Location) :
    handle.afterMove source (fs.locate (Path.join dir name)) = handle := by
  unfold AppendHandle.afterMove
  split
  · rename_i k hk
    rw [(locate_eq_ok_iff.1 hk).2.2, place_join hname, hloc, if_neg]
    exact fun h => hne (List.cons.inj h.2).1
  · rfl

/-- **A file that was moved is followed by its name in the catalog**, unless it has the name of the
    catalog. -/
theorem append_of_moved {c : ServerConfig} {name : String} {handle : AppendHandle} {content : Bytes}
    {fs fs' : FileSystem} (hcross : fs.place c.incomingWalsDirectory ≠ fs.place c.walsDirectory)
    (hname : Path.IsName name) (hnot : name ≠ walCatalogName)
    (hloc : handle.location = walCatalogName :: fs.place c.walsDirectory) (hheld : HeldCatalog c fs handle)
    (hmoves : Moves (Path.join c.incomingWalsDirectory name) (Path.join c.walsDirectory name) content fs fs') :
    ∃ listed fs'', append handle (Text.encode (name.toList ++ ['\n'])) fs' = .ok () fs'' ∧
      MovedIn c name content listed fs fs'' ∧ HeldCatalog c fs'' handle := by
  obtain ⟨hw, hs, ht, -, hfile, -, hget⟩ := hmoves
  rw [place_join hname] at hs ht hfile
  rw [place_join hname, place_join hname] at hget
  obtain ⟨hattached, hpath, listed, hlisted⟩ := hheld
  rw [hloc] at hlisted
  have hlisted' : fs'.tree.get? handle.location = some (.file listed) := by
    rw [hloc, hget, if_neg (by simpa using hnot.symm),
      if_neg fun he => hcross (List.cons.inj he).2.symm, hlisted]
  obtain ⟨fs'', happend, hw', hget'⟩ :=
    append_of_attached (Text.encode (name.toList ++ ['\n'])) hattached hlisted'
  refine ⟨listed, fs'', happend, ⟨hw'.trans hw, hname, hpath, hs, ht, hfile, hlisted, fun k => ?_⟩,
    hattached, hpath, _, (hget' _).trans (if_pos rfl)⟩
  rw [hget', hloc, hget]

/-- One step of archiving: a failure without a change, or a file archived. -/
theorem archiveOne_cases {c : ServerConfig} {name : String} {handle : AppendHandle} {h : Host}
    (hp : PlainArchive c h.files) (hname : Path.IsName name)
    (hloc : handle.location = walCatalogName :: h.files.place c.walsDirectory) :
    (∃ e h', archiveOne c handle name h = .error e h' ∧ h'.files = h.files) ∨
    ∃ now h', archiveOne c handle name h = .ok now h' ∧
      ∀ cs, Catalogued c h.files cs → HeldCatalog c h.files handle →
        HeldCatalog c h'.files now ∧ Archives c cs [name] h.files h'.files := by
  rw [archiveOne_apply]
  rcases rename_cases (Path.join c.incomingWalsDirectory name) (Path.join c.walsDirectory name)
    h.files with ⟨e, hr⟩ | ⟨-, hsame⟩ | ⟨content, fs, hr, hmoves⟩
  · rw [hr]
    exact .inl ⟨_, _, rfl, rfl⟩
  · rw [place_join hname, place_join hname] at hsame
    exact absurd hsame.symm (hp.cross _ _)
  · rw [hr]
    refine .inr ⟨_, _, rfl, fun cs hcat hheld => ?_⟩
    have hpending : Pending c h.files name := ⟨hname, isFile_iff.2 ⟨content, hmoves.entry⟩⟩
    have hnot : name ≠ walCatalogName := (hcat.clean name hpending).2.2
    obtain ⟨listed, fs', happend, hmoved, hheld'⟩ :=
      append_of_moved hp.place_ne hname hnot hloc hheld hmoves
    rw [afterMove_of_ne hname hnot hloc, after_of_ok happend]
    exact ⟨hheld', hmoved.archives hp hcat⟩

/-- Between two directories, a step fails without a change, or it moves its file and lists it. -/
theorem archiveOne_movedIn {c : ServerConfig} {name : String} {handle : AppendHandle} {h : Host}
    (hcross : h.files.place c.incomingWalsDirectory ≠ h.files.place c.walsDirectory)
    (hname : Path.IsName name) (hnot : name ≠ walCatalogName)
    (hloc : handle.location = walCatalogName :: h.files.place c.walsDirectory)
    (hheld : HeldCatalog c h.files handle) :
    (∃ e, archiveOne c handle name h
      = .error (.file .archiveWal (Path.join c.incomingWalsDirectory name) e) h) ∨
    ∃ content listed h', archiveOne c handle name h = .ok handle h' ∧
      MovedIn c name content listed h.files h'.files ∧ HeldCatalog c h'.files handle := by
  rw [archiveOne_apply]
  rcases rename_cases (Path.join c.incomingWalsDirectory name) (Path.join c.walsDirectory name)
    h.files with ⟨e, hr⟩ | ⟨-, hsame⟩ | ⟨content, fs, hr, hmoves⟩
  · rw [hr]
    exact .inl ⟨e, rfl⟩
  · rw [place_join hname, place_join hname] at hsame
    exact absurd (List.cons.inj hsame).2 hcross
  · obtain ⟨listed, fs', happend, hmoved, hheld'⟩ :=
      append_of_moved hcross hname hnot hloc hheld hmoves
    rw [hr]
    dsimp only
    rw [afterMove_of_ne hname hnot hloc, after_of_ok happend]
    exact .inr ⟨content, listed, _, rfl, hmoved, hheld'⟩

/-! ## All files -/

theorem archiveAll_cons_after (c : ServerConfig) (handle : AppendHandle) (name : String)
    (r : List String) (h : Host) :
    after (archiveAll c handle (name :: r)) h = match archiveOne c handle name h with
      | .ok now h' => after (archiveAll c now r) h'
      | .error _ h' => h' := by
  unfold after
  rw [archiveAll, bind_apply]
  cases archiveOne c handle name h <;> rfl

/-- Archiving changes the archive of its server and nothing else. -/
theorem archiveAll_changesOnly {c : ServerConfig} {l : List String} (hnames : ∀ n ∈ l, Path.IsName n)
    {handle : AppendHandle} {h : Host}
    (hloc : handle.location = walCatalogName :: h.files.place c.walsDirectory) :
    ChangesOnly (InArchive c h.files) h.files (after (archiveAll c handle l) h).files := by
  induction l generalizing handle h with
  | nil => exact (isReach_changesOnly _).refl _
  | cons name r ih =>
    obtain ⟨hname, hr⟩ := List.forall_mem_cons.1 hnames
    obtain ⟨hone, hnow⟩ := archiveOne_changesOnly hname hloc
    rw [archiveAll_cons_after]
    unfold after at hone
    cases ho : archiveOne c handle name h with
    | error e h' =>
      rw [ho] at hone
      exact hone
    | ok now h' =>
      rw [ho] at hone
      have hnext : now.location = walCatalogName :: h'.files.place c.walsDirectory := by
        rw [hnow now h' ho, hloc, place_congr hone.workDir]
      have hrest := ih hr hnext
      rw [inArchive_congr hone.workDir] at hrest
      exact (isReach_changesOnly _).trans hone hrest

/-- **However far archiving gets, some of the files have been moved.** -/
theorem archiveAll_archives {c : ServerConfig} {l : List String}
    (hnames : ∀ n ∈ l, Path.IsName n) {handle : AppendHandle} {h : Host} (hp : PlainArchive c h.files)
    (hloc : handle.location = walCatalogName :: h.files.place c.walsDirectory) {cs : List Char}
    (hcat : Catalogued c h.files cs) (hheld : HeldCatalog c h.files handle) :
    ∃ ms, Archives c cs ms h.files (after (archiveAll c handle l) h).files := by
  induction l generalizing handle h cs with
  | nil => exact ⟨[], .none hcat (fun _ => Iff.rfl) fun _ => Iff.rfl⟩
  | cons name r ih =>
    obtain ⟨hname, hr⟩ := List.forall_mem_cons.1 hnames
    obtain ⟨hchange, hnow⟩ := archiveOne_changesOnly hname hloc
    rw [archiveAll_cons_after]
    rcases archiveOne_cases hp hname hloc with ⟨e, h', he, hsame⟩ | ⟨now, h', he, hone⟩
    · rw [he, hsame]
      exact ⟨[], .none hcat (fun _ => Iff.rfl) fun _ => Iff.rfl⟩
    · rw [after_of_ok he] at hchange
      rw [he]
      obtain ⟨hheld', harch⟩ := hone cs hcat hheld
      obtain ⟨ms, hms⟩ := ih hr (hp.congr hchange.workDir)
        (by rw [hnow now h' he, hloc, place_congr hchange.workDir]) harch.catalogued hheld'
      exact ⟨name :: ms, harch.trans hms⟩

/-- Only files in the directory of arrivals are archived. -/
theorem isName_of_mem_pendingNames {c : ServerConfig} {fs : FileSystem} {names : List String}
    (h : fs.listDirectory c.incomingWalsDirectory = .ok names) {n : String}
    (hn : n ∈ pendingNames c fs names) : Path.IsName n := by
  have hmem : n ∈ names := (List.mem_filter.1 (mem_sortOn.1 hn)).1
  obtain ⟨e, he⟩ := Option.ne_none_iff_exists'.1 ((mem_listDirectory h).1 hmem)
  exact isName_of_get? he

theorem nodup_pendingNames {c : ServerConfig} {fs : FileSystem} {names : List String}
    (h : fs.listDirectory c.incomingWalsDirectory = .ok names) : (pendingNames c fs names).Nodup := by
  obtain ⟨-, rfl⟩ := listDirectory_eq_ok_iff.1 h
  exact (sortOn_perm id _).nodup_iff.2 ((nodup_childNames _ _).filter _)

/-- The handle that opening a catalog gives is on the catalog. -/
theorem openCatalog_changesOnly {c : ServerConfig} {fs fs' : FileSystem} {handle : AppendHandle}
    (h : openAppend (walCatalogPath c) fs = .ok handle fs') :
    handle.location = walCatalogName :: fs.place c.walsDirectory ∧ ChangesOnly (InArchive c fs) fs fs' := by
  have hchange := openAppend_changesOnly (walCatalogPath c) fs
  rw [after_of_ok h] at hchange
  refine ⟨?_, hchange.mono ?_⟩
  · rw [eq_of_openAppend_ok h]
    exact place_walCatalogPath c fs
  · rintro k rfl
    exact ⟨walCatalogName, .inl (place_walCatalogPath c fs)⟩

/-- A catalog that was opened is there. -/
theorem heldCatalog_of_opened {c : ServerConfig} {fs fs' : FileSystem} {handle : AppendHandle}
    (h : openAppend (walCatalogPath c) fs = .ok handle fs') : HeldCatalog c fs' handle := by
  rcases openAppend_cases (walCatalogPath c) fs with
    ⟨e, ho⟩ | ⟨hlocate, ⟨content, hfile, ho⟩ | ⟨-, hadmits, ho⟩⟩
  · rw [ho] at h
    cases h
  · rw [ho] at h
    cases h
    exact ⟨rfl, (locate_eq_ok_iff.1 hlocate).1, content, hfile⟩
  · rw [ho] at h
    cases h
    exact ⟨rfl, (locate_eq_ok_iff.1 hlocate).1, [], (get?_put hadmits _).trans (if_pos rfl)⟩

/-- Opening a catalog leaves it as it is; a missing one is an empty one from then on. -/
theorem openCatalog_archives {c : ServerConfig} {fs fs' : FileSystem} {handle : AppendHandle}
    (hp : PlainArchive c fs) (h : openAppend (walCatalogPath c) fs = .ok handle fs') {cs : List Char}
    (hcat : Catalogued c fs cs) : HeldCatalog c fs' handle ∧ Archives c cs [] fs fs' := by
  refine ⟨heldCatalog_of_opened h, ?_⟩
  have hplace := place_walCatalogPath c fs
  have honly : OnlyCatalog c fs fs' := by
    have hchange := openAppend_changesOnly (walCatalogPath c) fs
    rwa [after_of_ok h, hplace] at hchange
  rcases openAppend_cases (walCatalogPath c) fs with
    ⟨e, ho⟩ | ⟨hlocate, ⟨content, hfile, ho⟩ | ⟨hmissing, hadmits, ho⟩⟩
  · rw [ho] at h
    cases h
  · rw [ho] at h
    cases h
    exact .none hcat (fun _ => Iff.rfl) fun _ => Iff.rfl
  · have hmade : fs'.tree.get? (fs.place (walCatalogPath c)) = some (.file []) := by
      rw [ho] at h
      cases h
      rw [tree_withTree, get?_put hadmits, if_pos rfl]
    have hentry : fs'.entry (walCatalogPath c) = .ok (.file []) := by
      refine entry_walCatalogPath (hp.congr honly.workDir) (locate_eq_ok_iff.1 hlocate).1 ?_
      rw [place_congr honly.workDir, ← hplace]
      exact hmade
    -- A catalog that is missing is read like an empty one.
    obtain rfl : cs = [] := by
      rcases hcat.text with ⟨-, hn⟩ | ⟨bytes, he, -⟩
      · exact hn
      · rw [(entry_eq_ok_iff.1 he).2.2] at hmissing
        cases hmissing
    have hcat' : Catalogued c fs' [] := honly.catalogued hp hcat (.inr ⟨[], hentry, rfl⟩)
    exact .none hcat' (honly.archived_iff hp) (honly.pending_iff hp)

/-- What archiving does once the arrivals are known. -/
def archivePending (c : ServerConfig) (names : List String) : Operation Host Nat := do
  let pending := pendingNames c (← get).files names
  let catalog ← Host.onFiles .openWalCatalog (walCatalogPath c) (openAppend (walCatalogPath c))
  archiveAll c catalog pending
  pure pending.length

theorem archivePending_apply (c : ServerConfig) (names : List String) (h : Host) :
    archivePending c names h = match openAppend (walCatalogPath c) h.files with
      | .error e fs => .error (.file .openWalCatalog (walCatalogPath c) e) { h with files := fs }
      | .ok handle fs =>
        match archiveAll c handle (pendingNames c h.files names) { h with files := fs } with
        | .ok () h' => .ok (pendingNames c h.files names).length h'
        | .error f h' => .error f h' := by
  unfold archivePending
  simp only [bind_apply, get_apply, Host.onFiles_apply]
  cases openAppend (walCatalogPath c) h.files with
  | error e fs => rfl
  | ok handle fs =>
    dsimp only
    cases archiveAll c handle (pendingNames c h.files names) { h with files := fs } <;> rfl

theorem archivePending_after (c : ServerConfig) (names : List String) (h : Host) :
    after (archivePending c names) h = match openAppend (walCatalogPath c) h.files with
      | .ok handle fs =>
        after (archiveAll c handle (pendingNames c h.files names)) { h with files := fs }
      | .error _ fs => { h with files := fs } := by
  unfold after
  rw [archivePending_apply]
  cases openAppend (walCatalogPath c) h.files with
  | error e fs => rfl
  | ok handle fs =>
    dsimp only
    cases archiveAll c handle (pendingNames c h.files names) { h with files := fs } <;> rfl

/-- What archiving does changes the archive of its server and nothing else. -/
theorem archivePending_changesOnly {c : ServerConfig} {names : List String} {h : Host}
    (hlist : h.files.listDirectory c.incomingWalsDirectory = .ok names) :
    ChangesOnly (InArchive c h.files) h.files (after (archivePending c names) h).files := by
  rw [archivePending_after]
  cases ho : openAppend (walCatalogPath c) h.files with
  | error e fs =>
    have hchange := openAppend_changesOnly (walCatalogPath c) h.files
    rw [after_of_error ho] at hchange
    refine hchange.mono ?_
    rintro k rfl
    exact ⟨walCatalogName, .inl (place_walCatalogPath c h.files)⟩
  | ok handle fs =>
    obtain ⟨hloc, hin⟩ := openCatalog_changesOnly ho
    have hall := archiveAll_changesOnly (fun n => isName_of_mem_pendingNames hlist)
      (h := { h with files := fs }) (hloc.trans (by rw [place_congr hin.workDir]))
    rw [inArchive_congr hin.workDir] at hall
    exact (isReach_changesOnly _).trans hin hall

theorem archivePending_sweeps {f : Fleet} {c : ServerConfig} (hc : c ∈ f.servers)
    {names : List String} {h : Host}
    (hlist : h.files.listDirectory c.incomingWalsDirectory = .ok names) :
    Sweeps f h.files (after (archivePending c names) h).files := by
  have hchange := archivePending_changesOnly hlist
  refine ⟨hchange.workDir, fun hl d hd cs hcat => ?_⟩
  by_cases hdc : d = c
  · subst hdc
    rw [archivePending_after]
    cases ho : openAppend (walCatalogPath d) h.files with
    | error e fs =>
      obtain rfl := eq_of_openAppend_error ho
      exact ⟨[], .none hcat (fun _ => Iff.rfl) fun _ => Iff.rfl⟩
    | ok handle fs =>
      obtain ⟨hloc, hin⟩ := openCatalog_changesOnly ho
      obtain ⟨hheld, hnone⟩ := openCatalog_archives (hl.archive hd) ho hcat
      obtain ⟨ms, hms⟩ := archiveAll_archives (fun n => isName_of_mem_pendingNames hlist)
        (h := { h with files := fs }) ((hl.archive hd).congr hin.workDir)
        (hloc.trans (by rw [place_congr hin.workDir])) hnone.catalogued hheld
      exact ⟨_, hnone.trans hms⟩
  · exact ⟨[], .of_same hcat (sameArchive_of_other hl hc hd hdc hchange) (hl.archive hd)⟩

theorem ensureDirectory_error {dir : String} {h h' : Host} {f : Fault}
    (he : ensureDirectory dir h = .error f h') : ∃ e, f = .file .createDirectory dir e := by
  unfold ensureDirectory at he
  rw [Host.onFiles_apply] at he
  cases hm : makeDirectories dir h.files with
  | ok u fs =>
    rw [hm] at he
    cases he
  | error e fs =>
    rw [hm] at he
    cases he
    exact ⟨e, rfl⟩

/-- The fault tells that a directory could not be made or listed. -/
def AtDirectories (f : Fault) : Prop :=
  ∃ attempt path e, f = .file attempt path e ∧ (attempt = .createDirectory ∨ attempt = .readDirectory)

/-- **Archiving stops while it makes the three directories or lists the arrivals, or it goes on to move
    files.** Up to there it goes where making the directories goes. -/
theorem cron_cases {c : ServerConfig} {R : FileSystem → FileSystem → Prop} (hR : IsReach R)
    (hensure : ∀ p ∈ c.storagePaths, Within R (makeDirectories p)) (h : Host) :
    (∃ f h', cron c h = .error f h' ∧ R h.files h'.files ∧ AtDirectories f) ∨
    ∃ names h', R h.files h'.files ∧ h'.files.listDirectory c.incomingWalsDirectory = .ok names ∧
      cron c h = archivePending c names h' := by
  have hdir : ∀ p ∈ c.storagePaths, ∀ h : Host, R h.files (after (ensureDirectory p) h).files :=
    fun p hp => Host.FilesWithin.onFiles (hensure p hp)
  have hfault : ∀ {dir h h' f}, ensureDirectory dir h = .error f h' → AtDirectories f := by
    intro dir h h' f he
    obtain ⟨e, rfl⟩ := ensureDirectory_error he
    exact ⟨_, _, _, rfl, .inl rfl⟩
  have hbase := hdir c.basebackupsDirectory c.base_mem h
  unfold cron
  rcases bind_cases (ensureDirectory c.basebackupsDirectory) _ h with
    ⟨f, h1, he, hend⟩ | ⟨u, h1, he, hnext⟩
  · rw [after_of_error he] at hbase
    exact .inl ⟨f, h1, hend, hbase, hfault he⟩
  rw [hnext]
  rw [after_of_ok he] at hbase
  have hwals := hR.trans hbase (hdir c.walsDirectory c.wals_mem h1)
  rcases bind_cases (ensureDirectory c.walsDirectory) _ h1 with
    ⟨f, h2, he, hend⟩ | ⟨u, h2, he, hnext⟩
  · rw [after_of_error he] at hwals
    exact .inl ⟨f, h2, hend, hwals, hfault he⟩
  rw [hnext]
  rw [after_of_ok he] at hwals
  have hincoming := hR.trans hwals (hdir c.incomingWalsDirectory c.incoming_mem h2)
  rcases bind_cases (ensureDirectory c.incomingWalsDirectory) _ h2 with
    ⟨f, h3, he, hend⟩ | ⟨u, h3, he, hnext⟩
  · rw [after_of_error he] at hincoming
    exact .inl ⟨f, h3, hend, hincoming, hfault he⟩
  rw [hnext]
  rw [after_of_ok he] at hincoming
  dsimp only
  rw [bind_apply, Host.ask_apply]
  cases hlist : h3.files.listDirectory c.incomingWalsDirectory with
  | error e => exact .inl ⟨_, h3, rfl, hincoming, _, _, _, rfl, .inr rfl⟩
  | ok names => exact .inr ⟨names, h3, hincoming, hlist, rfl⟩

/-- What is left behind when archiving stops early, or goes on. -/
theorem cron_stages {c : ServerConfig} {R : FileSystem → FileSystem → Prop} (hR : IsReach R)
    (hensure : ∀ p ∈ c.storagePaths, Within R (makeDirectories p)) (h : Host) :
    R h.files (after (cron c) h).files ∨ ∃ names h', R h.files h'.files ∧
      h'.files.listDirectory c.incomingWalsDirectory = .ok names ∧
      after (cron c) h = after (archivePending c names) h' := by
  rcases cron_cases hR hensure h with ⟨f, h', he, hstop, -⟩ | ⟨names, h', hR', hlist, hnext⟩
  · exact .inl (by rwa [after_of_error he])
  · exact .inr ⟨names, h', hR', hlist, after_congr hnext⟩

/-- **Archiving goes where making the three directories and the archiving itself go.** -/
theorem cron_within {c : ServerConfig} {R : FileSystem → FileSystem → Prop} (hR : IsReach R)
    (hensure : ∀ p ∈ c.storagePaths, Within R (makeDirectories p))
    (harchive : ∀ names (h : Host), h.files.listDirectory c.incomingWalsDirectory = .ok names →
      R h.files (after (archivePending c names) h).files) : Host.FilesWithin R (cron c) := by
  intro h
  rcases cron_stages hR hensure h with hstop | ⟨names, h', hR', hlist, hafter⟩
  · exact hstop
  · rw [hafter]
    exact hR.trans hR' (harchive names h' hlist)

/-- **Archiving moves some of the waiting files of its server**, and touches no archive of another. -/
theorem cron_sweeps {f : Fleet} {c : ServerConfig} (hc : c ∈ f.servers) :
    Host.FilesWithin (Sweeps f) (cron c) := by
  refine cron_within (isReach_sweeps f) (fun p hp fs => ?_) fun _ _ => archivePending_sweeps hc
  refine sweeps_of_same (makeDirectories_grown p fs).workDir fun hl d hd => ?_
  exact sameArchive_makeDirectories hl (Fleet.mem_storagePaths hc hp) hd

end BackupFleet.Storage
