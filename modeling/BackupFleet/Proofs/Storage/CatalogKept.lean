import BackupFleet.Proofs.FileSystem.Standing
import BackupFleet.Proofs.Storage.Archiving

/-!
# `BackupFleet.Proofs.Storage.CatalogKept` — when archiving keeps what the catalog lists

Archiving appends to the catalog and never rewrites it. But the catalog is in the directory that the
arrivals are moved into, so an arrival with its name takes its place, and what is appended from then on
goes to a file that is in no directory any more. This is the only way to lose a listed name, except that a
directory of storage may be configured where the catalog would be.

Nothing is assumed here of the configuration or of the other files. A step of archiving has one of two
outcomes: the text of the catalog gets longer (`Added`), or it is displaced (`Displaces`); after that,
nothing happens to it any more (`Quiet`).

## Contents

* `namesakePath`, `Displaced` — an arrival that takes the place of the catalog;
* `HasText`, `Added`, `Displaces`, `Quiet` — what happens to the catalog;
* `archiveOne_cases_of_held`, `archiveAll_of_detached`, `archiveAll_of_held` — one file, and all of them;
* `cron_added_or_displaces`, `listed_names_kept_iff_not_displaced` — the service.
-/

namespace BackupFleet.Storage

open FileTree FileSystem Effect

/-! ## What happens to the catalog -/

/-- The path of an arrival with the name of the catalog. -/
def namesakePath (c : ServerConfig) : String := Path.join c.incomingWalsDirectory walCatalogName

/-- An arrival with the name of the catalog, and not the catalog itself, was moved away. -/
structure Displaced (c : ServerConfig) (content : Bytes) (fs fs' : FileSystem) : Prop where
  place_ne : fs.place (namesakePath c) ≠ fs.place (walCatalogPath c)
  before : fs.tree.get? (fs.place (namesakePath c)) = some (.file content)
  after : fs'.tree.get? (fs.place (namesakePath c)) = none

/-- What is at the place of the catalog. Nothing counts as the empty text; where a directory is, every text
    is as good as another. -/
inductive HasText (c : ServerConfig) (fs : FileSystem) : List Char → Prop
  | missing (h : fs.tree.get? (fs.place (walCatalogPath c)) = none) : HasText c fs []
  | file {bytes : Bytes} {cs : List Char} (h : fs.tree.get? (fs.place (walCatalogPath c)) = some (.file bytes))
      (hd : Text.decode bytes = .ok cs) : HasText c fs cs
  | directory {cs : List Char} (h : fs.tree.get? (fs.place (walCatalogPath c)) = some .directory) :
      HasText c fs cs

/-- The catalog has got more text at its end, and an arrival with its name is as it was. -/
structure Added (c : ServerConfig) (fs fs' : FileSystem) : Prop where
  standing : Standing fs fs'
  text : ∀ cs, HasText c fs cs → ∃ more, HasText c fs' (cs ++ more)
  namesake : fs.place (namesakePath c) ≠ fs.place (walCatalogPath c) → ∀ content,
    fs'.tree.get? (fs.place (namesakePath c)) = some (.file content) ↔
      fs.tree.get? (fs.place (namesakePath c)) = some (.file content)

/-- An arrival with the name of the catalog is the catalog now. -/
structure Displaces (c : ServerConfig) (content : Bytes) (fs fs' : FileSystem) : Prop where
  standing : Standing fs fs'
  displaced : Displaced c content fs fs'
  locate : fs'.locate (walCatalogPath c) = .ok (fs.place (walCatalogPath c))
  catalog : fs'.tree.get? (fs.place (walCatalogPath c)) = some (.file content)

/-- Neither the catalog nor an arrival with its name has changed. -/
structure Quiet (c : ServerConfig) (fs fs' : FileSystem) : Prop where
  standing : Standing fs fs'
  catalog : fs'.tree.get? (fs.place (walCatalogPath c)) = fs.tree.get? (fs.place (walCatalogPath c))
  namesake : fs'.tree.get? (fs.place (namesakePath c)) = fs.tree.get? (fs.place (namesakePath c))

section Outcomes

variable {c : ServerConfig} {fs fs' fs'' : FileSystem} {content : Bytes}

/-- The text of the catalog is a matter of one location. -/
theorem HasText.congr {cs : List Char} (hw : fs'.workDir = fs.workDir)
    (h : fs'.tree.get? (fs.place (walCatalogPath c)) = fs.tree.get? (fs.place (walCatalogPath c)))
    (ht : HasText c fs cs) : HasText c fs' cs := by
  rw [← place_congr hw] at h
  cases ht with
  | missing hnone => exact .missing (by rw [h, place_congr hw, hnone])
  | file hfile hd => exact .file (by rw [h, place_congr hw, hfile]) hd
  | directory hdir => exact .directory (by rw [h, place_congr hw, hdir])

theorem Quiet.added (h : Quiet c fs fs') : Added c fs fs' where
  standing := h.standing
  text := fun cs ht => ⟨[], by
    rw [List.append_nil]
    exact ht.congr h.standing.workDir h.catalog⟩
  namesake := fun _ content => by rw [h.namesake]

theorem isReach_quiet (c : ServerConfig) : IsReach (Quiet c) where
  refl := fun fs => ⟨isReach_standing.refl fs, rfl, rfl⟩
  trans := by
    intro a b d h h'
    have hcatalog := h'.catalog
    have hnamesake := h'.namesake
    rw [place_congr h.standing.workDir] at hcatalog hnamesake
    exact ⟨isReach_standing.trans h.standing h'.standing, hcatalog.trans h.catalog,
      hnamesake.trans h.namesake⟩

theorem isReach_added (c : ServerConfig) : IsReach (Added c) where
  refl := fun fs => ((isReach_quiet c).refl fs).added
  trans := by
    intro a b d h h'
    have hw := h.standing.workDir
    refine ⟨isReach_standing.trans h.standing h'.standing, fun cs ht => ?_, fun hne content => ?_⟩
    · obtain ⟨more, hmore⟩ := h.text cs ht
      obtain ⟨more', hmore'⟩ := h'.text _ hmore
      rw [List.append_assoc] at hmore'
      exact ⟨more ++ more', hmore'⟩
    · have hnext := h'.namesake (by rwa [place_congr hw, place_congr hw]) content
      rw [place_congr hw] at hnext
      exact hnext.trans (h.namesake hne content)

/-- A catalog that has grown before it is displaced is displaced. -/
theorem Added.displaces (h : Added c fs fs') (h' : Displaces c content fs' fs'') :
    Displaces c content fs fs'' := by
  have hw := h.standing.workDir
  obtain ⟨hstanding, ⟨hne, hbefore, hgone⟩, hlocate, hcatalog⟩ := h'
  rw [place_congr hw] at hgone hlocate hcatalog hbefore
  rw [place_congr hw, place_congr hw] at hne
  exact ⟨isReach_standing.trans h.standing hstanding,
    ⟨hne, (h.namesake hne content).1 hbefore, hgone⟩, hlocate, hcatalog⟩

/-- Nothing happens to a catalog that was displaced. -/
theorem Displaces.quiet (h : Displaces c content fs fs') (h' : Quiet c fs' fs'') :
    Displaces c content fs fs'' := by
  have hw := h.standing.workDir
  obtain ⟨hstanding, hcatalog, hnamesake⟩ := h'
  rw [place_congr hw] at hcatalog hnamesake
  exact ⟨isReach_standing.trans h.standing hstanding,
    ⟨h.displaced.place_ne, h.displaced.before, hnamesake.trans h.displaced.after⟩,
    hstanding.locate h.locate, hcatalog.trans h.catalog⟩

/-- Directories that are made leave the text of a catalog as it is, or take its place while it is missing. -/
theorem added_of_grown {S : Location → Prop} (h : Grown S fs fs') : Added c fs fs' where
  standing := h.standing
  text := by
    intro cs ht
    refine ⟨[], ?_⟩
    rw [List.append_nil]
    rcases h.entries (fs.place (walCatalogPath c)) with he | ⟨-, -, hdir⟩
    · exact ht.congr h.workDir he
    · rw [← place_congr h.workDir] at hdir
      exact .directory hdir
  namesake := fun _ content => h.get?_file_iff

end Outcomes

/-! ## One file -/

/-- The catalog is held open and in its place. -/
structure HeldInPlace (c : ServerConfig) (fs : FileSystem) (handle : AppendHandle) : Prop where
  attached : handle.attached = true
  location : handle.location = fs.place (walCatalogPath c)
  file : ∃ content, fs.tree.get? (fs.place (walCatalogPath c)) = some (.file content)

section OneFile

variable {c : ServerConfig} {name : String} {handle : AppendHandle}

/-- A path below another directory, or with another name, leads elsewhere. -/
theorem place_join_ne {fs : FileSystem} (hname : Path.IsName name) (hne : name ≠ walCatalogName)
    (dir dir' : String) : fs.place (Path.join dir' walCatalogName) ≠ fs.place (Path.join dir name) := by
  rw [place_join hname, place_join isName_walCatalogName]
  intro he
  exact hne (List.cons.inj he).1.symm

/-- **Moving a file with another name does nothing to the catalog** and to an arrival with its name. -/
theorem rename_quiet (fs : FileSystem) (hname : Path.IsName name) (hne : name ≠ walCatalogName) :
    Quiet c fs (after (rename (Path.join c.incomingWalsDirectory name)
      (Path.join c.walsDirectory name)) fs) := by
  have hchange := rename_changesOnly (Path.join c.incomingWalsDirectory name)
    (Path.join c.walsDirectory name) fs
  have hother : ∀ dir, fs.place (Path.join dir walCatalogName)
      ≠ fs.place (Path.join c.incomingWalsDirectory name) ∧
      fs.place (Path.join dir walCatalogName) ≠ fs.place (Path.join c.walsDirectory name) :=
    fun dir => ⟨place_join_ne hname hne _ _, place_join_ne hname hne _ _⟩
  exact ⟨rename_standing _ _ fs, hchange.entries _ (not_or.2 (hother c.walsDirectory)),
    hchange.entries _ (not_or.2 (hother c.incomingWalsDirectory))⟩

/-- **What is appended to a catalog in its place is at the end of its text.** -/
theorem append_added {fs : FileSystem} (hheld : HeldInPlace c fs handle) (more : List Char) :
    Added c fs (after (append handle (Text.encode more)) fs) ∧
      HeldInPlace c (after (append handle (Text.encode more)) fs) handle := by
  obtain ⟨hattached, hlocation, content, hfile⟩ := hheld
  rw [← hlocation] at hfile
  obtain ⟨fs', happend, hw, hget⟩ := append_of_attached (Text.encode more) hattached hfile
  have hstanding := append_standing handle (Text.encode more) fs
  rw [after_of_ok happend] at hstanding ⊢
  have hnew : fs'.tree.get? (fs.place (walCatalogPath c)) = some (.file (content ++ Text.encode more)) := by
    rw [hget, if_pos hlocation.symm]
  have hnew' := hnew
  rw [← place_congr hw] at hnew'
  refine ⟨⟨hstanding, fun cs ht => ⟨more, ?_⟩, fun hne bytes => ?_⟩, hattached, ?_, _, hnew'⟩
  · rw [hlocation] at hfile
    cases ht with
    | missing h =>
      rw [hfile] at h
      cases h
    | file h hd =>
      rw [hfile] at h
      cases h
      exact .file hnew' (Text.decode_append_encode hd more)
    | directory h =>
      rw [hfile] at h
      cases h
  · rw [hget, if_neg (by rwa [hlocation])]
  · rw [place_congr hw, hlocation]

/-- Where both paths lead to one file, nothing moves and the handle stays on it. -/
theorem afterMove_of_same {fs : FileSystem} {source target : String} (h : fs.place source = fs.place target) :
    handle.afterMove (fs.locate source) (fs.locate target) = handle := by
  unfold AppendHandle.afterMove
  split
  · rename_i l k hl hk
    rw [(locate_eq_ok_iff.1 hl).2.2, (locate_eq_ok_iff.1 hk).2.2, if_neg fun hne => hne.1 h]
  · rfl

theorem attached_afterMove (h : handle.attached = false) (source target : Except FileError Location) :
    (handle.afterMove source target).attached = false := by
  unfold AppendHandle.afterMove
  split
  · split
    · rfl
    · exact h
  · exact h

/-- A file with another name is moved, and its name is added to the catalog. -/
theorem archiveOne_of_other {h : Host} (hname : Path.IsName name) (hne : name ≠ walCatalogName)
    (hheld : HeldInPlace c h.files handle) {fs : FileSystem}
    (hr : rename (Path.join c.incomingWalsDirectory name) (Path.join c.walsDirectory name) h.files
      = .ok () fs) :
    ∃ h', archiveOne c handle name h = .ok handle h' ∧ Added c h.files h'.files ∧
      HeldInPlace c h'.files handle := by
  have hmoved := rename_quiet (c := c) h.files hname hne
  rw [after_of_ok hr] at hmoved
  have hw := hmoved.standing.workDir
  have hnow : handle.afterMove (h.files.locate (Path.join c.incomingWalsDirectory name))
      (h.files.locate (Path.join c.walsDirectory name)) = handle := by
    refine afterMove_of_ne hname hne ?_ _
    rw [hheld.location, place_walCatalogPath]
  have hheld' : HeldInPlace c fs handle := by
    refine ⟨hheld.attached, ?_, ?_⟩
    · rw [place_congr hw, hheld.location]
    · rw [place_congr hw, hmoved.catalog]
      exact hheld.file
  obtain ⟨hadded, hheld''⟩ := append_added hheld' (name.toList ++ ['\n'])
  rw [archiveOne_apply, hr, hnow]
  exact ⟨_, rfl, (isReach_added c).trans hmoved.added hadded, hheld''⟩

/-- Where both paths lead to one file, its name is added to the catalog. -/
theorem archiveOne_of_same {h : Host} (hheld : HeldInPlace c h.files handle)
    (hr : rename (Path.join c.incomingWalsDirectory name) (Path.join c.walsDirectory name) h.files
      = .ok () h.files)
    (hsame : h.files.place (Path.join c.incomingWalsDirectory name)
      = h.files.place (Path.join c.walsDirectory name)) :
    ∃ h', archiveOne c handle name h = .ok handle h' ∧ Added c h.files h'.files ∧
      HeldInPlace c h'.files handle := by
  obtain ⟨hadded, hheld'⟩ := append_added hheld (name.toList ++ ['\n'])
  rw [archiveOne_apply, hr, afterMove_of_same hsame]
  exact ⟨_, rfl, hadded, hheld'⟩

/-- **An arrival with the name of the catalog takes its place**: the handle is on no file of the tree any more,
    and what is appended is lost. -/
theorem archiveOne_of_namesake {h : Host} (hheld : HeldInPlace c h.files handle) {content : Bytes}
    {fs : FileSystem}
    (hr : rename (namesakePath c) (walCatalogPath c) h.files = .ok () fs)
    (hmoves : Moves (namesakePath c) (walCatalogPath c) content h.files fs) :
    ∃ now h', archiveOne c handle walCatalogName h = .ok now h' ∧ now.attached = false ∧
      Displaces c content h.files h'.files := by
  have hstanding := rename_standing (namesakePath c) (walCatalogPath c) h.files
  rw [after_of_ok hr] at hstanding
  have hnow : (handle.afterMove (h.files.locate (namesakePath c))
      (h.files.locate (walCatalogPath c))).attached = false := by
    rw [hmoves.source, hmoves.target]
    unfold AppendHandle.afterMove
    dsimp only
    rw [if_pos ⟨hmoves.differ, hheld.location.symm⟩]
  have hlost : ∀ bytes, after (append (handle.afterMove (h.files.locate (namesakePath c))
      (h.files.locate (walCatalogPath c))) bytes) fs = fs := by
    intro bytes
    rw [after_of_ok (append_apply _ bytes fs), hnow]
  have hone : archiveOne c handle walCatalogName h
      = .ok (handle.afterMove (h.files.locate (namesakePath c)) (h.files.locate (walCatalogPath c)))
        { h with files := fs } := by
    unfold namesakePath walCatalogPath at hr hlost ⊢
    rw [archiveOne_apply, hr]
    dsimp only
    rw [hlost]
  refine ⟨_, _, hone, hnow, hstanding, ⟨hmoves.differ, hmoves.file, ?_⟩, hstanding.locate hmoves.target, ?_⟩
  · rw [hmoves.entries, if_neg hmoves.differ, if_pos rfl]
  · rw [hmoves.entries, if_pos rfl]

/-- **One step of archiving**: a failure without a change, more text at the end of the catalog, or an arrival
    in its place. -/
theorem archiveOne_cases_of_held {h : Host} (hname : Path.IsName name)
    (hheld : HeldInPlace c h.files handle) :
    (∃ e h', archiveOne c handle name h = .error e h' ∧ h'.files = h.files) ∨
    (∃ h', archiveOne c handle name h = .ok handle h' ∧ Added c h.files h'.files ∧
      HeldInPlace c h'.files handle) ∨
    name = walCatalogName ∧ ∃ now h' content, archiveOne c handle name h = .ok now h' ∧
      now.attached = false ∧ Displaces c content h.files h'.files := by
  rcases rename_cases (Path.join c.incomingWalsDirectory name) (Path.join c.walsDirectory name)
    h.files with ⟨e, hr⟩ | ⟨hr, hsame⟩ | ⟨content, fs, hr, hmoves⟩
  · rw [archiveOne_apply, hr]
    exact .inl ⟨_, _, rfl, rfl⟩
  · exact .inr (.inl (archiveOne_of_same hheld hr hsame))
  · by_cases hne : name = walCatalogName
    · subst hne
      obtain ⟨now, h', hone, hdetached, hdisplaces⟩ :=
        archiveOne_of_namesake hheld hr hmoves
      exact .inr (.inr ⟨rfl, now, h', content, hone, hdetached, hdisplaces⟩)
    · exact .inr (.inl (archiveOne_of_other hname hne hheld hr))

/-- A step of archiving after the catalog was displaced. -/
theorem archiveOne_of_detached {h : Host} (hname : Path.IsName name) (hne : name ≠ walCatalogName)
    (hdetached : handle.attached = false) :
    Quiet c h.files (after (archiveOne c handle name) h).files ∧
      ∀ now h', archiveOne c handle name h = .ok now h' → now.attached = false := by
  have hquiet := rename_quiet (c := c) h.files hname hne
  unfold after at hquiet ⊢
  rw [archiveOne_apply]
  cases hr : rename (Path.join c.incomingWalsDirectory name) (Path.join c.walsDirectory name)
      h.files with
  | error e fs =>
    rw [hr] at hquiet
    exact ⟨hquiet, fun now h' he => by cases he⟩
  | ok u fs =>
    rw [hr] at hquiet
    have hnow := attached_afterMove hdetached (h.files.locate (Path.join c.incomingWalsDirectory name))
      (h.files.locate (Path.join c.walsDirectory name))
    refine ⟨?_, fun now h' he => ?_⟩
    · dsimp only at hquiet ⊢
      rw [after_of_ok (append_apply _ _ fs), hnow]
      exact hquiet
    · cases he
      exact hnow

end OneFile

/-! ## All files -/

/-- **Once the catalog is displaced, nothing that is archived changes it.** -/
theorem archiveAll_of_detached {c : ServerConfig} {l : List String} (hnames : ∀ n ∈ l, Path.IsName n)
    (hl : walCatalogName ∉ l) {handle : AppendHandle} (hdetached : handle.attached = false) (h : Host) :
    Quiet c h.files (after (archiveAll c handle l) h).files := by
  induction l generalizing handle h with
  | nil => exact (isReach_quiet c).refl h.files
  | cons name r ih =>
    obtain ⟨hname, hr⟩ := List.forall_mem_cons.1 hnames
    obtain ⟨hne, hnot⟩ := List.ne_and_not_mem_of_not_mem_cons hl
    obtain ⟨hone, hnow⟩ := archiveOne_of_detached (c := c) (h := h) hname hne.symm hdetached
    rw [archiveAll_cons_after]
    cases ho : archiveOne c handle name h with
    | error e h' =>
      rw [after_of_error ho] at hone
      exact hone
    | ok now h' =>
      rw [after_of_ok ho] at hone
      exact (isReach_quiet c).trans hone (ih hr hnot (hnow now h' ho) h')

/-- **However far archiving gets, the catalog has grown, or an arrival has taken its place.** The arrivals
    have different names, so this happens once at most. -/
theorem archiveAll_of_held {c : ServerConfig} {l : List String} (hnames : ∀ n ∈ l, Path.IsName n)
    (hnodup : l.Nodup) {handle : AppendHandle} {h : Host} (hheld : HeldInPlace c h.files handle) :
    Added c h.files (after (archiveAll c handle l) h).files ∨
      ∃ content, Displaces c content h.files (after (archiveAll c handle l) h).files := by
  induction l generalizing h with
  | nil => exact .inl ((isReach_added c).refl h.files)
  | cons name r ih =>
    obtain ⟨hname, hr⟩ := List.forall_mem_cons.1 hnames
    obtain ⟨hnot, hrest⟩ := List.nodup_cons.1 hnodup
    rw [archiveAll_cons_after]
    rcases archiveOne_cases_of_held hname hheld with
      ⟨e, h', he, hsame⟩ | ⟨h', he, hadded, hheld'⟩ | ⟨rfl, now, h', content, he, hdetached, hdisplaces⟩
    · rw [he, hsame]
      exact .inl ((isReach_added c).refl h.files)
    · rw [he]
      rcases ih hr hrest hheld' with hmore | ⟨content, hdisplaces⟩
      · exact .inl ((isReach_added c).trans hadded hmore)
      · exact .inr ⟨content, hadded.displaces hdisplaces⟩
    · rw [he]
      exact .inr ⟨content, hdisplaces.quiet (archiveAll_of_detached hr hnot hdetached h')⟩

/-- Opening a catalog adds nothing to it. -/
theorem openCatalog_held {c : ServerConfig} {fs fs' : FileSystem} {handle : AppendHandle}
    (h : openAppend (walCatalogPath c) fs = .ok handle fs') :
    Added c fs fs' ∧ HeldInPlace c fs' handle := by
  rcases openAppend_cases (walCatalogPath c) fs with
    ⟨e, ho⟩ | ⟨-, ⟨content, hfile, ho⟩ | ⟨hnone, hadmits, ho⟩⟩
  · rw [ho] at h
    cases h
  · rw [ho] at h
    cases h
    exact ⟨(isReach_added c).refl fs, rfl, rfl, content, hfile⟩
  · have hstanding := openAppend_standing (walCatalogPath c) fs
    rw [after_of_ok h] at hstanding
    rw [ho] at h
    obtain ⟨rfl, hmade⟩ := EStateM.Result.ok.inj h
    have hplace : fs'.place (walCatalogPath c) = fs.place (walCatalogPath c) :=
      place_congr hstanding.workDir _
    have hnew : fs'.tree.get? (fs'.place (walCatalogPath c)) = some (.file []) := by
      rw [hplace, ← hmade, tree_withTree, get?_put hadmits, if_pos rfl]
    refine ⟨⟨hstanding, fun cs ht => ⟨[], ?_⟩, fun hne content => ?_⟩, rfl, hplace.symm, [], hnew⟩
    · cases ht with
      | missing _ => exact .file hnew rfl
      | file hfile _ =>
        rw [hnone] at hfile
        cases hfile
      | directory hdir =>
        rw [hnone] at hdir
        cases hdir
    · rw [← hmade, tree_withTree, get?_put_of_ne _ hne]

/-! ## The service -/

/-- **Whether it ends well or fails at some file, archiving has made the catalog longer, or an arrival has
    taken its place.** -/
theorem cron_added_or_displaces (c : ServerConfig) (h : Host) :
    Added c h.files (after (cron c) h).files ∨
      ∃ content, Displaces c content h.files (after (cron c) h).files := by
  rcases cron_stages (isReach_added c) (fun p _ fs => added_of_grown (makeDirectories_grown p fs)) h with
    hstop | ⟨names, h', hadded, hlist, hafter⟩
  · exact .inl hstop
  rw [hafter, archivePending_after]
  cases ho : openAppend (walCatalogPath c) h'.files with
  | error e fs =>
    obtain rfl := eq_of_openAppend_error ho
    exact .inl hadded
  | ok handle fs =>
    obtain ⟨hopen, hheld⟩ := openCatalog_held ho
    have hbefore := (isReach_added c).trans hadded hopen
    rcases archiveAll_of_held (fun n => isName_of_mem_pendingNames hlist) (nodup_pendingNames hlist)
      (h := { h' with files := fs }) hheld with hall | ⟨content, hall⟩
    · exact .inl ((isReach_added c).trans hbefore hall)
    · exact .inr ⟨content, hbefore.displaces hall⟩

/-- What is read from a catalog that has a text. -/
theorem readWalCatalog_of_hasText {c : ServerConfig} {fs : FileSystem} {cs : List Char}
    (h : HasText c fs cs) (hdir : fs.isDirectory (walCatalogPath c) = false) :
    ∃ names, readWalCatalog c fs = .ok names ∧
      ∀ l, fs.locate (walCatalogPath c) = .ok l → names = walNames cs := by
  cases hl : fs.locate (walCatalogPath c) with
  | error e =>
    have hnone : ∀ e, fs.entry (walCatalogPath c) ≠ .ok e := by
      intro e he
      obtain ⟨hp, hway, -⟩ := entry_eq_ok_iff.1 he
      rw [locate_eq_ok_iff.2 ⟨hp, hway, rfl⟩] at hl
      cases hl
    exact ⟨_, readWalCatalog_eq_ok_iff.2 ⟨[], .inl ⟨hnone, rfl⟩, rfl⟩, fun l hl => by cases hl⟩
  | ok l =>
    obtain ⟨hp, hway, -⟩ := locate_eq_ok_iff.1 hl
    have hread : ∀ {e}, fs.tree.get? (fs.place (walCatalogPath c)) = some e →
        fs.entry (walCatalogPath c) = .ok e := fun he => entry_eq_ok_iff.2 ⟨hp, hway, he⟩
    cases h with
    | missing hnone =>
      refine ⟨_, readWalCatalog_eq_ok_iff.2 ⟨[], .inl ⟨fun e he => ?_, rfl⟩, rfl⟩, fun _ _ => rfl⟩
      have hsome := (entry_eq_ok_iff.1 he).2.2
      rw [hnone] at hsome
      cases hsome
    | file hfile hd =>
      exact ⟨_, readWalCatalog_eq_ok_iff.2 ⟨cs, .inr ⟨_, hread hfile, hd⟩, rfl⟩, fun _ _ => rfl⟩
    | directory hd =>
      unfold isDirectory at hdir
      rw [hread hd] at hdir
      cases hdir

/-- A catalog that has only grown still lists what it listed, first and in the same order. -/
theorem Added.readWalCatalog {c : ServerConfig} {fs fs' : FileSystem} {names : List String}
    (h : Added c fs fs') (hread : readWalCatalog c fs = .ok names)
    (htext : ∀ bytes, fs.tree.get? (fs.place (walCatalogPath c)) = some (.file bytes) →
      ∃ cs, Text.decode bytes = .ok cs ∧ Text.EndsLine cs)
    (hdir : fs'.isDirectory (walCatalogPath c) = false) :
    ∃ more, Storage.readWalCatalog c fs' = .ok (names ++ more) := by
  obtain ⟨cs, hcatalog, rfl⟩ := readWalCatalog_eq_ok_iff.1 hread
  rcases hcatalog with ⟨-, rfl⟩ | ⟨bytes, he, hd⟩
  · -- Nothing is listed, so it is enough that the catalog can be read afterwards.
    have hsome : ∃ cs, HasText c fs cs := by
      cases hg : fs.tree.get? (fs.place (walCatalogPath c)) with
      | none => exact ⟨[], .missing hg⟩
      | some e =>
        cases e with
        | directory => exact ⟨[], .directory hg⟩
        | file bytes =>
          obtain ⟨cs, hd, -⟩ := htext bytes hg
          exact ⟨cs, .file hg hd⟩
    obtain ⟨cs, hcs⟩ := hsome
    obtain ⟨more, hmore⟩ := h.text cs hcs
    obtain ⟨names, hnames, -⟩ := readWalCatalog_of_hasText hmore hdir
    exact ⟨names, hnames⟩
  · obtain ⟨hp, hway, hg⟩ := entry_eq_ok_iff.1 he
    obtain ⟨cs', hd', hline⟩ := htext bytes hg
    rw [hd] at hd'
    obtain rfl := Except.ok.inj hd'
    obtain ⟨more, hmore⟩ := h.text cs (.file hg hd)
    obtain ⟨names, hnames, hall⟩ := readWalCatalog_of_hasText hmore hdir
    have hlocate := h.standing.locate (locate_eq_ok_iff.2 ⟨hp, hway, rfl⟩)
    rw [hall _ hlocate, walNames_append hline] at hnames
    exact ⟨walNames more, hnames⟩

/-- A catalog that was displaced is the file that took its place. -/
theorem Displaces.entry {c : ServerConfig} {content : Bytes} {fs fs' : FileSystem}
    (h : Displaces c content fs fs') : fs'.entry (walCatalogPath c) = .ok (.file content) := by
  obtain ⟨hp, hway, hplace⟩ := locate_eq_ok_iff.1 h.locate
  have hcatalog := h.catalog
  rw [hplace] at hcatalog
  exact entry_eq_ok_iff.2 ⟨hp, hway, hcatalog⟩

/-- **Archiving keeps the list of a catalog, as the beginning of the new list, unless an arrival with the
    name of the catalog was moved onto it that does not list the same names first**, or a directory of
    storage is where the catalog would be. It does not matter whether archiving ends well, and nothing is
    assumed of the names of the other arrivals. What was moved onto the catalog is all that is left. -/
theorem listed_names_kept_iff_not_displaced (c : ServerConfig) (h : Host) {names : List String}
    (hread : readWalCatalog c h.files = .ok names)
    (htext : ∀ bytes, h.files.tree.get? (h.files.place (walCatalogPath c)) = some (.file bytes) →
      ∃ cs, Text.decode bytes = .ok cs ∧ Text.EndsLine cs) :
    ((∃ more, readWalCatalog c (after (cron c) h).files = .ok (names ++ more)) ↔
      (after (cron c) h).files.isDirectory (walCatalogPath c) = false ∧
        ∀ content, Displaced c content h.files (after (cron c) h).files →
          ∃ cs, Text.decode content = .ok cs ∧ names <+: walNames cs) ∧
    ∀ content, Displaced c content h.files (after (cron c) h).files →
      (after (cron c) h).files.readFile (walCatalogPath c) = .ok content := by
  rcases cron_added_or_displaces c h with hadded | ⟨content, hdisplaces⟩
  · have hnone : ∀ content, ¬Displaced c content h.files (after (cron c) h).files := by
      rintro content ⟨hne, hbefore, hgone⟩
      rw [(hadded.namesake hne content).2 hbefore] at hgone
      cases hgone
    refine ⟨⟨fun hkept => ⟨?_, fun content hd => absurd hd (hnone content)⟩, fun hdir => ?_⟩,
      fun content hd => absurd hd (hnone content)⟩
    · obtain ⟨more, hmore⟩ := hkept
      obtain ⟨cs, hcatalog, -⟩ := readWalCatalog_eq_ok_iff.1 hmore
      unfold isDirectory
      rcases hcatalog with ⟨hmissing, -⟩ | ⟨bytes, he, -⟩
      · cases he : (after (cron c) h).files.entry (walCatalogPath c) with
        | error e => rfl
        | ok e => exact absurd he (hmissing e)
      · rw [he]
    · exact hadded.readWalCatalog hread htext hdir.1
  · have hentry := hdisplaces.entry
    have hsame : ∀ content', Displaced c content' h.files (after (cron c) h).files →
        content' = content := by
      intro content' hd
      have hbefore := hd.before
      rw [hdisplaces.displaced.before] at hbefore
      cases hbefore
      rfl
    refine ⟨⟨fun hkept => ⟨?_, fun content' hd => ?_⟩, fun ⟨_, hall⟩ => ?_⟩, fun content' hd => ?_⟩
    · unfold isDirectory
      rw [hentry]
    · rw [hsame content' hd]
      obtain ⟨more, hmore⟩ := hkept
      obtain ⟨cs, hcatalog, hnames⟩ := readWalCatalog_eq_ok_iff.1 hmore
      rcases hcatalog with ⟨hmissing, -⟩ | ⟨bytes, he, hd⟩
      · exact absurd hentry (hmissing _)
      · rw [hentry] at he
        cases he
        exact ⟨cs, hd, more, hnames⟩
    · obtain ⟨cs, hd, more, hmore⟩ := hall content hdisplaces.displaced
      exact ⟨more, readWalCatalog_eq_ok_iff.2 ⟨cs, .inr ⟨content, hentry, hd⟩, hmore⟩⟩
    · rw [hsame content' hd]
      exact readFile_eq_ok_iff.2 hentry

/-! ### An arrival with the name of the catalog -/

namespace NamesakeArrival

/-- One server, stored in `srv`. -/
def server : ServerConfig := ServerConfig.new "main" "srv"

/-- The catalog lists two names, and a file with the name of the catalog has arrived. -/
def host : Host :=
  let home : Location := ["main", "srv"]
  let tree := ((((FileTree.empty.put ["srv"] .directory).put home .directory).put ("wals" :: home)
    .directory).put ("incoming" :: home) .directory)
  let catalog := Text.encode (walCatalogText ["A", "B"])
  { (default : Host) with
    files := ⟨(tree.put (walCatalogName :: "wals" :: home) (.file catalog)).put
      (walCatalogName :: "incoming" :: home) (.file [120]), [], []⟩ }

/-- The catalog in front of the arrival is a text of two lines. -/
theorem text_of_catalog : ∀ bytes,
    host.files.tree.get? (host.files.place (walCatalogPath server)) = some (.file bytes) →
      ∃ cs, Text.decode bytes = .ok cs ∧ Text.EndsLine cs := by
  intro bytes hbytes
  have hget : host.files.tree.get? (host.files.place (walCatalogPath server))
      = some (.file (Text.encode (walCatalogText ["A", "B"]))) := by decide +kernel
  rw [hget] at hbytes
  cases hbytes
  exact ⟨_, Text.decode_encode _, .inr (by decide)⟩

end NamesakeArrival

open NamesakeArrival in
/-- The names that were listed are listed no more. -/
theorem listed_names_lost_to_namesake :
    readWalCatalog server host.files = .ok ["A", "B"] ∧
      ¬∃ more, readWalCatalog server (after (cron server) host).files = .ok (["A", "B"] ++ more) := by
  have hread : readWalCatalog server host.files = .ok ["A", "B"] := by rfl
  refine ⟨hread, fun hkept => ?_⟩
  have hdisplaced : Displaced server [120] host.files (after (cron server) host).files :=
    ⟨by decide +kernel, by decide +kernel, by decide +kernel⟩
  have hlisted := ((listed_names_kept_iff_not_displaced server host hread text_of_catalog).1.1 hkept).2
    [120] hdisplaced
  obtain ⟨cs, hd, hprefix⟩ := hlisted
  have hx : Text.decode [120] = .ok ['x'] := by rfl
  rw [hx] at hd
  obtain rfl := Except.ok.inj hd
  exact absurd hprefix (by decide +kernel)

end BackupFleet.Storage
