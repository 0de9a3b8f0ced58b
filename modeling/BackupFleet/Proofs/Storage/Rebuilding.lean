import BackupFleet.Proofs.Storage.Archiving

/-!
# `BackupFleet.Proofs.Storage.Rebuilding` — what writing a catalog anew does to it

A rebuild reads the names off the archive. What it writes lists each archived file once, whatever the
catalog was before; if it fails, the catalog is what it was.

## Contents

* `Lists`, `Rewrites`, `Rebuilds` — a catalog written anew or left, for one server and for a fleet;
* `mem_archivedNames`, `nodup_archivedNames` — the names that are written;
* `rebuildWalCatalog_ok`, `rebuildWalCatalog_rebuilds`, `lists_of_rebuild` — the service.
-/

namespace BackupFleet.Storage

open FileTree FileSystem Effect

/-! ## Catalogs written anew -/

/-- The text lists each archived file once, and nothing else. -/
def Lists (c : ServerConfig) (fs : FileSystem) (cs : List Char) : Prop :=
  ∃ names, cs = walCatalogText names ∧ names.Nodup ∧ ∀ n, n ∈ names ↔ Archived c fs n

/-- The text of the catalog was left as it is, or it lists each archived file once now. -/
structure Rewrites (c : ServerConfig) (cs cs' : List Char) (fs fs' : FileSystem) : Prop where
  catalogued : Catalogued c fs' cs'
  listed : cs' = cs ∨ Lists c fs' cs'
  archived : ∀ n, Archived c fs' n ↔ Archived c fs n
  pending : ∀ n, Pending c fs' n ↔ Pending c fs n

namespace Rewrites

variable {c : ServerConfig} {cs cs' : List Char} {fs fs' fs'' : FileSystem}

theorem of_same (h : Catalogued c fs cs) (hs : SameArchive c fs fs') (hp : PlainArchive c fs) :
    Rewrites c cs cs fs fs' :=
  ⟨h.congr hs hp, .inl rfl, hs.archived_iff hp, hs.pending_iff hp⟩

theorem lists (h : Rewrites c cs cs' fs fs') (hl : Lists c fs cs) : Lists c fs' cs' := by
  rcases h.listed with rfl | hn
  · obtain ⟨names, hcs, hnodup, hlists⟩ := hl
    exact ⟨names, hcs, hnodup, fun n => (hlists n).trans (h.archived n).symm⟩
  · exact hn

theorem trans {cs'' : List Char} (h : Rewrites c cs cs' fs fs')
    (h' : Rewrites c cs' cs'' fs' fs'') : Rewrites c cs cs'' fs fs'' where
  catalogued := h'.catalogued
  listed := by
    rcases h.listed with rfl | hn
    · exact h'.listed
    · exact .inr (h'.lists hn)
  archived := fun n => (h'.archived n).trans (h.archived n)
  pending := fun n => (h'.pending n).trans (h.pending n)

end Rewrites

/-- **A text that lists each archived file once agrees with the archive**, and stops at the end of a
    line. -/
theorem Lists.agrees {c : ServerConfig} {fs : FileSystem} {cs : List Char} (h : Lists c fs cs)
    (hc : Catalogued c fs cs) : Agrees c fs := by
  obtain ⟨names, rfl, hnodup, hlists⟩ := h
  have hread : walNames (walCatalogText names) = names :=
    walNames_walCatalogText fun n hn => hc.listable n ((hlists n).1 hn)
  rw [agrees_iff hc.text, hread]
  exact ⟨hnodup, hlists⟩

theorem Lists.finished {c : ServerConfig} {fs : FileSystem} {cs : List Char} (h : Lists c fs cs) :
    Finished cs := by
  obtain ⟨names, rfl, -, -⟩ := h
  exact finished_of_endsLine (endsLine_walCatalogText names)

/-- For every server of the fleet whose catalog was in order, the catalog was left or written anew. -/
structure Rebuilds (f : Fleet) (fs fs' : FileSystem) : Prop where
  workDir : fs'.workDir = fs.workDir
  rewrites : PlainLayout f fs → ∀ c ∈ f.servers, ∀ cs, Catalogued c fs cs →
    ∃ cs', Rewrites c cs cs' fs fs'

theorem isReach_rebuilds (f : Fleet) : IsReach (Rebuilds f) where
  refl := fun fs => ⟨rfl, fun _ c _ cs hc => ⟨cs, hc, .inl rfl, fun _ => Iff.rfl, fun _ => Iff.rfl⟩⟩
  trans := by
    intro a b d h h'
    refine ⟨h'.workDir.trans h.workDir, fun hl c hc cs hcs => ?_⟩
    obtain ⟨cs', hr⟩ := h.rewrites hl c hc cs hcs
    obtain ⟨cs'', hr'⟩ := h'.rewrites (hl.congr h.workDir) c hc _ hr.catalogued
    exact ⟨cs'', hr.trans hr'⟩

/-- What leaves every archive alone leaves every catalog. -/
theorem rebuilds_of_same {f : Fleet} {fs fs' : FileSystem} (hw : fs'.workDir = fs.workDir)
    (h : PlainLayout f fs → ∀ c ∈ f.servers, SameArchive c fs fs') : Rebuilds f fs fs' :=
  ⟨hw, fun hl c hc _ hn => ⟨_, .of_same hn (h hl c hc) (hl.archive hc)⟩⟩

/-! ## The names that are written -/

section Names

variable {c : ServerConfig} {fs : FileSystem} {names : List String}

/-- **The names that are written are those of the archived files.** -/
theorem mem_archivedNames (h : fs.listDirectory c.walsDirectory = .ok names) (n : String) :
    n ∈ archivedNames c fs names ↔ Archived c fs n := by
  unfold archivedNames
  rw [mem_sortOn, List.mem_filter, mem_listDirectory h]
  simp only [Bool.and_eq_true, decide_eq_true_eq]
  constructor
  · rintro ⟨hn, hfile, hx⟩
    obtain ⟨e, he⟩ := Option.ne_none_iff_exists'.1 hn
    exact ⟨isName_of_get? he, hx, hfile⟩
  · rintro ⟨hn, hx, hfile⟩
    obtain ⟨content, he⟩ := isFile_iff.1 hfile
    have hg := (entry_eq_ok_iff.1 he).2.2
    rw [place_join hn] at hg
    exact ⟨by rw [hg]; simp, hfile, hx⟩

/-- **None of them is written twice**, since a directory has each name once. -/
theorem nodup_archivedNames (h : fs.listDirectory c.walsDirectory = .ok names) :
    (archivedNames c fs names).Nodup := by
  obtain ⟨-, rfl⟩ := listDirectory_eq_ok_iff.1 h
  refine (sortOn_perm id _).nodup_iff.2 ((nodup_childNames _ _).sublist List.filter_sublist)

/-- **A catalog that was written anew lists each archived file once.** -/
theorem rewrites_of_written {old : List Char} {fs' : FileSystem} (hp : PlainArchive c fs)
    (hlist : fs.listDirectory c.walsDirectory = .ok names) (hc : Catalogued c fs old)
    (h : writeFile (walCatalogPath c) (Text.encode (walCatalogText (archivedNames c fs names))) fs
      = .ok () fs') :
    Rewrites c old (walCatalogText (archivedNames c fs names)) fs fs' ∧
      Lists c fs' (walCatalogText (archivedNames c fs names)) := by
  have honly : OnlyCatalog c fs fs' := by
    have hchange := writeFile_changesOnly (walCatalogPath c)
      (Text.encode (walCatalogText (archivedNames c fs names))) fs
    rwa [after_of_ok h, place_walCatalogPath] at hchange
  have htext : CatalogText c fs' (walCatalogText (archivedNames c fs names)) :=
    .inr ⟨_, entry_of_writeFile h, Text.decode_encode _⟩
  have hlists : Lists c fs' (walCatalogText (archivedNames c fs names)) :=
    ⟨_, rfl, nodup_archivedNames hlist, fun n => by rw [mem_archivedNames hlist, honly.archived_iff hp]⟩
  exact ⟨⟨honly.catalogued hp hc htext, .inr hlists, honly.archived_iff hp, honly.pending_iff hp⟩, hlists⟩

end Names

/-! ## The service -/

/-- What a rebuild does once the directory of the archive is there. -/
def rewriteCatalog (c : ServerConfig) : Operation Host Nat := do
  let names ← Host.ask fun fs =>
    attemptTo .readDirectory c.walsDirectory (fs.listDirectory c.walsDirectory)
  let archived := archivedNames c (← get).files names
  Host.onFiles .writeWalCatalog (walCatalogPath c)
    (writeFile (walCatalogPath c) (Text.encode (walCatalogText archived)))
  pure archived.length

theorem rebuildWalCatalog_eq (c : ServerConfig) :
    rebuildWalCatalog c =
      (Host.onFiles .createDirectory c.walsDirectory (makeDirectories c.walsDirectory) >>=
        fun _ => rewriteCatalog c) := rfl

theorem rewriteCatalog_apply (c : ServerConfig) (h : Host) :
    rewriteCatalog c h = match h.files.listDirectory c.walsDirectory with
      | .error e => .error (.file .readDirectory c.walsDirectory e) h
      | .ok names =>
        match writeFile (walCatalogPath c)
            (Text.encode (walCatalogText (archivedNames c h.files names))) h.files with
        | .ok () fs => .ok (archivedNames c h.files names).length { h with files := fs }
        | .error e fs =>
          .error (.file .writeWalCatalog (walCatalogPath c) e) { h with files := fs } := by
  unfold rewriteCatalog
  simp only [bind_apply, Host.ask_apply, get_apply, Host.onFiles_apply]
  cases h.files.listDirectory c.walsDirectory with
  | error e => rfl
  | ok names =>
    simp only [attemptTo]
    cases writeFile (walCatalogPath c)
      (Text.encode (walCatalogText (archivedNames c h.files names))) h.files <;> rfl

/-- The catalog is written anew, or a failure leaves everything as it is. -/
theorem rewriteCatalog_cases (c : ServerConfig) (h : Host) :
    (∃ e, rewriteCatalog c h = .error e h) ∨
    ∃ names fs, h.files.listDirectory c.walsDirectory = .ok names ∧
      writeFile (walCatalogPath c) (Text.encode (walCatalogText (archivedNames c h.files names))) h.files
        = .ok () fs ∧
      rewriteCatalog c h = .ok (archivedNames c h.files names).length { h with files := fs } := by
  rw [rewriteCatalog_apply]
  cases hlist : h.files.listDirectory c.walsDirectory with
  | error e => exact .inl ⟨_, rfl⟩
  | ok names =>
    dsimp only
    rcases writeFile_cases (walCatalogPath c)
      (Text.encode (walCatalogText (archivedNames c h.files names))) h.files with
      ⟨e, hw⟩ | ⟨hw, -, -⟩
    · rw [hw]
      exact .inl ⟨_, rfl⟩
    · exact .inr ⟨names, _, rfl, hw, by rw [hw]⟩

/-- A rebuild that succeeds makes the directory of the archive, lists it and writes the catalog. -/
theorem rebuildWalCatalog_ok {c : ServerConfig} {h h' : Host} {n : Nat}
    (hr : rebuildWalCatalog c h = .ok n h') :
    ∃ fs names, makeDirectories c.walsDirectory h.files = .ok () fs ∧
      fs.listDirectory c.walsDirectory = .ok names ∧
      writeFile (walCatalogPath c) (Text.encode (walCatalogText (archivedNames c fs names))) fs
        = .ok () h'.files ∧
      n = (archivedNames c fs names).length ∧ h' = { h with files := h'.files } := by
  rw [rebuildWalCatalog_eq, bind_eq_ok_iff] at hr
  obtain ⟨u, h1, hmake, hrewrite⟩ := hr
  rw [Host.onFiles_apply] at hmake
  cases hm : makeDirectories c.walsDirectory h.files with
  | error e fs =>
    rw [hm] at hmake
    cases hmake
  | ok u fs =>
    rw [hm] at hmake
    cases hmake
    rcases rewriteCatalog_cases c { h with files := fs } with ⟨e, he⟩ | ⟨names, fs', hlist, hw, hok⟩
    · rw [he] at hrewrite
      cases hrewrite
    · rw [hok] at hrewrite
      cases hrewrite
      exact ⟨fs, names, rfl, hlist, hw, rfl, rfl⟩

/-- What a rebuild writes is in the archive of its server. -/
theorem rewriteCatalog_changesOnly (c : ServerConfig) (h : Host) :
    ChangesOnly (InArchive c h.files) h.files (after (rewriteCatalog c) h).files := by
  rcases rewriteCatalog_cases c h with ⟨e, hr⟩ | ⟨names, fs, -, hw, hr⟩
  · rw [after_of_error hr]
    exact (isReach_changesOnly _).refl h.files
  · have hchange := writeFile_changesOnly (walCatalogPath c)
      (Text.encode (walCatalogText (archivedNames c h.files names))) h.files
    rw [after_of_ok hw] at hchange
    rw [after_of_ok hr]
    refine hchange.mono ?_
    rintro k rfl
    exact ⟨walCatalogName, .inl (place_walCatalogPath c h.files)⟩

theorem rewriteCatalog_rebuilds {f : Fleet} {c : ServerConfig} (hc : c ∈ f.servers) :
    Host.FilesWithin (Rebuilds f) (rewriteCatalog c) := by
  intro h
  have hchange := rewriteCatalog_changesOnly c h
  rcases rewriteCatalog_cases c h with ⟨e, hr⟩ | ⟨names, fs, hlist, hw, hr⟩
  · rw [after_of_error hr]
    exact (isReach_rebuilds f).refl _
  · rw [after_of_ok hr] at hchange ⊢
    refine ⟨hchange.workDir, fun hl d hd old hcat => ?_⟩
    by_cases hdc : d = c
    · subst hdc
      exact ⟨_, (rewrites_of_written (hl.archive hd) hlist hcat hw).1⟩
    · exact ⟨old, .of_same hcat (sameArchive_of_other hl hc hd hdc hchange) (hl.archive hd)⟩

theorem makeWals_rebuilds {f : Fleet} {c : ServerConfig} (hc : c ∈ f.servers) :
    Within (Rebuilds f) (makeDirectories c.walsDirectory) := by
  intro fs
  refine rebuilds_of_same (makeDirectories_grown c.walsDirectory fs).workDir ?_
  exact fun hl d hd => sameArchive_makeDirectories hl (mem_storagePaths_wals hc) hd

/-- **A rebuild leaves the catalog of its server or writes it anew**, and touches no other archive. -/
theorem rebuildWalCatalog_rebuilds {f : Fleet} {c : ServerConfig} (hc : c ∈ f.servers) :
    Host.FilesWithin (Rebuilds f) (rebuildWalCatalog c) := by
  rw [rebuildWalCatalog_eq]
  exact Within.bind (Host.isReach_files (isReach_rebuilds f)) (Host.FilesWithin.onFiles (makeWals_rebuilds hc))
    fun _ _ h _ => rewriteCatalog_rebuilds hc h

/-- **After a rebuild that succeeds, the catalog lists each archived file once.** -/
theorem lists_of_rebuild {f : Fleet} {c : ServerConfig} (hc : c ∈ f.servers) {h h' : Host} {n : Nat}
    (hr : rebuildWalCatalog c h = .ok n h') (hl : PlainLayout f h.files) {old : List Char}
    (hcat : Catalogued c h.files old) : ∃ cs, Catalogued c h'.files cs ∧ Lists c h'.files cs := by
  obtain ⟨fs, names, hmake, hlist, hw, -, -⟩ := rebuildWalCatalog_ok hr
  have hensure := makeWals_rebuilds hc h.files
  rw [after_of_ok hmake] at hensure
  obtain ⟨old', hold⟩ := hensure.rewrites hl c hc old hcat
  obtain ⟨hrew, hlists⟩ :=
    rewrites_of_written ((hl.congr hensure.workDir).archive hc) hlist hold.catalogued hw
  exact ⟨_, hrew.catalogued, hlists⟩

end BackupFleet.Storage
