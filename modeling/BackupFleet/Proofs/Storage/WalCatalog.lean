import BackupFleet.Proofs.Config.Layout
import BackupFleet.Proofs.FileSystem.Effect
import BackupFleet.Proofs.Storage.WalText
import BackupFleet.Storage.Services

/-!
# `BackupFleet.Proofs.Storage.WalCatalog` — a catalog and its archive

The catalog of WAL files is a text that two services maintain, and nothing reads the archive itself
except one of them. `Catalogued` is what everything keeps: the catalog has a text, and the files that are
archived or wait to be archived have names that can be listed. Which names the text lists, and how often,
is left open here; the text is a parameter.

All of it is a matter of the entries in two directories (`Catalogued.congr`), so whatever is done
elsewhere leaves it alone.

## Contents

* `Archived`, `Pending`, `Deliverable`, `Agrees`, `Covers` — what is said of a catalog;
* `CatalogText`, `readWalCatalog_eq_ok_iff` — its text, and the answers of a look-up;
* `Catalogued`, `Catalogued.congr`, `OnlyCatalog` — the invariant and what it depends on;
* `not_agrees_of_merged` — a line that was not finished.
-/

namespace BackupFleet.Storage

open FileTree FileSystem

/-! ## The archive and its catalog -/

/-- A file of the archive, other than the catalog. -/
def Archived (c : ServerConfig) (fs : FileSystem) (name : String) : Prop :=
  Path.IsName name ∧ name ≠ walCatalogName ∧ fs.isFile (Path.join c.walsDirectory name) = true

/-- A file that has arrived and waits to be archived. -/
def Pending (c : ServerConfig) (fs : FileSystem) (name : String) : Prop :=
  Path.IsName name ∧ fs.isFile (Path.join c.incomingWalsDirectory name) = true

instance (c : ServerConfig) (fs : FileSystem) (name : String) : Decidable (Archived c fs name) :=
  inferInstanceAs (Decidable (_ ∧ _ ∧ _))

instance (c : ServerConfig) (fs : FileSystem) (name : String) : Decidable (Pending c fs name) :=
  inferInstanceAs (Decidable (_ ∧ _))

/-- The name is not empty, has no white space in it and is not the name of the catalog. -/
def Deliverable (name : String) : Prop :=
  name ≠ "" ∧ (∀ c ∈ name.toList, Text.isBlank c = false) ∧ name ≠ walCatalogName

instance (name : String) : Decidable (Deliverable name) :=
  have : Decidable (∀ c ∈ name.toList, Text.isBlank c = false) := List.decidableBAll _ _
  inferInstanceAs (Decidable (_ ∧ _ ∧ _))

/-- The catalog lists every archived file exactly once, and nothing else. -/
def Agrees (c : ServerConfig) (fs : FileSystem) : Prop :=
  ∃ names, readWalCatalog c fs = .ok names ∧ names.Nodup ∧ ∀ n, n ∈ names ↔ Archived c fs n

/-- The catalog lists every archived file, and nothing else. -/
def Covers (c : ServerConfig) (fs : FileSystem) : Prop :=
  ∃ names, readWalCatalog c fs = .ok names ∧ ∀ n, n ∈ names ↔ Archived c fs n

theorem listable_of_deliverable {name : String} (h : Deliverable name) : Listable name :=
  listable_of_no_blank h.1 h.2.1

theorem isName_walCatalogName : Path.IsName walCatalogName := by decide

theorem place_walCatalogPath (c : ServerConfig) (fs : FileSystem) :
    fs.place (walCatalogPath c) = walCatalogName :: fs.place c.walsDirectory :=
  place_join isName_walCatalogName fs c.walsDirectory

/-! ## Look-ups -/

/-- The same is found at the ends of a path before and after. -/
def SameFound (fs fs' : FileSystem) (p : String) : Prop := ∀ e, fs'.entry p = .ok e ↔ fs.entry p = .ok e

theorem isFile_congr {fs fs' : FileSystem} {p : String} (h : SameFound fs fs' p) :
    fs'.isFile p = fs.isFile p := by
  have hiff : fs'.isFile p = true ↔ fs.isFile p = true := by
    rw [isFile_iff, isFile_iff]
    exact exists_congr fun content => h _
  exact Bool.eq_iff_iff.2 hiff

theorem readText_eq_ok_iff {fs : FileSystem} {p : String} {cs : List Char} :
    fs.readText p = .ok cs ↔
      ∃ bytes, fs.entry p = .ok (.file bytes) ∧ Text.decode bytes = .ok cs := by
  unfold readText readFile
  cases he : fs.entry p with
  | error e => simp [bind, Except.bind]
  | ok e =>
    cases e with
    | directory => simp [bind, Except.bind]
    | file bytes =>
      simp only [bind, Except.bind, pure, Except.pure]
      cases hd : Text.decode bytes with
      | error err => simp [hd]
      | ok text => simp [hd]

/-- The text of a catalog. A missing catalog is read like an empty one. -/
def CatalogText (c : ServerConfig) (fs : FileSystem) (cs : List Char) : Prop :=
  ((∀ e, fs.entry (walCatalogPath c) ≠ .ok e) ∧ cs = []) ∨
  ∃ bytes, fs.entry (walCatalogPath c) = .ok (.file bytes) ∧ Text.decode bytes = .ok cs

/-- The last line of a catalog has its end, if the catalog has a text. -/
def Ended (c : ServerConfig) (fs : FileSystem) : Prop := ∀ cs, CatalogText c fs cs → Finished cs

/-- **What is read from a catalog are the names in its text.** -/
theorem readWalCatalog_eq_ok_iff {c : ServerConfig} {fs : FileSystem} {names : List String} :
    readWalCatalog c fs = .ok names ↔ ∃ cs, CatalogText c fs cs ∧ names = walNames cs := by
  unfold readWalCatalog
  constructor
  · intro h
    by_cases hx : fs.exists_ (walCatalogPath c) = true
    · rw [if_pos hx] at h
      cases ht : fs.readText (walCatalogPath c) with
      | error e => rw [ht] at h; cases h
      | ok cs =>
        rw [ht] at h
        cases h
        exact ⟨cs, .inr (readText_eq_ok_iff.1 ht), rfl⟩
    · rw [if_neg hx] at h
      cases h
      exact ⟨[], .inl ⟨fun e he => hx (exists_iff.2 ⟨e, he⟩), rfl⟩, rfl⟩
  · rintro ⟨cs, ⟨hnone, rfl⟩ | ⟨bytes, he, hd⟩, rfl⟩
    · rw [if_neg fun hx => (exists_iff.1 hx).elim hnone]
      rfl
    · rw [if_pos (exists_iff.2 ⟨_, he⟩), readText_eq_ok_iff.2 ⟨bytes, he, hd⟩]
      rfl

/-- A catalog has one text. -/
theorem CatalogText.unique {c : ServerConfig} {fs : FileSystem} {cs cs' : List Char}
    (h : CatalogText c fs cs) (h' : CatalogText c fs cs') : cs = cs' := by
  rcases h with ⟨hnone, rfl⟩ | ⟨bytes, he, hd⟩ <;> rcases h' with ⟨hnone', rfl⟩ | ⟨bytes', he', hd'⟩
  · rfl
  · exact absurd he' (hnone _)
  · exact absurd he (hnone' _)
  · rw [he] at he'
    cases he'
    rw [hd] at hd'
    cases hd'
    rfl

theorem ended_iff {c : ServerConfig} {fs : FileSystem} {cs : List Char} (h : CatalogText c fs cs) :
    Ended c fs ↔ Finished cs := by
  constructor
  · exact fun he => he cs h
  · intro hf cs' h'
    rwa [h'.unique h]

/-- A catalog at whose path the same is found has the same text. -/
theorem CatalogText.congr {c : ServerConfig} {fs fs' : FileSystem} {cs : List Char}
    (hs : SameFound fs fs' (walCatalogPath c)) (h : CatalogText c fs cs) : CatalogText c fs' cs := by
  rcases h with ⟨hnone, rfl⟩ | ⟨bytes, he, hd⟩
  · exact .inl ⟨fun e he => hnone e ((hs e).1 he), rfl⟩
  · exact .inr ⟨bytes, (hs _).2 he, hd⟩

/-! ## The invariant -/

/-- The catalog has this text, what is archived has a name that comes out of a catalog as it went in, and
    so has what waits to be archived. -/
structure Catalogued (c : ServerConfig) (fs : FileSystem) (cs : List Char) : Prop where
  text : CatalogText c fs cs
  listable : ∀ n, Archived c fs n → Listable n
  clean : ∀ n, Pending c fs n → Deliverable n

/-- A catalog that agrees with its archive is in order if the names of what waits can be listed. -/
theorem Agrees.catalogued {c : ServerConfig} {fs : FileSystem} (h : Agrees c fs)
    (hclean : ∀ n, Pending c fs n → Deliverable n) : ∃ cs, Catalogued c fs cs := by
  obtain ⟨names, hread, -, hlists⟩ := h
  obtain ⟨cs, htext, rfl⟩ := readWalCatalog_eq_ok_iff.1 hread
  exact ⟨cs, htext, fun n hn => listable_of_mem_walNames ((hlists n).2 hn), hclean⟩

theorem agrees_iff {c : ServerConfig} {fs : FileSystem} {cs : List Char} (h : CatalogText c fs cs) :
    Agrees c fs ↔ (walNames cs).Nodup ∧ ∀ n, n ∈ walNames cs ↔ Archived c fs n := by
  constructor
  · rintro ⟨names, hread, hnodup, hlists⟩
    obtain ⟨cs', htext, rfl⟩ := readWalCatalog_eq_ok_iff.1 hread
    obtain rfl := htext.unique h
    exact ⟨hnodup, hlists⟩
  · exact fun hc => ⟨walNames cs, readWalCatalog_eq_ok_iff.2 ⟨cs, h, rfl⟩, hc.1, hc.2⟩

theorem covers_iff {c : ServerConfig} {fs : FileSystem} {cs : List Char} (h : CatalogText c fs cs) :
    Covers c fs ↔ ∀ n, n ∈ walNames cs ↔ Archived c fs n := by
  constructor
  · rintro ⟨names, hread, hlists⟩
    obtain ⟨cs', htext, rfl⟩ := readWalCatalog_eq_ok_iff.1 hread
    obtain rfl := htext.unique h
    exact hlists
  · exact fun hc => ⟨walNames cs, readWalCatalog_eq_ok_iff.2 ⟨cs, h, rfl⟩, hc⟩

theorem Agrees.covers {c : ServerConfig} {fs : FileSystem} (h : Agrees c fs) : Covers c fs := by
  obtain ⟨names, hread, -, hlists⟩ := h
  exact ⟨names, hread, hlists⟩

/-- What two states have in common as far as the archive of a server is concerned. -/
structure SameArchive (c : ServerConfig) (fs fs' : FileSystem) : Prop where
  workDir : fs'.workDir = fs.workDir
  wals : ∀ n, fs'.tree.get? (n :: fs.place c.walsDirectory)
    = fs.tree.get? (n :: fs.place c.walsDirectory)
  incoming : ∀ n, fs'.tree.get? (n :: fs.place c.incomingWalsDirectory)
    = fs.tree.get? (n :: fs.place c.incomingWalsDirectory)

section Congr

variable {c : ServerConfig} {fs fs' : FileSystem}

/-- In a directory whose path goes down, the same is found where the same entry is. -/
theorem sameFound_join {dir name : String} (hdir : GoesDown dir) (hname : Path.IsName name)
    (hw : fs'.workDir = fs.workDir)
    (h : fs'.tree.get? (name :: fs.place dir) = fs.tree.get? (name :: fs.place dir)) :
    SameFound fs fs' (Path.join dir name) := by
  intro e
  rw [entry_join_iff hdir hname, entry_join_iff hdir hname, place_congr hw, h]

/-- A file waits where it waited before, if the same entry is there. -/
theorem pending_congr (hp : PlainArchive c fs) (hw : fs'.workDir = fs.workDir) {n : String}
    (h : fs'.tree.get? (n :: fs.place c.incomingWalsDirectory)
      = fs.tree.get? (n :: fs.place c.incomingWalsDirectory)) : Pending c fs' n ↔ Pending c fs n := by
  refine and_congr_right fun hn => ?_
  rw [isFile_congr (sameFound_join hp.incoming hn hw h)]

/-- A file is archived where it was archived before, if the same entry is there. -/
theorem archived_congr (hp : PlainArchive c fs) (hw : fs'.workDir = fs.workDir) {n : String}
    (h : n ≠ walCatalogName → fs'.tree.get? (n :: fs.place c.walsDirectory)
      = fs.tree.get? (n :: fs.place c.walsDirectory)) : Archived c fs' n ↔ Archived c fs n := by
  refine and_congr_right fun hn => and_congr_right fun hcatalog => ?_
  rw [isFile_congr (sameFound_join hp.wals hn hw (h hcatalog))]

theorem SameArchive.pending_iff (h : SameArchive c fs fs') (hp : PlainArchive c fs) (n : String) :
    Pending c fs' n ↔ Pending c fs n :=
  pending_congr hp h.workDir (h.incoming n)

theorem SameArchive.archived_iff (h : SameArchive c fs fs') (hp : PlainArchive c fs) (n : String) :
    Archived c fs' n ↔ Archived c fs n :=
  archived_congr hp h.workDir fun _ => h.wals n

/-- **What leaves the archive alone leaves the catalog in order**, as long as the names of what arrives can
    be listed. -/
theorem Catalogued.of_wals {cs : List Char} (hc : Catalogued c fs cs) (hp : PlainArchive c fs)
    (hw : fs'.workDir = fs.workDir)
    (hwals : ∀ n, fs'.tree.get? (n :: fs.place c.walsDirectory)
      = fs.tree.get? (n :: fs.place c.walsDirectory))
    (hclean : ∀ n, Pending c fs' n → Deliverable n) : Catalogued c fs' cs where
  text := hc.text.congr (sameFound_join hp.wals isName_walCatalogName hw (hwals walCatalogName))
  listable := fun n hn => hc.listable n ((archived_congr hp hw fun _ => hwals n).1 hn)
  clean := hclean

/-- **What is done elsewhere leaves a catalog and its archive alone.** -/
theorem Catalogued.congr {cs : List Char} (hc : Catalogued c fs cs) (h : SameArchive c fs fs')
    (hp : PlainArchive c fs) : Catalogued c fs' cs :=
  hc.of_wals hp h.workDir h.wals fun n hn => hc.clean n ((h.pending_iff hp n).1 hn)

/-- A file that is at the location of the catalog is found under its path. -/
theorem entry_walCatalogPath (hp : PlainArchive c fs) (hpath : IsPath (walCatalogPath c)) {e : Entry}
    (h : fs.tree.get? (walCatalogName :: fs.place c.walsDirectory) = some e) :
    fs.entry (walCatalogPath c) = .ok e :=
  (entry_join_iff hp.wals isName_walCatalogName).2 ⟨hpath, h⟩

/-- Nothing has changed but the catalog. -/
abbrev OnlyCatalog (c : ServerConfig) (fs fs' : FileSystem) : Prop :=
  ChangesOnly (· = walCatalogName :: fs.place c.walsDirectory) fs fs'

theorem OnlyCatalog.pending_iff (h : OnlyCatalog c fs fs') (hp : PlainArchive c fs) (n : String) :
    Pending c fs' n ↔ Pending c fs n :=
  pending_congr hp h.workDir (h.entries _ fun he => hp.cross _ _ he.symm)

theorem OnlyCatalog.archived_iff (h : OnlyCatalog c fs fs') (hp : PlainArchive c fs) (n : String) :
    Archived c fs' n ↔ Archived c fs n :=
  archived_congr hp h.workDir fun hn => h.entries _ fun he => hn (List.cons.inj he).1

/-- **A catalog may be given any text.** -/
theorem OnlyCatalog.catalogued (h : OnlyCatalog c fs fs') (hp : PlainArchive c fs) {cs cs' : List Char}
    (hc : Catalogued c fs cs) (htext : CatalogText c fs' cs') : Catalogued c fs' cs' where
  text := htext
  listable := fun n hn => hc.listable n ((h.archived_iff hp n).1 hn)
  clean := fun n hn => hc.clean n ((h.pending_iff hp n).1 hn)

end Congr

/-! ## A line that was not finished -/

/-- **A catalog that agreed with its archive does not do so after a name was appended in the middle of a
    line.** The line that came of it is none of the archived names. -/
theorem not_agrees_of_merged {c : ServerConfig} {fs fs' : FileSystem} {cs : List Char}
    {name : String} {r : List String} (hagrees : Agrees c fs) (htext : CatalogText c fs cs)
    (hnot : ¬Finished cs) (hdeliver : Deliverable name) (hr : ∀ n ∈ r, Listable n)
    (htext' : CatalogText c fs' (cs ++ walCatalogText (name :: r)))
    (harchived : ∀ n, Archived c fs' n ↔ Archived c fs n ∨ n ∈ name :: r) : ¬Agrees c fs' := by
  obtain ⟨init, line, merged, hold, hnew, hne, hne'⟩ :=
    walNames_append_unfinished hnot hdeliver.1 hdeliver.2.1
  have hlists := ((agrees_iff htext).1 hagrees).2
  intro hagrees'
  obtain ⟨hnodup, hlists'⟩ := (agrees_iff htext').1 hagrees'
  rw [walCatalogText_cons, ← List.append_assoc, walNames_append (endsLine_append_line cs name.toList),
    hnew, walNames_walCatalogText hr] at hnodup hlists'
  rw [hold] at hlists
  obtain ⟨hinit, -, hdisjoint⟩ := List.nodup_append.1 hnodup
  obtain ⟨-, -, hfresh⟩ := List.nodup_append.1 hinit
  -- The merged line would have to be the name of an archived file: of an old one or of a new one.
  have hmem : Archived c fs' merged := (hlists' merged).1 (by simp)
  rcases (harchived merged).1 hmem with h | h
  · rcases List.mem_append.1 ((hlists merged).2 h) with h | h
    · exact hfresh merged h merged (by simp) rfl
    · exact hne (List.mem_singleton.1 h)
  · rcases List.mem_cons.1 h with h | h
    · exact hne' h
    · exact hdisjoint merged (by simp) merged h rfl

end BackupFleet.Storage
