import BackupFleet.Config.Fleet
import BackupFleet.Proofs.FileSystem.Plain
import BackupFleet.Storage.Lock

/-!
# `BackupFleet.Proofs.Config.Layout` — servers that store their files apart

Each server stores base backups, archived WAL files and arriving WAL files in a directory of its own. The
configuration refuses two options with the same path, but not one directory inside another, nor two
spellings of one directory. Here the directories are taken to be apart: none is another one or lies in it.

## Contents

* `storagePaths`, `Apart`, `StoresApart` — the directories of a fleet;
* `PlainArchive` — the directories of WAL files of one server;
* `PlainLayout` — directories that are apart, with paths that go down, and a lock file outside of them;
* `PlainLayout.not_mem_trail`, `PlainLayout.not_mem_lockTrail` — what no configured path stands in.
-/

namespace BackupFleet

open FileTree

/-- The directories in which a server stores backups and WAL files. -/
def ServerConfig.storagePaths (c : ServerConfig) : List String :=
  [c.basebackupsDirectory, c.walsDirectory, c.incomingWalsDirectory]

theorem ServerConfig.base_mem (c : ServerConfig) : c.basebackupsDirectory ∈ c.storagePaths := by
  simp [storagePaths]

theorem ServerConfig.wals_mem (c : ServerConfig) : c.walsDirectory ∈ c.storagePaths := by
  simp [storagePaths]

theorem ServerConfig.incoming_mem (c : ServerConfig) : c.incomingWalsDirectory ∈ c.storagePaths := by
  simp [storagePaths]

/-- The directories of all servers. -/
def Fleet.storagePaths (f : Fleet) : List String := f.servers.flatMap ServerConfig.storagePaths

/-- Neither path leads into the directory of the other. -/
def FileSystem.Apart (fs : FileSystem) (p q : String) : Prop :=
  ¬AtOrBelow (fs.place p) (fs.place q) ∧ ¬AtOrBelow (fs.place q) (fs.place p)

instance (fs : FileSystem) (p q : String) : Decidable (fs.Apart p q) :=
  inferInstanceAs (Decidable (_ ∧ _))

/-- The directories of all servers are apart from each other. -/
def Fleet.StoresApart (f : Fleet) (fs : FileSystem) : Prop := f.storagePaths.Pairwise fs.Apart

instance (f : Fleet) (fs : FileSystem) : Decidable (f.StoresApart fs) :=
  inferInstanceAs (Decidable (List.Pairwise _ _))

/-- What holds of any two members of a list in order holds of any two different ones. -/
theorem forall_of_pairwise {α : Type} {R : α → α → Prop} (hsymm : ∀ a b, R a b → R b a) {l : List α}
    (h : l.Pairwise R) : ∀ a ∈ l, ∀ b ∈ l, a ≠ b → R a b := by
  induction l with
  | nil => exact fun _ ha => absurd ha List.not_mem_nil
  | cons x r ih =>
    obtain ⟨hx, hr⟩ := List.pairwise_cons.1 h
    intro a ha b hb hne
    rcases List.mem_cons.1 ha with rfl | har
    · rcases List.mem_cons.1 hb with rfl | hbr
      · exact absurd rfl hne
      · exact hx b hbr
    · rcases List.mem_cons.1 hb with rfl | hbr
      · exact hsymm _ _ (hx a har)
      · exact ih hr a har b hbr hne

namespace Fleet.StoresApart

variable {f : Fleet} {fs : FileSystem}

theorem apart (h : f.StoresApart fs) {p q : String} (hp : p ∈ f.storagePaths)
    (hq : q ∈ f.storagePaths) (hne : p ≠ q) : fs.Apart p q :=
  forall_of_pairwise (fun _ _ h => ⟨h.2, h.1⟩) h p hp q hq hne

/-- Different paths lead to different places. -/
theorem place_ne (h : f.StoresApart fs) {p q : String} (hp : p ∈ f.storagePaths)
    (hq : q ∈ f.storagePaths) (hne : p ≠ q) : fs.place p ≠ fs.place q := by
  intro he
  refine (h.apart hp hq hne).1 ?_
  rw [he]
  exact .refl _

theorem nodup (h : f.StoresApart fs) : f.storagePaths.Nodup := by
  refine List.Pairwise.imp ?_ h
  rintro p _ ha rfl
  exact ha.1 (.refl _)

/-- No path is used by two servers. -/
theorem ne_of_ne (h : f.StoresApart fs) {c d : ServerConfig} (hc : c ∈ f.servers)
    (hd : d ∈ f.servers) (hne : c ≠ d) {p q : String} (hp : p ∈ c.storagePaths)
    (hq : q ∈ d.storagePaths) : p ≠ q := by
  have hpairs := (List.pairwise_flatMap.1 h.nodup).2
  exact forall_of_pairwise (fun _ _ h x hx y hy => (h y hy x hx).symm) hpairs c hc d hd hne p hp q hq

/-- A server does not archive its WAL files where they arrive. -/
theorem wals_ne_incoming (h : f.StoresApart fs) {c : ServerConfig} (hc : c ∈ f.servers) :
    c.walsDirectory ≠ c.incomingWalsDirectory := by
  have hown := (List.pairwise_flatMap.1 h.nodup).1 c hc
  unfold ServerConfig.storagePaths at hown
  simp only [List.pairwise_cons, List.mem_cons, List.not_mem_nil, or_false] at hown
  exact hown.2.1 _ rfl

/-- A server does not archive its WAL files where its backups are. -/
theorem base_ne_wals (h : f.StoresApart fs) {c : ServerConfig} (hc : c ∈ f.servers) :
    c.basebackupsDirectory ≠ c.walsDirectory := by
  have hown := (List.pairwise_flatMap.1 h.nodup).1 c hc
  unfold ServerConfig.storagePaths at hown
  simp only [List.pairwise_cons, List.mem_cons, List.not_mem_nil, or_false] at hown
  exact hown.1 _ (.inl rfl)

/-- A server does not have its WAL files arrive where its backups are. -/
theorem base_ne_incoming (h : f.StoresApart fs) {c : ServerConfig} (hc : c ∈ f.servers) :
    c.basebackupsDirectory ≠ c.incomingWalsDirectory := by
  have hown := (List.pairwise_flatMap.1 h.nodup).1 c hc
  unfold ServerConfig.storagePaths at hown
  simp only [List.pairwise_cons, List.mem_cons, List.not_mem_nil, or_false] at hown
  exact hown.1 _ (.inr rfl)

/-- Two directories are different if they are as directories of one server. -/
theorem ne_of_own_ne (h : f.StoresApart fs) {c d : ServerConfig} (hc : c ∈ f.servers)
    (hd : d ∈ f.servers) {p q : String} (hp : p ∈ c.storagePaths) (hq : q ∈ d.storagePaths)
    (hown : c = d → p ≠ q) : p ≠ q := by
  by_cases hcd : c = d
  · exact hown hcd
  · exact h.ne_of_ne hc hd hcd hp hq

theorem congr (h : f.StoresApart fs) {fs' : FileSystem} (hw : fs'.workDir = fs.workDir) :
    f.StoresApart fs' := by
  refine List.Pairwise.imp ?_ h
  intro p q hpq
  unfold FileSystem.Apart
  rw [FileSystem.place_congr hw, FileSystem.place_congr hw]
  exact hpq

end Fleet.StoresApart

theorem Fleet.mem_storagePaths {f : Fleet} {c : ServerConfig} (hc : c ∈ f.servers) {p : String}
    (hp : p ∈ c.storagePaths) : p ∈ f.storagePaths :=
  List.mem_flatMap.2 ⟨c, hc, hp⟩

section Members

variable {f : Fleet} {c : ServerConfig}

theorem mem_storagePaths_base (hc : c ∈ f.servers) : c.basebackupsDirectory ∈ f.storagePaths :=
  Fleet.mem_storagePaths hc c.base_mem

theorem mem_storagePaths_wals (hc : c ∈ f.servers) : c.walsDirectory ∈ f.storagePaths :=
  Fleet.mem_storagePaths hc c.wals_mem

theorem mem_storagePaths_incoming (hc : c ∈ f.servers) : c.incomingWalsDirectory ∈ f.storagePaths :=
  Fleet.mem_storagePaths hc c.incoming_mem

end Members

/-- The paths to the WAL files of a server do not go up, and what is archived is not among the arrivals. -/
structure PlainArchive (c : ServerConfig) (fs : FileSystem) : Prop where
  wals : FileSystem.GoesDown c.walsDirectory
  incoming : FileSystem.GoesDown c.incomingWalsDirectory
  cross : ∀ n m, n :: fs.place c.walsDirectory ≠ m :: fs.place c.incomingWalsDirectory

theorem PlainArchive.congr {c : ServerConfig} {fs fs' : FileSystem} (h : PlainArchive c fs)
    (hw : fs'.workDir = fs.workDir) : PlainArchive c fs' where
  wals := h.wals
  incoming := h.incoming
  cross := by
    rw [FileSystem.place_congr hw, FileSystem.place_congr hw]
    exact h.cross

theorem PlainArchive.place_ne {c : ServerConfig} {fs : FileSystem} (h : PlainArchive c fs) :
    fs.place c.incomingWalsDirectory ≠ fs.place c.walsDirectory :=
  fun he => h.cross "" "" (congrArg ("" :: ·) he.symm)

/-- The directories are apart, none of their paths goes up, and the lock file is in none of them. -/
structure PlainLayout (f : Fleet) (fs : FileSystem) : Prop where
  apart : f.StoresApart fs
  down : ∀ p ∈ f.storagePaths, FileSystem.GoesDown p
  lockDown : FileSystem.GoesDown (Lock.lockPath f.lockDirectory)
  lockOutside : ∀ p ∈ f.storagePaths,
    ¬AtOrBelow (fs.place p) (fs.place (Lock.lockPath f.lockDirectory))

namespace PlainLayout

variable {f : Fleet} {fs : FileSystem}

/-- **No configured path stands in anything that is in a directory of storage.** -/
theorem not_mem_trail (h : PlainLayout f fs) {p q : String} (hp : p ∈ f.storagePaths)
    (hq : q ∈ f.storagePaths) (name : String) : name :: fs.place q ∉ fs.trail p := by
  intro hk
  have habove := FileSystem.atOrBelow_of_mem_trail (h.down p hp) hk
  by_cases hpq : p = q
  · rw [hpq] at habove
    exact absurd habove.length_le (by simp)
  · exact (h.apart.apart hp hq hpq).2 ((AtOrBelow.cons name _).trans habove)

/-- The path of the lock file stands in nothing that is in a directory of storage. -/
theorem not_mem_lockTrail (h : PlainLayout f fs) {q : String} (hq : q ∈ f.storagePaths)
    (name : String) : name :: fs.place q ∉ fs.trail (Lock.lockPath f.lockDirectory) := by
  intro hk
  have habove := FileSystem.atOrBelow_of_mem_trail h.lockDown hk
  exact h.lockOutside q hq ((AtOrBelow.cons name _).trans habove)

theorem archive (h : PlainLayout f fs) {c : ServerConfig} (hc : c ∈ f.servers) : PlainArchive c fs where
  wals := h.down _ (mem_storagePaths_wals hc)
  incoming := h.down _ (mem_storagePaths_incoming hc)
  cross := fun _ _ he => h.apart.place_ne (mem_storagePaths_wals hc) (mem_storagePaths_incoming hc)
    (h.apart.wals_ne_incoming hc) (List.cons.inj he).2

theorem congr (h : PlainLayout f fs) {fs' : FileSystem} (hw : fs'.workDir = fs.workDir) :
    PlainLayout f fs' where
  apart := h.apart.congr hw
  down := h.down
  lockDown := h.lockDown
  lockOutside := by
    intro p hp
    rw [FileSystem.place_congr hw, FileSystem.place_congr hw]
    exact h.lockOutside p hp

end PlainLayout

end BackupFleet
