import BackupFleet.Proofs.Storage.Host
import BackupFleet.Storage.Backup

/-!
# `BackupFleet.Proofs.Storage.LockNest` — locks tried inside of locks

While a lock is held, its holder may try locks again, the same one included, and go on in one way or the
other when it does not get them. A `Nest` is any such program: a body is a nest of its own, what follows an
attempt may depend on its outcome, and either may end with a fault.

`Nest.Runs` says what should come of it, without a table of held locks: the lock files that are held are
those of the attempts around the present one. An attempt runs its body iff its lock file can be opened and
is none of these, a lock file that is held is not touched by any other attempt, and at the end of a body
its lock file is found with the number of the process and a line feed. That the host does this with its
table, which knows nothing of nesting, is `Nest.run_runs`.

## Contents

* `Stays` — entries that stay where they are;
* `openFile_stays`, `entry_of_openFile` — opening a lock file;
* `Nest`, `Nest.run`, `Nest.Runs` — nests of attempts, and what comes of them;
* `exclusively_of_open`, `exclusively_of_held`, `exclusively_of_error` — one attempt;
* `Steady`, `Nest.run_runs` — a whole nest.
-/

namespace BackupFleet

open FileSystem Effect

/-! ## Entries that stay -/

namespace FileSystem

/-- Whatever was somewhere is still there, as it was. -/
structure Stays (fs fs' : FileSystem) : Prop where
  workDir : fs'.workDir = fs.workDir
  entries : ∀ k e, fs.tree.get? k = some e → fs'.tree.get? k = some e

theorem isReach_stays : IsReach Stays where
  refl := fun _ => ⟨rfl, fun _ _ h => h⟩
  trans := fun h h' => ⟨h'.workDir.trans h.workDir, fun k e hk => h'.entries k e (h.entries k e hk)⟩

/-- Directories come to where nothing was. -/
theorem Grown.stays {S : Location → Prop} {fs fs' : FileSystem} (h : Grown S fs fs') : Stays fs fs' := by
  refine ⟨h.workDir, fun k e hk => ?_⟩
  rcases h.entries k with he | ⟨-, hn, -⟩
  · rw [he, hk]
  · rw [hn] at hk
    cases hk

/-- A file that is opened is there, or comes to where nothing was. -/
theorem openAppend_stays (p : String) (fs : FileSystem) : Stays fs (after (openAppend p) fs) := by
  rcases openAppend_cases p fs with ⟨e, h⟩ | ⟨-, ⟨content, -, h⟩ | ⟨hnone, -, h⟩⟩
  · rw [after_of_error h]
    exact isReach_stays.refl fs
  · rw [after_of_ok h]
    exact isReach_stays.refl fs
  · rw [after_of_ok h]
    refine ⟨rfl, fun k e hk => ?_⟩
    have hne : k ≠ fs.place p := by
      rintro rfl
      rw [hnone] at hk
      cases hk
    rw [tree_withTree, FileTree.get?_put_of_ne _ hne, hk]

/-- A file that was opened is found. -/
theorem entry_of_openAppend {p : String} {handle : AppendHandle} {fs fs' : FileSystem}
    (h : openAppend p fs = .ok handle fs') : ∃ content, fs'.entry p = .ok (.file content) := by
  rcases openAppend_cases p fs with ⟨e, ho⟩ | ⟨hlocate, ⟨content, hfile, ho⟩ | ⟨hnone, hadmits, ho⟩⟩
  · rw [ho] at h
    cases h
  · rw [ho] at h
    obtain rfl := (EStateM.Result.ok.inj h).2
    obtain ⟨hp, hway, -⟩ := locate_eq_ok_iff.1 hlocate
    exact ⟨content, entry_eq_ok_iff.2 ⟨hp, hway, hfile⟩⟩
  · rw [ho] at h
    obtain rfl := (EStateM.Result.ok.inj h).2
    obtain ⟨hp, hway, -⟩ := locate_eq_ok_iff.1 hlocate
    refine ⟨[], entry_eq_ok_iff.2 ⟨hp, fun k hk => ?_, ?_⟩⟩
    · -- The new file is none of the directories that lead to it.
      have hkd := hway k hk
      rw [tree_withTree, FileTree.get?_put_of_ne _ ?_]
      · exact hkd
      · rintro rfl
        rw [hnone] at hkd
        cases hkd
    · show (fs.tree.put (fs.place p) (.file [])).get? (fs.place p) = _
      rw [FileTree.get?_put hadmits, if_pos rfl]

end FileSystem

/-! ## Opening a lock file -/

namespace Lock

theorem openFile_stays (path : String) (fs : FileSystem) : Stays fs (after (openFile path) fs) := by
  have hparents := (makeParents_grown path fs).stays
  unfold openFile
  rcases after_bind_cases (makeParents path) _ fs with ⟨e, fs1, he, hend⟩ | ⟨u, fs1, he, hnext⟩
  · rw [hend, ← after_of_error he]
    exact hparents
  · rw [hnext]
    rw [after_of_ok he] at hparents
    have hopened := openAppend_stays path fs1
    rcases after_bind_cases (openAppend path) (fun handle => pure handle.location) fs1 with
      ⟨e, fs2, ho, hend⟩ | ⟨handle, fs2, ho, hnext⟩
    · rw [hend, ← after_of_error ho]
      exact isReach_stays.trans hparents hopened
    · rw [hnext, ← after_of_ok ho]
      exact isReach_stays.trans hparents hopened

/-- A lock file that was opened is found at the end of its path. -/
theorem entry_of_openFile {path : String} {l : Location} {fs fs' : FileSystem}
    (h : openFile path fs = .ok l fs') :
    l = fs'.place path ∧ ∃ content, fs'.entry path = .ok (.file content) := by
  have hstays := openFile_stays path fs
  rw [after_of_ok h] at hstays
  obtain ⟨-, -, -, hplace⟩ := openFile_steps path fs
  refine ⟨(hplace l fs' h).trans (place_congr hstays.workDir path).symm, ?_⟩
  unfold openFile at h
  rw [bind_apply] at h
  cases hp : makeParents path fs with
  | error e fs1 =>
    rw [hp] at h
    cases h
  | ok u fs1 =>
    rw [hp] at h
    dsimp only at h
    rw [bind_apply] at h
    cases ho : openAppend path fs1 with
    | error e fs2 =>
      rw [ho] at h
      cases h
    | ok handle fs2 =>
      rw [ho] at h
      obtain rfl := (EStateM.Result.ok.inj h).2
      exact entry_of_openAppend ho

/-- The files after the holder of a lock has written into its file: whatever was in it, what is in it now
    is the number of the process and a line feed. -/
def written (fs : FileSystem) (l : Location) (pid : Nat) : FileSystem :=
  fs.withTree (fs.tree.put l (.file (Text.encode (Text.decimal pid ++ ['\n']))))

/-- A lock file that was opened is a file, and what its holder writes into it is found in it. -/
theorem entry_of_written {path : String} {l : Location} {fs fs' : FileSystem}
    (h : openFile path fs = .ok l fs') (pid : Nat) :
    (∃ old, fs'.tree.get? l = some (.file old)) ∧
      (written fs' l pid).tree.get? l = some (.file (Text.encode (Text.decimal pid ++ ['\n']))) ∧
      (written fs' l pid).entry path = .ok (.file (Text.encode (Text.decimal pid ++ ['\n']))) := by
  obtain ⟨rfl, old, hentry⟩ := entry_of_openFile h
  obtain ⟨-, -, hfile⟩ := entry_eq_ok_iff.1 hentry
  have hwritten : (written fs' (fs'.place path) pid).entry path
      = .ok (.file (Text.encode (Text.decimal pid ++ ['\n']))) :=
    entry_of_writeFile (writeFile_of_file hentry _)
  exact ⟨⟨old, hfile⟩, (entry_eq_ok_iff.1 hwritten).2.2, hwritten⟩

end Lock

/-! ## Nests of attempts -/

/-- A program that tries locks: it ends, with a fault or without one, or it tries the lock of a directory
    with a body, and goes on after it as the outcome says. -/
inductive Nest where
  | done
  | fail (f : Fault)
  | attempt (directory : String) (body : Nest) (next : Except Fault (LockOutcome Unit) → Nest)

/-- A nest, run on a host. -/
def Nest.run : Nest → Operation Host Unit
  | done => pure ()
  | fail f => throw f
  | attempt directory body next => do
    let outcome ← Storage.settle (Lock.exclusively directory body.run)
    (next outcome).run

/-- What should come of a nest, of process `pid`, while the lock files `held` are held: the files before
    and after, and how it ends. -/
inductive Nest.Runs (pid : Nat) :
    Nest → (held : List Location) → FileSystem → FileSystem → Except Fault Unit → Prop
  | done {held : List Location} {fs : FileSystem} : Runs pid .done held fs fs (.ok ())
  | fail {f : Fault} {held : List Location} {fs : FileSystem} : Runs pid (.fail f) held fs fs (.error f)
  /-- The lock file is opened and not held: the body runs, with one more file held, and at its end nothing
      but the number of the process and a line feed is in that file. -/
  | ran {directory : String} {body : Nest} {next : Except Fault (LockOutcome Unit) → Nest}
      {held : List Location} {l : Location} {fs fs1 fs2 fs3 : FileSystem} {r r' : Except Fault Unit}
      (hopen : Lock.openFile (Lock.lockPath directory) fs = .ok l fs1) (hfree : l ∉ held)
      (hkept : ∀ k ∈ held, fs1.tree.get? k = fs.tree.get? k)
      (hbody : body.Runs pid (l :: held) (Lock.written fs1 l pid) fs2 r)
      (hcontent : fs2.entry (Lock.lockPath directory)
        = .ok (.file (Text.encode (Text.decimal pid ++ ['\n']))))
      (hnext : (next (r.map .completed)).Runs pid held fs2 fs3 r') :
      Runs pid (.attempt directory body next) held fs fs3 r'
  /-- The lock file is one that is held: the body does not run. -/
  | busy {directory : String} {body : Nest} {next : Except Fault (LockOutcome Unit) → Nest}
      {held : List Location} {l : Location} {fs fs1 fs2 : FileSystem} {r : Except Fault Unit}
      (hopen : Lock.openFile (Lock.lockPath directory) fs = .ok l fs1) (hheld : l ∈ held)
      (hkept : ∀ k ∈ held, fs1.tree.get? k = fs.tree.get? k)
      (hnext : (next (.ok .alreadyRunning)).Runs pid held fs1 fs2 r) :
      Runs pid (.attempt directory body next) held fs fs2 r
  /-- The lock file may not be created: the body does not run. -/
  | denied {directory : String} {body : Nest} {next : Except Fault (LockOutcome Unit) → Nest}
      {held : List Location} {fs fs1 fs2 : FileSystem} {r : Except Fault Unit}
      (hopen : Lock.openFile (Lock.lockPath directory) fs = .error .permissionDenied fs1)
      (hkept : ∀ k ∈ held, fs1.tree.get? k = fs.tree.get? k)
      (hnext : (next (.ok (.permissionDenied (Lock.lockPath directory)))).Runs pid held fs1 fs2 r) :
      Runs pid (.attempt directory body next) held fs fs2 r
  /-- The lock file cannot be opened for another reason: the body does not run. -/
  | faulted {directory : String} {body : Nest} {next : Except Fault (LockOutcome Unit) → Nest}
      {held : List Location} {e : FileError} {fs fs1 fs2 : FileSystem} {r : Except Fault Unit}
      (hopen : Lock.openFile (Lock.lockPath directory) fs = .error e fs1) (he : e ≠ .permissionDenied)
      (hkept : ∀ k ∈ held, fs1.tree.get? k = fs.tree.get? k)
      (hnext : (next (.error (.file .openLock (Lock.lockPath directory) e))).Runs pid held fs1 fs2 r) :
      Runs pid (.attempt directory body next) held fs fs2 r

/-! ## One attempt -/

/-- How an operation ends that leaves this host. -/
def ended {α : Type} (r : Except Fault α) (h : Host) : EStateM.Result Fault Host α :=
  match r with
  | .ok a => .ok a h
  | .error f => .error f h

theorem settle_of_ended {α : Type} {op : Operation Host α} {r : Except Fault α} {h h' : Host}
    (hop : op h = ended r h') : Storage.settle op h = .ok r h' := by
  rw [Storage.settle, hop]
  cases r <;> rfl

namespace Lock

variable {α : Type} {directory : String} {body : Operation Host α} {h : Host} {l : Location}
  {fs : FileSystem}

/-- The host on which the body of an attempt runs. -/
def inside (h : Host) (l : Location) (fs : FileSystem) : Host :=
  { h with files := written fs l h.processId, heldLocks := l :: h.heldLocks }

theorem acquire_of_open (ho : openFile (lockPath directory) h.files = .ok l fs) (hl : l ∉ h.heldLocks) :
    acquire directory h = .ok (.held l) (inside h l fs) := by
  unfold acquire
  dsimp only
  rw [ho]
  exact if_neg hl

theorem acquire_of_held (ho : openFile (lockPath directory) h.files = .ok l fs) (hl : l ∈ h.heldLocks) :
    acquire directory h = .ok .busy { h with files := fs } := by
  unfold acquire
  dsimp only
  rw [ho]
  exact if_pos hl

theorem acquire_of_denied (ho : openFile (lockPath directory) h.files = .error .permissionDenied fs) :
    acquire directory h = .ok (.denied (lockPath directory)) { h with files := fs } := by
  unfold acquire
  dsimp only
  rw [ho]

theorem acquire_of_error {e : FileError} (ho : openFile (lockPath directory) h.files = .error e fs)
    (he : e ≠ .permissionDenied) :
    acquire directory h = .error (.file .openLock (lockPath directory) e) { h with files := fs } := by
  unfold acquire
  dsimp only
  rw [ho]
  cases e <;> first | rfl | exact absurd rfl he

/-- A lock is held beside those that were held before, or nothing but files has changed. It is busy only if
    some lock is held. -/
theorem acquire_cases (directory : String) (h : Host) :
    (∃ l fs, acquire directory h = .ok (.held l) (inside h l fs)) ∨
    (∃ fs, acquire directory h = .ok .busy { h with files := fs } ∧ h.heldLocks ≠ []) ∨
    (∃ path fs, acquire directory h = .ok (.denied path) { h with files := fs }) ∨
    (∃ e fs, acquire directory h = .error e { h with files := fs }) := by
  cases ho : openFile (lockPath directory) h.files with
  | ok l fs =>
    by_cases hl : l ∈ h.heldLocks
    · exact .inr (.inl ⟨fs, acquire_of_held ho hl, List.ne_nil_of_mem hl⟩)
    · exact .inl ⟨l, fs, acquire_of_open ho hl⟩
  | error e fs =>
    by_cases he : e = .permissionDenied
    · subst he
      exact .inr (.inr (.inl ⟨_, fs, acquire_of_denied ho⟩))
    · exact .inr (.inr (.inr ⟨_, fs, acquire_of_error ho he⟩))

theorem holding_apply (l : Location) (body : Operation Host α) (h : Host) :
    holding l body h = match body h with
      | .ok a h => .ok a (release l h)
      | .error f h => .error f (release l h) := rfl

/-- The lock that is let go is the one that was put in front of the others. -/
theorem release_inside (h : Host) (l : Location) (fs fs' : FileSystem) :
    release l { inside h l fs with files := fs' } = { h with files := fs' } := by
  simp [release, inside]

/-- A lock file that is opened and not held is held for the body. After it, however it ended, the same
    locks are held as before. -/
theorem exclusively_of_open (ho : openFile (lockPath directory) h.files = .ok l fs)
    (hl : l ∉ h.heldLocks) {r : Except Fault α} {fs' : FileSystem}
    (hbody : body (inside h l fs) = ended r { inside h l fs with files := fs' }) :
    exclusively directory body h = ended (r.map .completed) { h with files := fs' } := by
  unfold exclusively
  rw [bind_apply, acquire_of_open ho hl]
  dsimp only
  rw [bind_apply, holding_apply, hbody]
  cases r with
  | ok a => exact congrArg _ (release_inside h l fs fs')
  | error f => exact congrArg _ (release_inside h l fs fs')

theorem exclusively_of_held (ho : openFile (lockPath directory) h.files = .ok l fs)
    (hl : l ∈ h.heldLocks) :
    exclusively directory body h = .ok .alreadyRunning { h with files := fs } := by
  unfold exclusively
  rw [bind_apply, acquire_of_held ho hl]
  rfl

theorem exclusively_of_denied (ho : openFile (lockPath directory) h.files = .error .permissionDenied fs) :
    exclusively directory body h
      = .ok (.permissionDenied (lockPath directory)) { h with files := fs } := by
  unfold exclusively
  rw [bind_apply, acquire_of_denied ho]
  rfl

theorem exclusively_of_error {e : FileError} (ho : openFile (lockPath directory) h.files = .error e fs)
    (he : e ≠ .permissionDenied) :
    exclusively directory body h
      = .error (.file .openLock (lockPath directory) e) { h with files := fs } := by
  unfold exclusively
  rw [bind_apply, acquire_of_error ho he]

end Lock

/-! ## A whole nest -/

/-- Directories stay directories, and the files `held` keep their content. -/
structure Steady (held : List Location) (fs fs' : FileSystem) : Prop where
  workDir : fs'.workDir = fs.workDir
  directories : ∀ k, fs.tree.get? k = some .directory → fs'.tree.get? k = some .directory
  held : ∀ k ∈ held, fs'.tree.get? k = fs.tree.get? k

theorem isReach_steady (held : List Location) : IsReach (Steady held) where
  refl := fun _ => ⟨rfl, fun _ h => h, fun _ _ => rfl⟩
  trans := fun h h' => ⟨h'.workDir.trans h.workDir, fun k hk => h'.directories k (h.directories k hk),
    fun k hk => (h'.held k hk).trans (h.held k hk)⟩

/-- With a file that is held at the end of its path, so is its content. -/
theorem Steady.entry {held : List Location} {fs fs' : FileSystem} (h : Steady held fs fs') {p : String}
    (hp : fs.place p ∈ held) {e : Entry} (he : fs.entry p = .ok e) : fs'.entry p = .ok e := by
  obtain ⟨hgood, hway, hend⟩ := entry_eq_ok_iff.1 he
  refine entry_eq_ok_iff.2 ⟨hgood, fun k hk => ?_, ?_⟩
  · rw [way_congr h.workDir] at hk
    exact h.directories k (hway k hk)
  · rw [place_congr h.workDir, h.held _ hp, hend]

theorem Steady.mono {held held' : List Location} {fs fs' : FileSystem} (h : Steady held' fs fs')
    (hsub : ∀ k ∈ held, k ∈ held') : Steady held fs fs' :=
  ⟨h.workDir, h.directories, fun k hk => h.held k (hsub k hk)⟩

/-- At all these locations there are files. -/
def AllFiles (held : List Location) (fs : FileSystem) : Prop :=
  ∀ k ∈ held, ∃ content, fs.tree.get? k = some (.file content)

theorem Steady.allFiles {held : List Location} {fs fs' : FileSystem} (h : Steady held fs fs')
    (hall : AllFiles held fs) : AllFiles held fs' := by
  intro k hk
  rw [h.held k hk]
  exact hall k hk

/-- Where every entry stays, so do the files that are held. -/
theorem steady_of_stays {held : List Location} {fs fs' : FileSystem} (h : Stays fs fs')
    (hall : AllFiles held fs) : Steady held fs fs' := by
  refine ⟨h.workDir, fun k hk => h.entries k _ hk, fun k hk => ?_⟩
  obtain ⟨content, hfile⟩ := hall k hk
  rw [hfile, h.entries k _ hfile]

/-- What is written into one file leaves the other files and all directories alone. -/
theorem steady_written {held : List Location} {fs : FileSystem} {l : Location} {old : Bytes}
    (hl : l ∉ held) (hfile : fs.tree.get? l = some (.file old)) (pid : Nat) :
    Steady held fs (Lock.written fs l pid) := by
  refine ⟨rfl, fun k hk => ?_, fun k hk => ?_⟩
  · have hne : k ≠ l := by
      rintro rfl
      rw [hfile] at hk
      cases hk
    rw [Lock.written, tree_withTree, FileTree.get?_put_of_ne _ hne, hk]
  · have hne : k ≠ l := by
      rintro rfl
      exact hl hk
    rw [Lock.written, tree_withTree, FileTree.get?_put_of_ne _ hne]

/-- **A nest does on the host what should come of it.** The table of held locks, which a body finds longer
    by one, is the same after it; the induction is on the nest. -/
theorem Nest.run_runs (n : Nest) (h : Host) (hall : AllFiles h.heldLocks h.files) :
    ∃ fs r, n.Runs h.processId h.heldLocks h.files fs r ∧
      n.run h = ended r { h with files := fs } ∧ Steady h.heldLocks h.files fs := by
  induction n generalizing h with
  | done => exact ⟨h.files, .ok (), .done, rfl, (isReach_steady _).refl _⟩
  | fail f => exact ⟨h.files, .error f, .fail, rfl, (isReach_steady _).refl _⟩
  | attempt directory body next ihbody ihnext =>
    have hstays := Lock.openFile_stays (Lock.lockPath directory) h.files
    rw [Nest.run]
    cases ho : Lock.openFile (Lock.lockPath directory) h.files with
    | error e fs1 =>
      rw [after_of_error ho] at hstays
      have hopened := steady_of_stays hstays hall
      have hthere : AllFiles h.heldLocks fs1 := hopened.allFiles hall
      by_cases he : e = .permissionDenied
      · subst he
        obtain ⟨fs, r, hruns, hrun, hsteady⟩ := ihnext (.ok (.permissionDenied _)) { h with files := fs1 } hthere
        refine ⟨fs, r, .denied ho hopened.held hruns, ?_, (isReach_steady _).trans hopened hsteady⟩
        rw [bind_apply, Storage.settle, Lock.exclusively_of_denied ho]
        exact hrun
      · obtain ⟨fs, r, hruns, hrun, hsteady⟩ := ihnext (.error _) { h with files := fs1 } hthere
        refine ⟨fs, r, .faulted ho he hopened.held hruns, ?_, (isReach_steady _).trans hopened hsteady⟩
        rw [bind_apply, Storage.settle, Lock.exclusively_of_error ho he]
        exact hrun
    | ok l fs1 =>
      rw [after_of_ok ho] at hstays
      have hopened := steady_of_stays hstays hall
      by_cases hl : l ∈ h.heldLocks
      · obtain ⟨fs, r, hruns, hrun, hsteady⟩ := ihnext (.ok .alreadyRunning) { h with files := fs1 }
          (hopened.allFiles hall)
        refine ⟨fs, r, .busy ho hl hopened.held hruns, ?_, (isReach_steady _).trans hopened hsteady⟩
        rw [bind_apply, Storage.settle, Lock.exclusively_of_held ho hl]
        exact hrun
      · obtain ⟨⟨old, hfile⟩, hnew, hwritten⟩ := Lock.entry_of_written ho h.processId
        have hstart := (isReach_steady _).trans hopened (steady_written hl hfile h.processId)
        have hinside : AllFiles (l :: h.heldLocks) (Lock.written fs1 l h.processId) :=
          List.forall_mem_cons.2 ⟨⟨_, hnew⟩, hstart.allFiles hall⟩
        obtain ⟨fs2, r, hbody, hrunBody, hsteadyBody⟩ := ihbody (Lock.inside h l fs1) hinside
        have hthrough : Steady h.heldLocks h.files fs2 :=
          (isReach_steady _).trans hstart (hsteadyBody.mono fun k hk => List.mem_cons_of_mem l hk)
        -- Inside of the body this lock file is one of those that are held, so no attempt there touches it.
        have hcontent : fs2.entry (Lock.lockPath directory)
            = .ok (.file (Text.encode (Text.decimal h.processId ++ ['\n']))) :=
          hsteadyBody.entry ((Lock.entry_of_openFile ho).1 ▸ List.mem_cons_self) hwritten
        obtain ⟨fs, r', hruns, hrun, hsteady⟩ := ihnext (r.map .completed) { h with files := fs2 }
          (hthrough.allFiles hall)
        refine ⟨fs, r', .ran ho hl hopened.held hbody hcontent hruns, ?_,
          (isReach_steady _).trans hthrough hsteady⟩
        rw [bind_apply, settle_of_ended (Lock.exclusively_of_open ho hl hrunBody)]
        exact hrun

end BackupFleet
