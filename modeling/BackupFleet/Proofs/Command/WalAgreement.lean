import BackupFleet.Proofs.Command.Occasion
import BackupFleet.Proofs.Storage.Rebuilding

/-!
# `BackupFleet.Proofs.Command.WalAgreement` — catalogs and archives over whole runs

WAL files arrive, and two commands keep the catalogs of the archives. Starting from a catalog that agrees
with its archive, every run is followed event by event. A catalog stops agreeing in two ways: a file that
arrives under the name of an archived one takes its place, and its name is listed a second time; and a name
that is appended to a line without an end is lost in that line. Nothing else ever goes wrong, and a rebuild
puts both right.

## Contents

* `deliver`, `WalEvent`, `EachStep` — runs;
* `filesAfter_cron_sweeps`, `filesAfter_rebuild_rebuilds`, `agrees_of_rebuilt` — the commands;
* `Follows`, `follows_apply` — one event;
* `catalog_agrees_iff_never_mislisted` — the main statement.
-/

namespace BackupFleet

open FileTree FileSystem Effect Storage

/-! ## Runs -/

/-- A file arrives for a server. The directory of arrivals is made if it is missing. -/
def deliver (c : ServerConfig) (name : String) (content : Bytes) : FileOp Unit := do
  makeDirectories c.incomingWalsDirectory
  writeFile (Path.join c.incomingWalsDirectory name) content

/-- What happens to the WAL files of a fleet. -/
inductive WalEvent (f : Fleet) where
  | arrival (c : ServerConfig) (name : String) (content : Bytes) (mem : c ∈ f.servers)
      (isName : Path.IsName name) (deliverable : Deliverable name)
  | cron (o : Occasion)
  | rebuild (o : Occasion) (names : List String)

namespace WalEvent

variable {f : Fleet}

/-- The files after an event, however it ends. -/
def apply : WalEvent f → FileSystem → FileSystem
  | arrival c name content _ _ _, fs => after (deliver c name content) fs
  | cron o, fs => o.filesAfter f .cron fs
  | rebuild o names, fs => o.filesAfter f (.rebuildXlogdb names) fs

/-- The event is a command. -/
def IsCommand : WalEvent f → Prop
  | arrival .. => False
  | _ => True

/-- The event is a rebuild that the server was a target of, and that ended without a complaint. -/
def Rebuilt (c : ServerConfig) (fs : FileSystem) : WalEvent f → Prop
  | rebuild o names =>
    (∃ targets name, (expand f (.ofNames names) {}).2 = some targets ∧
      (name, some c) ∈ targets.entries) ∧
    (o.execute f (.rebuildXlogdb names) fs).fault = none ∧
    failed (o.execute f (.rebuildXlogdb names) fs).messages = false
  | _ => False

end WalEvent

/-- `P` holds of each event of a run, with the files before and after it. -/
def EachStep {f : Fleet} (P : FileSystem → WalEvent f → FileSystem → Prop) (fs : FileSystem) :
    List (WalEvent f) → Prop
  | [] => True
  | e :: r => P fs e (e.apply fs) ∧ EachStep P (e.apply fs) r

namespace EachStep

variable {f : Fleet} {P Q : FileSystem → WalEvent f → FileSystem → Prop} {I : FileSystem → Prop}

/-- What an invariant gives for one event, it gives for each event of a run. -/
theorem of_invariant (h : ∀ fs e, I fs → P fs e (e.apply fs) ∧ I (e.apply fs))
    (events : List (WalEvent f)) {fs : FileSystem} (hfs : I fs) : EachStep P fs events := by
  induction events generalizing fs with
  | nil => trivial
  | cons e r ih => exact ⟨(h fs e hfs).1, ih (h fs e hfs).2⟩

/-- Where an invariant makes two properties the same and is kept as long as they hold, they are the same
    for runs. -/
theorem iff_of_invariant
    (h : ∀ fs e, I fs → (P fs e (e.apply fs) ↔ Q fs e (e.apply fs)) ∧ (P fs e (e.apply fs) → I (e.apply fs)))
    (events : List (WalEvent f)) {fs : FileSystem} (hfs : I fs) :
    EachStep P fs events ↔ EachStep Q fs events := by
  induction events generalizing fs with
  | nil => exact Iff.rfl
  | cons e r ih =>
    obtain ⟨hiff, hkeep⟩ := h fs e hfs
    constructor
    · rintro ⟨hp, hr⟩
      exact ⟨hiff.1 hp, (ih (hkeep hp)).1 hr⟩
    · rintro ⟨hq, hr⟩
      exact ⟨hiff.2 hq, (ih (hkeep (hiff.2 hq))).2 hr⟩

end EachStep

/-! ## Arrivals -/

section Arrivals

variable {f : Fleet} {fs : FileSystem} {c : ServerConfig} {name : String}

/-- An arrival changes nothing but where it arrives, and on the path there. -/
theorem deliver_changesOnly (hname : Path.IsName name) (content : Bytes) (fs : FileSystem) :
    ChangesOnly (fun k => k ∈ fs.trail c.incomingWalsDirectory ∨
      k = name :: fs.place c.incomingWalsDirectory) fs (after (deliver c name content) fs) := by
  have hmake := (makeDirectories_grown c.incomingWalsDirectory fs).changesOnly
  unfold after at hmake ⊢
  unfold deliver
  rw [bind_apply]
  cases hm : makeDirectories c.incomingWalsDirectory fs with
  | error e fs1 =>
    rw [hm] at hmake
    exact hmake.mono fun _ => .inl
  | ok u fs1 =>
    rw [hm] at hmake
    refine (isReach_changesOnly _).trans (hmake.mono fun _ => .inl)
      ((writeFile_changesOnly (Path.join c.incomingWalsDirectory name) content fs1).mono ?_)
    rintro k rfl
    rw [place_join hname, place_congr hmake.workDir]
    exact .inr rfl

/-- **An arrival leaves every catalog in order.** -/
theorem deliver_catalogued (hl : PlainLayout f fs) (hc : c ∈ f.servers) (hname : Path.IsName name)
    (hdeliver : Deliverable name) (content : Bytes) {d : ServerConfig} (hd : d ∈ f.servers)
    {cs : List Char} (hcat : Catalogued d fs cs) :
    Catalogued d (after (deliver c name content) fs) cs ∧
      ∀ n, Archived d (after (deliver c name content) fs) n ↔ Archived d fs n := by
  have hchange := deliver_changesOnly (c := c) hname content fs
  have hin : c.incomingWalsDirectory ∈ f.storagePaths := mem_storagePaths_incoming hc
  have hp := hl.archive hd
  have hwals : ∀ n, (after (deliver c name content) fs).tree.get? (n :: fs.place d.walsDirectory)
      = fs.tree.get? (n :: fs.place d.walsDirectory) := by
    refine fun n => hchange.entries _ ?_
    rintro (hk | hk)
    · exact hl.not_mem_trail hin (mem_storagePaths_wals hd) n hk
    · refine hl.apart.place_ne (mem_storagePaths_wals hd) hin ?_ (List.cons.inj hk).2
      refine hl.apart.ne_of_own_ne hd hc d.wals_mem c.incoming_mem ?_
      rintro rfl
      exact hl.apart.wals_ne_incoming hd
  refine ⟨hcat.of_wals hp hchange.workDir hwals fun n hn => ?_,
    fun n => archived_congr hp hchange.workDir fun _ => hwals n⟩
  -- What waits is what waited, or what has arrived.
  by_cases hnew : n = name
  · rwa [hnew]
  · refine hcat.clean n ((pending_congr hp hchange.workDir (hchange.entries _ ?_)).1 hn)
    rintro (hk | hk)
    · exact hl.not_mem_trail hin (mem_storagePaths_incoming hd) n hk
    · exact hnew (List.cons.inj hk).1

end Arrivals

/-! ## Commands -/

section Commands

variable {f : Fleet} {o : Occasion}

/-- Taking the maintenance lock leaves every archive alone. -/
theorem acquire_sweeps : Host.FilesWithin (Sweeps f) (Lock.acquire f.lockDirectory) := by
  intro h
  have hchange := Lock.acquire_changesOnly f.lockDirectory h
  refine sweeps_of_same hchange.workDir fun hl c hc => ?_
  exact sameArchive_of_changesOnly hchange (hl.not_mem_lockTrail (mem_storagePaths_wals hc))
    (hl.not_mem_lockTrail (mem_storagePaths_incoming hc))

theorem filesAfter_cron_sweeps (fs : FileSystem) : Sweeps f fs (o.filesAfter f .cron fs) := by
  have hcommand : Run.WorldWithin (fun a b : Host => Sweeps f a.files b.files)
      (Run.cron f (services o.hooks)) :=
    Run.cron_within (Host.isReach_files (isReach_sweeps f)) (fun _ hc => cron_sweeps hc) acquire_sweeps
      fun _ h => (isReach_sweeps f).refl h.files
  exact Occasion.filesAfter_within hcommand fs

theorem filesAfter_rebuild_rebuilds (names : List String) (fs : FileSystem) :
    Rebuilds f fs (o.filesAfter f (.rebuildXlogdb names) fs) := by
  have hcommand : Run.WorldWithin (fun a b : Host => Rebuilds f a.files b.files)
      (Run.rebuildXlogdb f (services o.hooks) names) :=
    Run.rebuildXlogdb_within (Host.isReach_files (isReach_rebuilds f))
      fun _ hc => rebuildWalCatalog_rebuilds hc
  exact Occasion.filesAfter_within hcommand fs

/-- **A command that goes on to its end has done its work for each target**, and what it did later has
    left that as it was. -/
theorem Run.forEachAdmitted_done {σ : Type} {I P : σ → Prop} {policy : Policy}
    {act : ServerConfig → Run σ Unit} {c : ServerConfig} {name : String}
    {entries : List (String × Option ServerConfig)}
    (hkeep : ∀ n d, (n, some d) ∈ entries →
      Run.WorldWithin (fun w w' => (I w → I w') ∧ (P w → P w')) (act d))
    (hdone : ∀ session session', I session.world → act c session = .ok () session' → P session'.world)
    (hc : (name, some c) ∈ entries) {session session' : Session σ} (hI : I session.world)
    (h : Run.forEachAdmitted policy act entries session = .ok () session')
    (hquiet : failed session'.messages = false) : P session'.world := by
  have hR : IsReach fun w w' : σ => (I w → I w') ∧ (P w → P w') :=
    ⟨fun _ => ⟨id, id⟩, fun h h' => ⟨h'.1 ∘ h.1, h'.2 ∘ h.2⟩⟩
  induction entries generalizing session with
  | nil => cases hc
  | cons e r ih =>
    have hrest := fun n d hd => hkeep n d (List.mem_cons_of_mem _ hd)
    obtain ⟨n, found⟩ := e
    cases found with
    | none =>
      have hc : (name, some c) ∈ r := (List.mem_cons.1 hc).resolve_left (by simp)
      rw [Run.forEachAdmitted, bind_apply, Run.report_apply] at h
      have hI : I ({ session with
        messages := session.messages ++ [Message.error (UserError.unknownServer n).message] }).world := hI
      exact ih hrest hc hI h
    | some d =>
      rw [Run.forEachAdmitted] at h
      simp only [bind_apply, Run.say_apply] at h
      by_cases hadmits : (classify d policy).admits = true
      · rw [if_pos hadmits, bind_apply] at h
        have hact := hkeep n d List.mem_cons_self
          { session with messages := session.messages ++ (classify d policy).messages }
        unfold after at hact
        cases ha : act d { session with
            messages := session.messages ++ (classify d policy).messages } with
        | error err s1 => rw [ha] at h; cases h
        | ok u s1 =>
          rw [ha] at h hact
          dsimp only at h hact
          rcases List.mem_cons.1 hc with he | hc
          · obtain rfl : c = d := Option.some.inj (Prod.mk.inj he).2
            have hP := hdone { session with
              messages := session.messages ++ (classify c policy).messages } s1 hI ha
            have hlater := @Run.WorldWithin.forEachAdmitted σ _ hR policy act r hrest s1
            rw [after_of_ok h] at hlater
            exact hlater.2 hP
          · exact ih hrest hc (hact.1 hI) h
      · rw [if_neg hadmits] at h
        cases h
        simp [failed_of_not_admits (by simpa using hadmits)] at hquiet

/-- The part of a rebuild for one server. -/
def Run.rebuildOne {σ : Type} (s : Services σ) (c : ServerConfig) : Run σ Unit := do
  info ("Rebuilding xlogdb for server " ++ c.name)
  let count ← perform (s.rebuildWalCatalog c)
  info ("Done rebuilding xlogdb for server " ++ c.name ++ " (WAL files: " ++ toString count ++ ")")

theorem Run.rebuildXlogdb_eq {σ : Type} (s : Services σ) (names : List String) :
    rebuildXlogdb f s names = onTargets f names {} .blocking (rebuildOne s) := rfl

theorem Run.rebuildOne_apply {σ : Type} (s : Services σ) (c : ServerConfig) {session session' : Session σ}
    (h : rebuildOne s c session = .ok () session') :
    ∃ count, s.rebuildWalCatalog c session.world = .ok count session'.world := by
  unfold rebuildOne at h
  simp only [bind_apply, info_apply, perform_apply] at h
  cases hr : s.rebuildWalCatalog c session.world with
  | error e w => rw [hr] at h; cases h
  | ok count w =>
    rw [hr] at h
    cases h
    exact ⟨count, rfl⟩

/-- **After a rebuild that ends without a complaint, the catalog of each target agrees with its archive**,
    whatever the names in it were listed for before. -/
theorem agrees_of_rebuilt {fs : FileSystem} {c : ServerConfig} (hl : PlainLayout f fs)
    (hc : c ∈ f.servers) {old : List Char} (hcat : Catalogued c fs old) {names : List String}
    (h : WalEvent.Rebuilt c fs (.rebuild o names : WalEvent f)) :
    Agrees c (o.filesAfter f (.rebuildXlogdb names) fs) := by
  obtain ⟨⟨targets, name, ht, hmem⟩, hfault, hquiet⟩ := h
  have hrun : o.execute f (.rebuildXlogdb names) fs
      = .ofResult (Run.forEachAdmitted .blocking (Run.rebuildOne (services o.hooks)) targets.entries
          ⟨(expand f (.ofNames names) {}).1, o.host fs⟩) := by
    show Execution.ofResult (Run.rebuildXlogdb f (services o.hooks) names ⟨[], o.host fs⟩) = _
    rw [Run.rebuildXlogdb_eq]
    unfold Run.onTargets Run.withTargets
    rw [← Prod.eta (expand f (.ofNames names) {}), ht]
    rfl
  unfold Occasion.filesAfter
  rw [hrun] at hfault hquiet ⊢
  cases hr : Run.forEachAdmitted .blocking (Run.rebuildOne (services o.hooks)) targets.entries
      ⟨(expand f (.ofNames names) {}).1, o.host fs⟩ with
  | error e session => rw [hr] at hfault; cases hfault
  | ok u session =>
    rw [hr] at hquiet
    have hR := Host.isReach_files (isReach_rebuilds f)
    have hdone : PlainLayout f session.world.files ∧
        ∃ cs, Catalogued c session.world.files cs ∧ Lists c session.world.files cs := by
      refine Run.forEachAdmitted_done (c := c)
        (I := fun w : Host => PlainLayout f w.files ∧ ∃ cs, Catalogued c w.files cs)
        (P := fun w : Host => PlainLayout f w.files ∧ ∃ cs, Catalogued c w.files cs ∧ Lists c w.files cs)
        (fun n d hd s => ?_) (fun s s' hI hs => ?_) hmem ⟨hl, old, hcat⟩ hr hquiet
      · have hd := mem_servers_of_expand ht hd
        have hstep : Run.WorldWithin (fun a b : Host => Rebuilds f a.files b.files)
            (Run.rebuildOne (services o.hooks) d) :=
          .bind hR (.info hR _) fun _ =>
            .bind hR (.perform (rebuildWalCatalog_rebuilds hd)) fun _ => .info hR _
        have hs := hstep s
        constructor
        · rintro ⟨hlay, cs, hcs⟩
          obtain ⟨cs', hrew⟩ := hs.rewrites hlay c hc cs hcs
          exact ⟨hlay.congr hs.workDir, cs', hrew.catalogued⟩
        · rintro ⟨hlay, cs, hcs, hlists⟩
          obtain ⟨cs', hrew⟩ := hs.rewrites hlay c hc cs hcs
          exact ⟨hlay.congr hs.workDir, cs', hrew.catalogued, hrew.lists hlists⟩
      · obtain ⟨hlay, cs, hcs⟩ := hI
        obtain ⟨count, hcount⟩ := Run.rebuildOne_apply _ c hs
        replace hcount : rebuildWalCatalog c s.world = .ok count s'.world := hcount
        have hkept := rebuildWalCatalog_rebuilds hc s.world
        rw [after_of_ok hcount] at hkept
        exact ⟨hlay.congr hkept.workDir, lists_of_rebuild hc hcount hlay hcs⟩
    obtain ⟨-, cs, hcs, hlists⟩ := hdone
    exact hlists.agrees hcs

end Commands

/-! ## Runs from a catalog that agrees -/

section Runs

variable {f : Fleet} {fs : FileSystem} {c : ServerConfig}

/-- The directories are laid out plainly, and the catalog is in order. -/
def InOrder (f : Fleet) (c : ServerConfig) (fs : FileSystem) : Prop :=
  PlainLayout f fs ∧ ∃ cs, Catalogued c fs cs

/-- What an event does to a catalog: one that agrees with its archive still does unless a command has
    archived a file that it could not list, and one that covers its archive without an unfinished line
    goes on doing so. -/
structure Follows (c : ServerConfig) (fs : FileSystem) {f : Fleet} (e : WalEvent f)
    (fs' : FileSystem) : Prop where
  inOrder : InOrder f c fs'
  agrees : Agrees c fs → (Agrees c fs' ↔ (e.IsCommand → ∀ n, ¬Mislisted c fs fs' n))
  covers : Ended c fs → Covers c fs → Ended c fs' ∧ Covers c fs'

/-- **One event.** -/
theorem follows_apply (h : InOrder f c fs) (hc : c ∈ f.servers) (e : WalEvent f) :
    Follows c fs e (e.apply fs) := by
  obtain ⟨hl, cs, hcat⟩ := h
  cases e with
  | arrival d name content hd hname hdeliver =>
    have hw := (deliver_changesOnly (c := d) hname content fs).workDir
    obtain ⟨hcat', harchived⟩ := deliver_catalogued hl hd hname hdeliver content hc hcat
    refine ⟨⟨hl.congr hw, cs, hcat'⟩, fun ha => iff_of_true ?_ fun h => absurd h id, fun he hcov => ⟨?_, ?_⟩⟩
    · rw [agrees_iff hcat.text] at ha
      exact (agrees_iff hcat'.text).2 ⟨ha.1, fun n => (ha.2 n).trans (harchived n).symm⟩
    · exact (ended_iff hcat'.text).2 (he cs hcat.text)
    · rw [covers_iff hcat.text] at hcov
      exact (covers_iff hcat'.text).2 fun n => (hcov n).trans (harchived n).symm
  | cron o =>
    have hsweeps := filesAfter_cron_sweeps (f := f) (o := o) fs
    obtain ⟨ms, harch⟩ := hsweeps.archives hl c hc cs hcat
    refine ⟨⟨hl.congr hsweeps.workDir, _, harch.catalogued⟩, fun ha => ?_, fun he hcov => ⟨?_, ?_⟩⟩
    · exact (harch.agrees_iff hcat ha).trans ⟨fun h _ => h, fun h => h trivial⟩
    · exact (ended_iff harch.catalogued.text).2 (finished_append_names (he cs hcat.text) ms)
    · exact harch.covers hcat (he cs hcat.text) hcov
  | rebuild o names =>
    have hrebuilds := filesAfter_rebuild_rebuilds (f := f) (o := o) names fs
    obtain ⟨cs', hrew⟩ := hrebuilds.rewrites hl c hc cs hcat
    have hnone : ∀ n, ¬Mislisted c fs (o.filesAfter f (.rebuildXlogdb names) fs) n :=
      fun n hn => hn.1.2 ((hrew.pending n).2 hn.1.1)
    refine ⟨⟨hl.congr hrebuilds.workDir, cs', hrew.catalogued⟩,
      fun ha => iff_of_true ?_ fun _ => hnone, fun he hcov => ⟨?_, ?_⟩⟩
    · rcases hrew.listed with rfl | hlists
      · rw [agrees_iff hcat.text] at ha
        exact (agrees_iff hrew.catalogued.text).2
          ⟨ha.1, fun n => (ha.2 n).trans (hrew.archived n).symm⟩
      · exact hlists.agrees hrew.catalogued
    · rcases hrew.listed with rfl | hlists
      · exact (ended_iff hrew.catalogued.text).2 (he _ hcat.text)
      · exact (ended_iff hrew.catalogued.text).2 hlists.finished
    · rcases hrew.listed with rfl | hlists
      · rw [covers_iff hcat.text] at hcov
        exact (covers_iff hrew.catalogued.text).2 fun n => (hcov n).trans (hrew.archived n).symm
      · exact (hlists.agrees hrew.catalogued).covers

/-- **A catalog that agreed with its archive agrees with it after every command of a run exactly if no
    command of the run archives a file under a name that was archived before, or after an unfinished
    line.** A catalog without such a line lists the archived files and no others throughout every run,
    though not always once; and after a rebuild that ends without a complaint, the catalog agrees again
    whatever has happened. -/
theorem catalog_agrees_iff_never_mislisted (hl : PlainLayout f fs) (hc : c ∈ f.servers)
    (hagrees : Agrees c fs) (hpending : ∀ n, Pending c fs n → Deliverable n)
    (events : List (WalEvent f)) :
    (EachStep (fun _ e fs' => e.IsCommand → Agrees c fs') fs events ↔
      EachStep (fun fs e fs' => e.IsCommand → ∀ n, ¬Mislisted c fs fs' n) fs events) ∧
    (Ended c fs → EachStep (fun _ _ fs' => Covers c fs') fs events) ∧
    EachStep (fun fs e fs' => e.Rebuilt c fs → Agrees c fs') fs events := by
  have horder : InOrder f c fs := ⟨hl, hagrees.catalogued hpending⟩
  refine ⟨?_, fun hended => ?_, ?_⟩
  · refine EachStep.iff_of_invariant (I := fun fs => InOrder f c fs ∧ Agrees c fs) ?_ events
      ⟨horder, hagrees⟩
    rintro fs e ⟨horder, hagrees⟩
    have hstep := follows_apply horder hc e
    have hiff := hstep.agrees hagrees
    have hnone : (e.IsCommand → Agrees c (e.apply fs)) →
        e.IsCommand → ∀ n, ¬Mislisted c fs (e.apply fs) n := fun h he => hiff.1 (h he) he
    exact ⟨⟨hnone, fun h _ => hiff.2 h⟩, fun h => ⟨hstep.inOrder, hiff.2 (hnone h)⟩⟩
  · refine EachStep.of_invariant (I := fun fs => InOrder f c fs ∧ Ended c fs ∧ Covers c fs) ?_ events
      ⟨horder, hended, hagrees.covers⟩
    rintro fs e ⟨horder, hended, hcovers⟩
    have hstep := follows_apply horder hc e
    obtain ⟨hended', hcovers'⟩ := hstep.covers hended hcovers
    exact ⟨hcovers', hstep.inOrder, hended', hcovers'⟩
  · refine EachStep.of_invariant (I := InOrder f c) ?_ events horder
    intro fs e horder
    refine ⟨fun h => ?_, (follows_apply horder hc e).inOrder⟩
    obtain ⟨hl, cs, hcat⟩ := horder
    cases e with
    | rebuild o names => exact agrees_of_rebuilt hl hc hcat h
    | arrival => cases h
    | cron => cases h

end Runs

/-! ### A file that is delivered again -/

namespace RedeliveredWal

/-- One server, stored in `srv`. -/
def server : ServerConfig := { ServerConfig.new "main" "srv" with active := true }

def fleet : Fleet := ⟨Settings.new "bman.conf", [server], []⟩

/-- No file is there yet. -/
def files : FileSystem := ⟨.empty, [], []⟩

def occasion : Occasion := ⟨.idle, .utc, fun _ => .epoch, [], 1⟩

/-- The file `A` arrives. -/
def arrival (content : Bytes) : WalEvent fleet :=
  .arrival server "A" content (by decide) (by decide) (by decide)

/-- A file is archived, and one of the same name is delivered and archived again. -/
def events : List (WalEvent fleet) := [arrival [120], .cron occasion, arrival [121], .cron occasion]

/-- Nothing waits, and nothing is archived. -/
theorem isFile_files (p : String) : files.isFile p = false := by
  cases hp : files.isFile p with
  | false => rfl
  | true =>
    obtain ⟨content, he⟩ := isFile_iff.1 hp
    have hget := (entry_eq_ok_iff.1 he).2.2
    have hempty : ∀ k : Location, FileTree.empty.get? k ≠ some (.file content) := by
      intro k
      cases k <;> simp [get?, empty]
    exact absurd hget (hempty _)

end RedeliveredWal

open RedeliveredWal in
/-- The catalog lists the file that was delivered twice a second time. -/
theorem disagreement_of_redelivered_file :
    Agrees server files ∧
      ¬EachStep (fun _ e fs' => e.IsCommand → Agrees server fs') files events := by
  have hagrees : Agrees server files := by
    refine ⟨[], rfl, .nil, fun n => ⟨fun h => absurd h List.not_mem_nil, fun h => ?_⟩⟩
    exact absurd h.2.2 (by rw [isFile_files]; decide)
  have hlayout : PlainLayout fleet files := ⟨by decide, by decide, by decide, by decide⟩
  refine ⟨hagrees, fun h => ?_⟩
  have hnone := (catalog_agrees_iff_never_mislisted hlayout (by decide) hagrees
    (fun n hn => absurd hn.2 (by rw [isFile_files]; decide)) events).1.1 h
  obtain ⟨-, -, -, hlast, -⟩ := hnone
  exact hlast trivial "A" ⟨by decide +kernel, .inl (by decide +kernel)⟩

end BackupFleet
