import Mathlib.Data.List.TakeWhile
import BackupFleet.Proofs.Server.Trace
import BackupFleet.Proofs.Target.Resolution
import BackupFleet.Storage.Services

/-!
# `BackupFleet.Proofs.Command.Rounds` — which servers a command acts on

Six commands go through the targets of a request. Three of them do work, and stop at the first server that
is disabled or inactive, since a user who names such a server should hear of it; three of them only tell,
and warn of such a server. Apart from that they make the same round: an unknown name is reported and passed
over, every server is served once, in ascending order of names, and a fault ends the round where it happens.

What a command does for one server is its duty. A round is described by the targets that are passed, the
messages of each and the world after each; the calls are read off the targets, so a server that is left out,
served twice or served out of turn would show.

## Contents

* `Duty`, `Question.asked` — what is done for a server;
* `Duty.Serves`, `Duty.Outcome` — rounds, to their end or to a fault;
* `Duty.Carries`, `Duty.outcome_forEachAdmitted` — a command that does its duty makes a round;
* `beforeUnready`, `unreadyMessages`, `Duty.StopsAtUnready` — rounds that stop;
* `backupDuty`, `rebuildDuty`, `sweepDuty`, `listDuty`, `statusDuty`, `showDuty` — the six commands;
* `rounds_of_commands` — what each of them does.
-/

namespace BackupFleet

open Effect

variable {σ α : Type}

/-! ## Duties -/

/-- What a command does for one server: an operation, the calls it hands over, and what is told before it
    and of its answer. -/
structure Duty (σ α : Type) where
  serve : ServerConfig → Operation σ α
  calls : ServerConfig → List ServiceCall
  before : ServerConfig → List Message
  after : ServerConfig → α → List Message

/-- A question, as an operation that changes nothing. -/
def Question.asked (q : Question σ α) : Operation σ α := fun w =>
  match q w with
  | .ok a => .ok a w
  | .error x => .error x w

/-! ## Rounds -/

/-- The servers among targets. -/
def serversOf (targets : List (String × Option ServerConfig)) : List ServerConfig :=
  targets.filterMap (·.2)

/-- All targets are passed in order, from one world to another, with these messages: each unknown name is
    reported once, and each server is served once. -/
inductive Duty.Serves (d : Duty σ α) :
    List (String × Option ServerConfig) → σ → List Message → σ → Prop
  | nil {w : σ} : d.Serves [] w [] w
  | unknown {name : String} {r : List (String × Option ServerConfig)} {w w' : σ} {ms : List Message}
      (h : d.Serves r w ms w') :
      d.Serves ((name, none) :: r) w (.error (UserError.unknownServer name).message :: ms) w'
  | served {name : String} {c : ServerConfig} {r : List (String × Option ServerConfig)} {w w' w'' : σ}
      {a : α} {ms : List Message} (hc : d.serve c w = .ok a w') (h : d.Serves r w' ms w'') :
      d.Serves ((name, some c) :: r) w (d.before c ++ d.after c a ++ ms) w''

/-- What comes of a round that starts in `w` with `opening` told and `noted` called: all targets are passed
    and `closing` is told at the end, or the service of one of them ends it with a fault, and what comes
    later is neither served nor reported. -/
inductive Duty.Outcome (d : Duty σ α) (targets : List (String × Option ServerConfig))
    (opening closing : List Message) (w : σ) (noted : List ServiceCall) :
    Execution (σ × List ServiceCall) → Prop
  | finished {ms : List Message} {w' : σ} (h : d.Serves targets w ms w') :
      d.Outcome targets opening closing w noted
        ⟨opening ++ ms ++ closing, (w', noted ++ (serversOf targets).flatMap d.calls), none⟩
  | cutShort {passed later : List (String × Option ServerConfig)} {name : String} {c : ServerConfig}
      {ms : List Message} {w' w'' : σ} {x : Fault} (ht : targets = passed ++ (name, some c) :: later)
      (h : d.Serves passed w ms w') (hc : d.serve c w' = .error x w'') :
      d.Outcome targets opening closing w noted
        ⟨opening ++ ms ++ d.before c,
          (w'', noted ++ (serversOf passed).flatMap d.calls ++ d.calls c), some x⟩

namespace Duty.Outcome

variable {d : Duty σ α} {r : List (String × Option ServerConfig)} {opening closing : List Message}
  {w w' : σ} {noted : List ServiceCall} {e : Execution (σ × List ServiceCall)}

theorem nil : d.Outcome [] opening closing w noted ⟨opening ++ closing, (w, noted), none⟩ := by
  have h : d.Outcome [] opening closing w noted _ := .finished .nil
  simpa [serversOf] using h

/-- An unknown name is reported, and the round goes on. -/
theorem unknown {name : String}
    (h : d.Outcome r (opening ++ [.error (UserError.unknownServer name).message]) closing w noted e) :
    d.Outcome ((name, none) :: r) opening closing w noted e := by
  cases h with
  | finished hr =>
    have h : d.Outcome ((name, none) :: r) opening closing w noted _ := .finished hr.unknown
    simpa [serversOf] using h
  | cutShort ht hr hc =>
    have h : d.Outcome ((name, none) :: r) opening closing w noted _ :=
      .cutShort (congrArg ((name, none) :: ·) ht) hr.unknown hc
    simpa [serversOf] using h

/-- A server is served, and the round goes on. -/
theorem served {name : String} {c : ServerConfig} {a : α} (hc : d.serve c w = .ok a w')
    (h : d.Outcome r (opening ++ d.before c ++ d.after c a) closing w' (noted ++ d.calls c) e) :
    d.Outcome ((name, some c) :: r) opening closing w noted e := by
  cases h with
  | finished hr =>
    have h : d.Outcome ((name, some c) :: r) opening closing w noted _ := .finished (.served hc hr)
    simpa [serversOf] using h
  | cutShort ht hr hx =>
    have h : d.Outcome ((name, some c) :: r) opening closing w noted _ :=
      .cutShort (congrArg ((name, some c) :: ·) ht) (.served hc hr) hx
    simpa [serversOf] using h

/-- A fault ends the round. -/
theorem fault {name : String} {c : ServerConfig} {x : Fault} (hc : d.serve c w = .error x w') :
    d.Outcome ((name, some c) :: r) opening closing w noted
      ⟨opening ++ d.before c, (w', noted ++ d.calls c), some x⟩ := by
  have h : d.Outcome ((name, some c) :: r) opening closing w noted _ :=
    .cutShort (List.nil_append _).symm .nil hc
  simpa [serversOf] using h

end Duty.Outcome

/-! ## A command that does its duty -/

/-- What a command does for a server that its policy admits, the warnings included, is its duty. -/
def Duty.Carries (d : Duty σ α) (policy : Policy)
    (act : ServerConfig → Run (σ × List ServiceCall) Unit) : Prop :=
  ∀ c, (classify c policy).admits = true → ∀ ms w noted,
    act c ⟨ms ++ (classify c policy).messages, (w, noted)⟩ = match d.serve c w with
      | .ok a w' => .ok () ⟨ms ++ d.before c ++ d.after c a, (w', noted ++ d.calls c)⟩
      | .error x w' => .error x ⟨ms ++ d.before c, (w', noted ++ d.calls c)⟩

/-- A target that does not stop a command: an unknown name, or a server that is admitted. -/
def Policy.passes (policy : Policy) (target : String × Option ServerConfig) : Bool :=
  target.2.all fun c => (classify c policy).admits

/-- What is told of the first server that is not admitted. -/
def Policy.refusal (policy : Policy) (targets : List (String × Option ServerConfig)) : List Message :=
  match (serversOf targets).find? fun c => !(classify c policy).admits with
  | some c => (classify c policy).messages
  | none => []

/-- **A command that does its duty makes a round** of the targets before the first one that it does not
    admit, and reports that one. -/
theorem Duty.outcome_forEachAdmitted {d : Duty σ α} {policy : Policy}
    {act : ServerConfig → Run (σ × List ServiceCall) Unit} (h : d.Carries policy act)
    (targets : List (String × Option ServerConfig)) (opening : List Message) (w : σ)
    (noted : List ServiceCall) :
    d.Outcome (targets.takeWhile policy.passes) opening (policy.refusal targets) w noted
      (.ofResult (Run.forEachAdmitted policy act targets ⟨opening, (w, noted)⟩)) := by
  -- What was told and called before the rest of a round is its opening and is noted for it.
  induction targets generalizing opening w noted with
  | nil =>
    have h : d.Outcome [] opening [] w noted _ := .nil
    rwa [List.append_nil] at h
  | cons t r ih =>
    obtain ⟨name, found⟩ := t
    cases found with
    | none =>
      rw [List.takeWhile_cons_of_pos rfl, Run.forEachAdmitted, bind_apply, Run.report_apply]
      exact (ih _ w noted).unknown
    | some c =>
      rw [Run.forEachAdmitted, bind_apply, Run.say_apply]
      dsimp only
      by_cases ha : (classify c policy).admits = true
      · have hpass : policy.passes (name, some c) = true := ha
        have hrefusal : policy.refusal ((name, some c) :: r) = policy.refusal r := by
          simp [Policy.refusal, serversOf, ha]
        rw [List.takeWhile_cons_of_pos hpass, hrefusal, if_pos ha, bind_apply, h c ha opening w noted]
        cases hs : d.serve c w with
        | ok a w' => exact (ih _ w' _).served hs
        | error x w' => exact .fault hs
      · have hpass : ¬policy.passes (name, some c) = true := ha
        have hrefusal : policy.refusal ((name, some c) :: r) = (classify c policy).messages := by
          simp [Policy.refusal, serversOf, ha]
        rw [List.takeWhile_cons_of_neg hpass, hrefusal, if_neg ha]
        exact .nil

/-! ## Rounds that stop, and rounds that do not -/

/-- Enabled and active. -/
def ServerConfig.ready (c : ServerConfig) : Bool := !c.disabled && c.active

/-- What is wrong with a server: all its problems, or else that it is inactive. -/
def ServerConfig.complaints (c : ServerConfig) : List String :=
  if c.disabled then c.problems
  else if c.active then []
  else [(UserError.inactiveServer c.name).message]

/-- The targets before the first server that is not ready. -/
def beforeUnready (targets : List (String × Option ServerConfig)) :
    List (String × Option ServerConfig) :=
  targets.takeWhile fun t => t.2.all ServerConfig.ready

/-- What is reported of the first server that is not ready, if there is one. -/
def unreadyMessages (targets : List (String × Option ServerConfig)) : List Message :=
  match (serversOf targets).find? fun c => !c.ready with
  | some c => c.complaints.map .error
  | none => []

/-- What comes of a round that stops at the first server that is not ready. -/
def Duty.StopsAtUnready (d : Duty σ α) (targets : List (String × Option ServerConfig))
    (opening : List Message) (w : σ) (noted : List ServiceCall)
    (e : Execution (σ × List ServiceCall)) : Prop :=
  d.Outcome (beforeUnready targets) opening (unreadyMessages targets) w noted e

theorem reasons_blocking (c : ServerConfig) : Policy.blocking.reasons c = c.complaints := by
  unfold Policy.reasons ServerConfig.complaints
  cases c.disabled <;> cases c.active <;> rfl

theorem reasons_warn (c : ServerConfig) : Policy.warn.reasons c = c.complaints := reasons_blocking c

/-- Without regard to activity, only the problems of a server are left. -/
theorem reasons_warnIgnoreActive (c : ServerConfig) : Policy.warnIgnoreActive.reasons c = c.problems := by
  unfold Policy.reasons Policy.warnIgnoreActive
  cases hd : c.disabled with
  | true => rfl
  | false => simpa [ServerConfig.disabled] using hd.symm

theorem complaints_eq_nil_iff {c : ServerConfig} : c.complaints = [] ↔ c.ready = true := by
  unfold ServerConfig.complaints ServerConfig.ready ServerConfig.disabled
  cases hp : c.problems <;> cases c.active <;> simp

theorem admits_blocking (c : ServerConfig) : (classify c .blocking).admits = c.ready := by
  unfold classify
  rw [reasons_blocking]
  cases h : c.complaints with
  | nil => exact (complaints_eq_nil_iff.1 h).symm
  | cons p r =>
    have hr : ¬c.ready = true := fun hr => by simpa [h] using complaints_eq_nil_iff.2 hr
    simpa [Verdict.admits, Policy.blocking] using hr

theorem messages_blocking (c : ServerConfig) : (classify c .blocking).messages = c.complaints.map .error := by
  unfold classify
  rw [reasons_blocking]
  cases c.complaints <;> rfl

/-- A policy that only warns tells its reasons as warnings. -/
theorem messages_of_not_isError {policy : Policy} (h : policy.isError = false) (c : ServerConfig) :
    (classify c policy).messages = (policy.reasons c).map .warning := by
  unfold classify
  cases policy.reasons c <;> simp [h, Verdict.messages]

/-- A command on many servers that stops at one that is not ready. -/
theorem Duty.stopsAtUnready_onTargets {d : Duty σ α} {act : ServerConfig → Run (σ × List ServiceCall) Unit}
    (h : d.Carries .blocking act) {f : Fleet} {names : List String} {o : ExpandOptions}
    {skipped : List Message} {targets : Targets}
    (ht : expand f (.ofNames names) o = (skipped, some targets)) (w : σ) (noted : List ServiceCall) :
    d.StopsAtUnready targets.entries skipped w noted
      (.ofResult (Run.onTargets f names o .blocking act ⟨[], (w, noted)⟩)) := by
  have hround := d.outcome_forEachAdmitted h targets.entries skipped w noted
  unfold Policy.passes Policy.refusal at hround
  simp only [admits_blocking, messages_blocking] at hround
  unfold Run.onTargets Run.withTargets
  rw [ht]
  exact hround

/-- A command on many servers that warns makes the whole round. -/
theorem Duty.outcome_onTargets {d : Duty σ α} {policy : Policy} (hp : policy.isError = false)
    {act : ServerConfig → Run (σ × List ServiceCall) Unit} (h : d.Carries policy act) {f : Fleet}
    {names : List String} {o : ExpandOptions} {skipped : List Message} {targets : Targets}
    (ht : expand f (.ofNames names) o = (skipped, some targets)) (w : σ) (noted : List ServiceCall) :
    d.Outcome targets.entries skipped [] w noted
      (.ofResult (Run.onTargets f names o policy act ⟨[], (w, noted)⟩)) := by
  have hround := d.outcome_forEachAdmitted h targets.entries skipped w noted
  have hall : targets.entries.takeWhile policy.passes = targets.entries :=
    List.takeWhile_eq_self_iff.2 fun t _ => by simp [Policy.passes, Run.admits_of_not_isError hp]
  have hnone : policy.refusal targets.entries = [] := by
    have hfind : (serversOf targets.entries).find? (fun c => !(classify c policy).admits) = none := by
      simp [Run.admits_of_not_isError hp]
    rw [Policy.refusal, hfind]
  rw [hall, hnone] at hround
  unfold Run.onTargets Run.withTargets
  rw [ht]
  exact hround

/-! ## The six commands -/

/-- A new backup. -/
def backupDuty (s : Services σ) (o : BackupOverrides) : Duty σ Catalog.Record where
  serve c := s.backup c (o.apply c)
  calls c := [.backup c (o.apply c)]
  before c := [.info ("Starting backup for server " ++ c.name)]
  after c r := [Run.backupMessage c r]

/-- The WAL catalog written anew. -/
def rebuildDuty (s : Services σ) : Duty σ Nat where
  serve := s.rebuildWalCatalog
  calls c := [.rebuildWalCatalog c]
  before c := [.info ("Rebuilding xlogdb for server " ++ c.name)]
  after c count := [.info ("Done rebuilding xlogdb for server " ++ c.name ++ " (WAL files: " ++
    toString count ++ ")")]

/-- WAL files archived. -/
def sweepDuty (s : Services σ) : Duty σ Nat where
  serve := s.cron
  calls c := [.cron c]
  before _ := []
  after c archived :=
    if 0 < archived then [.info (c.name ++ ": " ++ toString archived ++ " WAL file(s) archived")] else []

/-- A question is asked and its answer told, after warnings. -/
def tellingDuty (q : ServerConfig → Question σ α) (warnings : ServerConfig → List String)
    (lines : ServerConfig → α → List Message) : Duty σ α where
  serve c := (q c).asked
  calls _ := []
  before c := (warnings c).map .warning
  after := lines

/-- The backups told. -/
def listDuty (s : Services σ) (minimal : Bool) : Duty σ (List Catalog.Record) :=
  tellingDuty s.listBackups ServerConfig.complaints fun c backups =>
    backups.reverse.map fun r => .result (if minimal then r.id else Run.backupText c r)

/-- Keys and values below the name of their server. -/
def propertyLines (c : ServerConfig) (properties : List (String × String)) : List Message :=
  .result ("Server " ++ c.name ++ ":") ::
    properties.map fun (key, value) => .result ("\t" ++ key ++ ": " ++ value)

/-- The state told. -/
def statusDuty (s : Services σ) : Duty σ (List (String × String)) :=
  tellingDuty s.status ServerConfig.complaints propertyLines

/-- The configuration told, also of an inactive server without a warning. -/
def showDuty (s : Services σ) : Duty σ (List (String × String)) :=
  tellingDuty s.describe ServerConfig.problems propertyLines

section Carried

variable (s : Services σ) {f : Fleet} {names : List String} {skipped : List Message} {targets : Targets}
  (w : σ) (noted : List ServiceCall)

theorem Run.backup_stopsAtUnready (o : BackupOverrides)
    (ht : expand f (.ofNames names) { skipInactive := true, skipDisabled := true }
      = (skipped, some targets)) :
    (backupDuty s o).StopsAtUnready targets.entries skipped w noted
      (.ofResult (Run.backup f s.traced names o ⟨[], (w, noted)⟩)) := by
  refine Duty.stopsAtUnready_onTargets (fun c hc ms w noted => ?_) ht w noted
  rw [messages_blocking, complaints_eq_nil_iff.2 (admits_blocking c ▸ hc)]
  simp only [bind_apply, Run.info_apply, Run.perform_apply, Services.traced, Operation.noting_apply,
    backupDuty, List.map_nil, List.append_nil]
  cases s.backup c (o.apply c) w <;> rfl

theorem Run.rebuildXlogdb_stopsAtUnready
    (ht : expand f (.ofNames names) {} = (skipped, some targets)) :
    (rebuildDuty s).StopsAtUnready targets.entries skipped w noted
      (.ofResult (Run.rebuildXlogdb f s.traced names ⟨[], (w, noted)⟩)) := by
  refine Duty.stopsAtUnready_onTargets (fun c hc ms w noted => ?_) ht w noted
  rw [messages_blocking, complaints_eq_nil_iff.2 (admits_blocking c ▸ hc)]
  simp only [bind_apply, Run.info_apply, Run.perform_apply, Services.traced, Operation.noting_apply,
    rebuildDuty, List.map_nil, List.append_nil]
  cases s.rebuildWalCatalog c w <;> rfl

theorem Run.sweep_stopsAtUnready
    (ht : expand f (.ofNames []) { skipInactive := true } = (skipped, some targets)) :
    (sweepDuty s).StopsAtUnready targets.entries skipped w noted
      (.ofResult (Run.sweep f s.traced ⟨[], (w, noted)⟩)) := by
  refine Duty.stopsAtUnready_onTargets (fun c hc ms w noted => ?_) ht w noted
  rw [messages_blocking, complaints_eq_nil_iff.2 (admits_blocking c ▸ hc)]
  simp only [bind_apply, Run.perform_apply, Services.traced, Operation.noting_apply, sweepDuty,
    List.map_nil, List.append_nil]
  cases s.cron c w with
  | ok archived w' => by_cases ha : 0 < archived <;> simp [ha]
  | error x w' => rfl

/-- A command that asks and tells does the duty of it, under a policy that only warns. -/
theorem tellingDuty_carries {policy : Policy} (hp : policy.isError = false)
    (q : ServerConfig → Question σ α) {warnings : ServerConfig → List String}
    (hw : ∀ c, policy.reasons c = warnings c) (lines : ServerConfig → α → List Message) :
    (tellingDuty q warnings lines).Carries policy fun c =>
      Run.ask (fun w : σ × List ServiceCall => q c w.1) >>= fun a => Run.say (lines c a) := by
  intro c _ ms w noted
  rw [messages_of_not_isError hp, hw]
  simp only [bind_apply, Run.ask_apply, tellingDuty, Question.asked]
  cases q c w with
  | ok a => simp
  | error x => simp

theorem Run.listBackup_outcome (minimal : Bool)
    (ht : expand f (.ofNames names) {} = (skipped, some targets)) :
    (listDuty s minimal).Outcome targets.entries skipped [] w noted
      (.ofResult (Run.listBackup f s.traced names minimal ⟨[], (w, noted)⟩)) :=
  Duty.outcome_onTargets rfl (tellingDuty_carries rfl s.listBackups reasons_warn _) ht w noted

theorem Run.status_outcome (ht : expand f (.ofNames names) {} = (skipped, some targets)) :
    (statusDuty s).Outcome targets.entries skipped [] w noted
      (.ofResult (Run.status f s.traced names ⟨[], (w, noted)⟩)) :=
  Duty.outcome_onTargets rfl (tellingDuty_carries rfl s.status reasons_warn _) ht w noted

theorem Run.showServer_outcome (ht : expand f (.ofNames names) {} = (skipped, some targets)) :
    (showDuty s).Outcome targets.entries skipped [] w noted
      (.ofResult (Run.showServer f s.traced names ⟨[], (w, noted)⟩)) :=
  Duty.outcome_onTargets rfl (tellingDuty_carries rfl s.describe reasons_warnIgnoreActive _) ht w noted

end Carried

/-- A request without options leaves out no server. -/
theorem Fleet.skipMessages_default (f : Fleet) (names : List String) : f.skipMessages names {} = [] := by
  simp [skipMessages, ExpandOptions.skipText]

/-- A sweep that holds the lock lets it go after its round, however the round ends. -/
theorem execute_cron_of_held (s : Services σ) (f : Fleet) (zone : Time.Zone) {w w' : σ} {l : Location}
    (hl : s.acquireLock f.lockDirectory w = .ok (.held l) w') {e : Execution (σ × List ServiceCall)}
    (he : .ofResult (Run.sweep f s.traced ⟨[], (w', [.acquireLock f.lockDirectory])⟩) = e) :
    Command.cron.execute f s.traced zone (w, [])
      = { e with world := (s.releaseLock l e.world.1, e.world.2 ++ [.releaseLock l]) } := by
  have hacquire : s.traced.acquireLock f.lockDirectory (w, [])
      = .ok (.held l) (w', [.acquireLock f.lockDirectory]) := by
    rw [Services.traced_acquireLock, Operation.noting_apply, hl]
    rfl
  rw [Command.execute_eq, Command.run, Run.cron_apply, hacquire, ← he]
  dsimp only
  rw [Run.holding_apply]
  cases Run.sweep f s.traced ⟨[], (w', [.acquireLock f.lockDirectory])⟩ <;> rfl

/-- **Which servers a command on many servers acts on.** Where no two servers have one name and there are
    no conflicts, a request has its resolution, in ascending order of names, and each of the commands makes
    its round of it. A backup, a rebuilding and a sweep that holds the lock serve every server before the
    first one that is disabled or inactive, report that one with all that is wrong with it, and leave the
    rest alone; the other three serve every server, and warn of it instead. Where the service of a server
    ends with a fault, so does the command. -/
theorem rounds_of_commands (s : Services σ) {f : Fleet} (hc : f.conflicts = []) (hf : f.NamesDiffer)
    (zone : Time.Zone) (names : List String) (w : σ) :
    (∀ overrides, ∃ targets,
      f.Resolved names { skipInactive := true, skipDisabled := true } targets ∧
      (backupDuty s overrides).StopsAtUnready targets
        (f.skipMessages names { skipInactive := true, skipDisabled := true }) w []
        ((Command.backup names overrides).execute f s.traced zone (w, []))) ∧
    (∃ targets, f.Resolved names {} targets ∧
      (rebuildDuty s).StopsAtUnready targets [] w []
        ((Command.rebuildXlogdb names).execute f s.traced zone (w, []))) ∧
    (∀ l w', s.acquireLock f.lockDirectory w = .ok (.held l) w' → ∃ targets e,
      f.Resolved [] { skipInactive := true } targets ∧
      (sweepDuty s).StopsAtUnready targets (f.skipMessages [] { skipInactive := true }) w'
        [.acquireLock f.lockDirectory] e ∧
      Command.cron.execute f s.traced zone (w, [])
        = { e with world := (s.releaseLock l e.world.1, e.world.2 ++ [.releaseLock l]) }) ∧
    (∀ minimal, ∃ targets, f.Resolved names {} targets ∧
      (listDuty s minimal).Outcome targets [] [] w []
        ((Command.listBackup names minimal).execute f s.traced zone (w, []))) ∧
    (∃ targets, f.Resolved names {} targets ∧
      (statusDuty s).Outcome targets [] [] w []
        ((Command.status names).execute f s.traced zone (w, []))) ∧
    ∃ targets, f.Resolved names {} targets ∧
      (showDuty s).Outcome targets [] [] w []
        ((Command.showServer names).execute f s.traced zone (w, [])) := by
  obtain ⟨plain, hplain, htplain⟩ := Fleet.exists_resolved hc hf names {}
  rw [f.skipMessages_default] at htplain
  obtain ⟨kept, hkept, htkept⟩ :=
    Fleet.exists_resolved hc hf names { skipInactive := true, skipDisabled := true }
  obtain ⟨active, hactive, htactive⟩ := Fleet.exists_resolved hc hf [] { skipInactive := true }
  refine ⟨fun overrides => ⟨kept.entries, hkept, ?_⟩, ⟨plain.entries, hplain, ?_⟩,
    fun l w' hl => ⟨active.entries, _, hactive, ?_, execute_cron_of_held s f zone hl rfl⟩,
    fun minimal => ⟨plain.entries, hplain, ?_⟩, ⟨plain.entries, hplain, ?_⟩,
    ⟨plain.entries, hplain, ?_⟩⟩
  · exact Run.backup_stopsAtUnready s w [] overrides htkept
  · exact Run.rebuildXlogdb_stopsAtUnready s w [] htplain
  · exact Run.sweep_stopsAtUnready s w' _ htactive
  · exact Run.listBackup_outcome s w [] minimal htplain
  · exact Run.status_outcome s w [] htplain
  · exact Run.showServer_outcome s w [] htplain

/-! ### Five names, of which one is not configured and one is inactive -/

namespace MixedNames

def server (name : String) (active : Bool) : ServerConfig :=
  { ServerConfig.new name "srv" with active := active }

def fleet : Fleet :=
  ⟨Settings.new "bman.conf",
    [server "zoe" true, server "ada" true, server "max" false, server "ben" true], []⟩

/-- No file is there yet, and it is the first second of 1970. -/
def host : Host := ⟨⟨.empty, [], []⟩, fun _ => .ofUnix 0 0, 0, [], 1, 0, []⟩

def names : List String := ["zoe", "max", "ghost", "ben", "ada"]

end MixedNames

open MixedNames in
/-- The WAL catalogs of the servers before the inactive one are written anew; that of the last one is
    not. -/
theorem rebuild_of_mixed_names :
    fleet.conflicts = [] ∧ fleet.NamesDiffer ∧
    (∃ targets, fleet.Resolved names {} targets ∧
      (rebuildDuty (Storage.services .idle)).StopsAtUnready targets [] host []
        ((Command.rebuildXlogdb names).execute fleet (Storage.services .idle).traced .utc (host, []))) ∧
    ((Command.rebuildXlogdb names).execute fleet (Storage.services .idle) .utc host).messages
      = [.info "Rebuilding xlogdb for server ada",
        .info "Done rebuilding xlogdb for server ada (WAL files: 0)",
        .info "Rebuilding xlogdb for server ben",
        .info "Done rebuilding xlogdb for server ben (WAL files: 0)",
        .error "Unknown server 'ghost'", .error "Not active server: max"] :=
  ⟨rfl, by decide, (rounds_of_commands _ rfl (by decide) .utc names host).2.1, by decide +kernel⟩

end BackupFleet
