import BackupFleet.Command.Run
import BackupFleet.Proofs.Effect

/-!
# `BackupFleet.Proofs.Command.Step` — the steps of a running command, applied

A part of a command is a function of the session. These equations say what each kind of step makes of a
session, so that a command can be followed step by step.

## Contents

* `say_apply`, `report_apply`, `info_apply`, `perform_apply`, `ask_apply` — the kinds of steps;
* `holding_apply`, `cron_apply` — the maintenance lock;
* `Execution.ofResult` — what came of a whole run;
* `withServer_cases`, `withBackup_cases` — the server and the backup that a command acts on;
* `told`, `onTargets_told` — commands that only tell.
-/

namespace BackupFleet.Run

variable {σ α : Type}

@[simp] theorem say_apply (ms : List Message) (session : Session σ) :
    say ms session = .ok () { session with messages := session.messages ++ ms } := rfl

@[simp] theorem info_apply (text : String) (session : Session σ) :
    info text session = .ok () { session with messages := session.messages ++ [.info text] } := rfl

@[simp] theorem report_apply (e : UserError) (session : Session σ) :
    report e session
      = .ok () { session with messages := session.messages ++ [.error e.message] } := rfl

theorem perform_apply (op : Operation σ α) (session : Session σ) :
    perform op session = match op session.world with
      | .ok a w => .ok a { session with world := w }
      | .error f w => .error f { session with world := w } := rfl

theorem ask_apply (q : Question σ α) (session : Session σ) :
    ask q session = match q session.world with
      | .ok a => .ok a session
      | .error f => .error f session := rfl

theorem holding_apply (s : Services σ) (l : Location) (run : Run σ Unit) (session : Session σ) :
    holding s l run session = match run session with
      | .ok () session => .ok () { session with world := s.releaseLock l session.world }
      | .error f session => .error f { session with world := s.releaseLock l session.world } := rfl

/-- A sweep makes its round while it holds the lock, or reports why it does not hold it. -/
theorem cron_apply (f : Fleet) (s : Services σ) (session : Session σ) :
    cron f s session = match s.acquireLock f.lockDirectory session.world with
      | .error x w => .error x { session with world := w }
      | .ok (.held l) w => holding s l (sweep f s) { session with world := w }
      | .ok .busy w =>
        .ok () ⟨session.messages ++ [.info UserError.lockBusy.message], w⟩
      | .ok (.denied path) w =>
        .ok () ⟨session.messages ++ [.error (UserError.lockDenied path).message], w⟩ := by
  unfold cron
  rw [Effect.bind_apply, perform_apply]
  cases s.acquireLock f.lockDirectory session.world with
  | error x w => rfl
  | ok acquisition w => cases acquisition <;> rfl

end BackupFleet.Run

namespace BackupFleet

variable {σ α : Type}

/-- What came of a run that ended so. -/
def Execution.ofResult : EStateM.Result Fault (Session σ) Unit → Execution σ
  | .ok () session => ⟨session.messages, session.world, none⟩
  | .error fault session => ⟨session.messages, session.world, some fault⟩

theorem Command.execute_eq (f : Fleet) (s : Services σ) (zone : Time.Zone) (c : Command) (world : σ) :
    c.execute f s zone world = .ofResult (c.run f s zone ⟨[], world⟩) := rfl

theorem Command.execute_of_run {f : Fleet} {s : Services σ} {zone : Time.Zone} {c : Command} {w w' : σ}
    {ms : List Message} (h : c.run f s zone ⟨[], w⟩ = .ok () ⟨ms, w'⟩) :
    c.execute f s zone w = ⟨ms, w', none⟩ := by
  rw [execute_eq, h]
  rfl

/-! ## The server of a command -/

/-- A disabled server is refused with all its problems. -/
theorem classify_of_disabled {c : ServerConfig} (h : c.disabled = true) :
    classify c .blocking = .refusal c.problems := by
  have hp : c.problems ≠ [] := by simpa [ServerConfig.disabled] using h
  unfold classify Policy.reasons
  rw [if_pos h]
  cases hc : c.problems with
  | nil => exact absurd hc hp
  | cons p r => rfl

/-- An inactive server is refused with one message. -/
theorem classify_of_inactive {c : ServerConfig} (he : c.disabled = false) (h : c.active = false) :
    classify c .blocking = .refusal [(UserError.inactiveServer c.name).message] := by
  simp [classify, Policy.reasons, Policy.blocking, he, h]

theorem classify_of_ready {c : ServerConfig} (he : c.disabled = false) (h : c.active = true) :
    classify c .blocking = .proceed := by
  simp [classify, Policy.reasons, Policy.blocking, he, h]

/-- A server that is not admitted is complained of. -/
theorem failed_of_not_admits {c : ServerConfig} {policy : Policy}
    (h : (classify c policy).admits = false) : failed (classify c policy).messages = true := by
  unfold classify at h ⊢
  cases hr : policy.reasons c with
  | nil =>
    rw [hr] at h
    cases h
  | cons reason rest =>
    rw [hr] at h
    by_cases he : policy.isError = true
    · simp [he, Verdict.messages, Message.isFailure]
    · simp [he, Verdict.admits] at h

namespace Run

variable {f : Fleet} {name : String} {act : ServerConfig → Run σ Unit} {session : Session σ}

theorem withServer_of_conflicts {policy : Policy} (h : f.conflicts ≠ []) :
    withServer f name policy act session
      = .ok () { session with messages := session.messages ++ f.conflicts.map .error } := by
  unfold withServer resolveOne
  rw [if_pos h]
  rfl

theorem withServer_of_unknown {policy : Policy} (hc : f.conflicts = [])
    (h : f.server? name = none) :
    withServer f name policy act session
      = .ok () { session with
          messages := session.messages ++ [.error (UserError.unknownServer name).message] } := by
  unfold withServer resolveOne
  rw [if_neg (not_not_intro hc), h]
  simp [Effect.bind_apply]

theorem withServer_of_found {policy : Policy} {c : ServerConfig} (hc : f.conflicts = [])
    (h : f.server? name = some c) :
    withServer f name policy act session
      = if (classify c policy).admits then
          act c { session with messages := session.messages ++ (classify c policy).messages }
        else .ok () { session with messages := session.messages ++ (classify c policy).messages } := by
  unfold withServer resolveOne
  rw [if_neg (not_not_intro hc), h]
  simp only [Effect.bind_apply, say_apply]
  cases (classify c policy).admits <;> rfl

/-- **A command on one server does its work on it, or it has failed without any.** The work is done only
    if there are no conflicts and the server is configured, enabled and active. -/
theorem withServer_cases (f : Fleet) (name : String) (act : ServerConfig → Run σ Unit)
    (session : Session σ) :
    (∃ c, f.conflicts = [] ∧ f.server? name = some c ∧ c.disabled = false ∧ c.active = true ∧
      withServer f name .blocking act session = act c session) ∨
    (∃ ms, failed ms = true ∧ withServer f name .blocking act session
      = .ok () { session with messages := session.messages ++ ms }) := by
  by_cases hc : f.conflicts = []
  · cases hs : f.server? name with
    | none => exact .inr ⟨_, rfl, withServer_of_unknown hc hs⟩
    | some c =>
      rw [withServer_of_found hc hs]
      by_cases he : c.disabled = true
      · rw [classify_of_disabled he]
        have hp : c.problems ≠ [] := by simpa [ServerConfig.disabled] using he
        obtain ⟨p, r, hr⟩ := List.exists_cons_of_ne_nil hp
        exact .inr ⟨c.problems.map .error, by simp [hr, Message.isFailure], rfl⟩
      · have he : c.disabled = false := by simpa using he
        by_cases ha : c.active = true
        · rw [classify_of_ready he ha]
          exact .inl ⟨c, hc, rfl, he, ha, by simp [Verdict.admits, Verdict.messages]⟩
        · rw [classify_of_inactive he (by simpa using ha)]
          exact .inr ⟨[.error _], rfl, rfl⟩
  · obtain ⟨p, r, hr⟩ := List.exists_cons_of_ne_nil hc
    exact .inr ⟨f.conflicts.map .error, by simp [hr, Message.isFailure], withServer_of_conflicts hc⟩

/-- A command on one backup does its work on it, or has failed without any, or ends with a fault. -/
theorem withBackup_cases (s : Services σ) (c : ServerConfig) (backup : String)
    (act : Catalog.Record → Run σ Unit) (session : Session σ) :
    (∃ r, (Catalog.Identifier.read backup).resolve (s.lookup c session.world) = .ok (some r) ∧
      withBackup s c backup act session = act r session) ∨
    (∃ ms, failed ms = true ∧ withBackup s c backup act session
      = .ok () { session with messages := session.messages ++ ms }) ∨
    ∃ e, withBackup s c backup act session = .error e session := by
  unfold withBackup findBackup
  rw [Effect.bind_apply, ask_apply]
  cases (Catalog.Identifier.read backup).resolve (s.lookup c session.world) with
  | error e => exact .inr (.inr ⟨e, rfl⟩)
  | ok found =>
    cases found with
    | none => exact .inr (.inl ⟨[.error (UserError.unknownBackup c.name backup).message], rfl, rfl⟩)
    | some r => exact .inl ⟨r, rfl, rfl⟩

/-! ## Commands that only tell -/

/-- What is told of the servers of a request. -/
def told (policy : Policy) (lines : ServerConfig → List Message) : List (String × Option ServerConfig) →
    List Message
  | [] => []
  | (name, none) :: r => .error (UserError.unknownServer name).message :: told policy lines r
  | (_, some c) :: r => (classify c policy).messages ++ lines c ++ told policy lines r

/-- What is asked can be told. -/
theorem ask_say {q : Question σ α} {answer : α} {world : σ} (h : q world = .ok answer)
    (lines : α → List Message) (ms : List Message) :
    (do let a ← ask q; say (lines a) : Run σ Unit) ⟨ms, world⟩ = .ok () ⟨ms ++ lines answer, world⟩ := by
  rw [Effect.bind_apply, ask_apply, h]
  rfl

/-- A policy that only warns admits every server. -/
theorem admits_of_not_isError {policy : Policy} (h : policy.isError = false) (c : ServerConfig) :
    (classify c policy).admits = true := by
  unfold classify
  cases policy.reasons c with
  | nil => rfl
  | cons reason r => simp [h, Verdict.admits]

theorem forEachAdmitted_told {policy : Policy} (hp : policy.isError = false)
    {lines : ServerConfig → List Message} {world : σ} {entries : List (String × Option ServerConfig)}
    {act : ServerConfig → Run σ Unit} (h : ∀ name c, (name, some c) ∈ entries →
      ∀ ms, act c ⟨ms, world⟩ = .ok () ⟨ms ++ lines c, world⟩) (ms : List Message) :
    forEachAdmitted policy act entries ⟨ms, world⟩ = .ok () ⟨ms ++ told policy lines entries, world⟩ := by
  induction entries generalizing ms with
  | nil => simp [forEachAdmitted, told]
  | cons e r ih =>
    have hr := ih fun name c hc => h name c (List.mem_cons_of_mem _ hc)
    obtain ⟨name, found⟩ := e
    cases found with
    | none =>
      rw [forEachAdmitted, Effect.bind_apply, report_apply]
      dsimp only
      rw [hr, told, List.append_assoc]
      rfl
    | some c =>
      rw [forEachAdmitted, Effect.bind_apply, say_apply]
      dsimp only
      rw [if_pos (admits_of_not_isError hp c), Effect.bind_apply, h name c List.mem_cons_self]
      dsimp only
      rw [hr, told]
      simp only [List.append_assoc]

/-- **A command that only tells of each server tells of all that were asked for**, and changes nothing. -/
theorem onTargets_told {f : Fleet} {names : List String} {o : ExpandOptions} {policy : Policy}
    (hp : policy.isError = false) {lines : ServerConfig → List Message} {world : σ} {targets : Targets}
    (ht : (expand f (.ofNames names) o).2 = some targets) {act : ServerConfig → Run σ Unit}
    (h : ∀ name c, (name, some c) ∈ targets.entries →
      ∀ ms, act c ⟨ms, world⟩ = .ok () ⟨ms ++ lines c, world⟩) (ms : List Message) :
    onTargets f names o policy act ⟨ms, world⟩
      = .ok () ⟨ms ++ (expand f (.ofNames names) o).1 ++ told policy lines targets.entries, world⟩ := by
  unfold onTargets withTargets
  generalize hr : expand f (.ofNames names) o = resolved at ht
  obtain ⟨messages, found⟩ := resolved
  obtain rfl : found = some targets := ht
  dsimp only
  rw [Effect.bind_apply, say_apply]
  exact forEachAdmitted_told hp h (ms ++ messages)

end Run

end BackupFleet
