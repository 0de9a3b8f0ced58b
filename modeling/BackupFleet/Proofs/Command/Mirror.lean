import BackupFleet.Proofs.Command.Step

/-!
# `BackupFleet.Proofs.Command.Mirror` — a command knows its world through the services only

Services may keep more in their world than they show, for instance a list of what was done. A command
cannot tell: with services that do and answer the same, it reports the same messages, ends in the same
way, and leaves a world in which the same is seen.

## Contents

* `Services.Mirrors` — services that do and answer the same;
* `Run.Mirrors.say`, `Run.Mirrors.ask`, `Run.Mirrors.perform` — the steps of a command;
* `Run.Mirrors.onTargets`, `Run.Mirrors.withServer`, `Run.Mirrors.withBackup` — servers and backups;
* `Command.run_mirrors`, `Command.execute_mirrors` — commands.
-/

namespace BackupFleet

open Effect

variable {σ τ α : Type} {π : τ → σ}

/-- The services `s'` do to the part `π` of their world what `s` do, and answer the same. -/
structure Services.Mirrors (π : τ → σ) (s' : Services τ) (s : Services σ) : Prop where
  backup : ∀ c o, Effect.Mirrors π (s'.backup c o) (s.backup c o)
  recover : ∀ c r q, Effect.Mirrors π (s'.recover c r q) (s.recover c r q)
  deleteBackup : ∀ c r, Effect.Mirrors π (s'.deleteBackup c r) (s.deleteBackup c r)
  rebuildWalCatalog : ∀ c, Effect.Mirrors π (s'.rebuildWalCatalog c) (s.rebuildWalCatalog c)
  cron : ∀ c, Effect.Mirrors π (s'.cron c) (s.cron c)
  listBackups : ∀ c t, s.listBackups c (π t) = s'.listBackups c t
  getBackup : ∀ c id t, s.getBackup c id (π t) = s'.getBackup c id t
  firstId : ∀ c t, s.firstId c (π t) = s'.firstId c t
  lastId : ∀ c t, s.lastId c (π t) = s'.lastId c t
  status : ∀ c t, s.status c (π t) = s'.status c t
  describe : ∀ c t, s.describe c (π t) = s'.describe c t
  check : ∀ c t, s.check c (π t) = s'.check c t
  listFiles : ∀ c r scope t, s.listFiles c r scope (π t) = s'.listFiles c r scope t
  diagnose : ∀ c t, s.diagnose c (π t) = s'.diagnose c t
  acquireLock : ∀ d, Effect.Mirrors π (s'.acquireLock d) (s.acquireLock d)
  releaseLock : ∀ l t, s.releaseLock l (π t) = π (s'.releaseLock l t)

theorem Services.Mirrors.lookup {s' : Services τ} {s : Services σ} (h : Services.Mirrors π s' s)
    (c : ServerConfig) (t : τ) : s.lookup c (π t) = s'.lookup c t := by
  unfold Services.lookup
  rw [h.firstId, h.lastId]
  congr 1
  exact funext fun id => h.getBackup c id t

/-- A session with the part of its world that is seen. -/
def Session.seen (π : τ → σ) (session : Session τ) : Session σ := ⟨session.messages, π session.world⟩

@[simp] theorem Session.world_seen (session : Session τ) : (session.seen π).world = π session.world := rfl

namespace Run

/-- What the first part of a command does to what is seen of the world is what the second one does, with the
    same messages. -/
def Mirrors (π : τ → σ) (x' : Run τ α) (x : Run σ α) : Prop := Effect.Mirrors (Session.seen π) x' x

namespace Mirrors

/-! ## Steps -/

theorem say (ms : List Message) : Mirrors π (Run.say ms) (Run.say ms) := fun _ => rfl

theorem perform {op' : Operation τ α} {op : Operation σ α} (h : Effect.Mirrors π op' op) :
    Mirrors π (Run.perform op') (Run.perform op) := by
  intro session
  rw [perform_apply, perform_apply, Session.world_seen, h session.world]
  cases op' session.world <;> rfl

theorem ask {q' : Question τ α} {q : Question σ α} (h : ∀ t, q (π t) = q' t) :
    Mirrors π (Run.ask q') (Run.ask q) := by
  intro session
  rw [ask_apply, ask_apply, Session.world_seen, h]
  cases q' session.world <;> rfl

theorem bind {β : Type} {x' : Run τ α} {x : Run σ α} {k' : α → Run τ β} {k : α → Run σ β}
    (hx : Mirrors π x' x) (hk : ∀ a, Mirrors π (k' a) (k a)) : Mirrors π (x' >>= k') (x >>= k) :=
  Effect.Mirrors.bind hx hk

/-! ## Servers and backups -/

variable {f : Fleet} {act' : ServerConfig → Run τ Unit} {act : ServerConfig → Run σ Unit}

theorem forEachAdmitted {policy : Policy} (h : ∀ c, Mirrors π (act' c) (act c))
    (entries : List (String × Option ServerConfig)) :
    Mirrors π (forEachAdmitted policy act' entries) (forEachAdmitted policy act entries) := by
  induction entries with
  | nil => exact Effect.Mirrors.pure ()
  | cons e r ih =>
    obtain ⟨name, found⟩ := e
    cases found with
    | none => exact bind (say _) fun _ => ih
    | some c =>
      refine bind (say _) fun _ => ?_
      exact Effect.Mirrors.ite (bind (h c) fun _ => ih) (Effect.Mirrors.pure ())

theorem withTargets {request : Request} {o : ExpandOptions} {all' : Targets → Run τ Unit}
    {all : Targets → Run σ Unit} (h : ∀ targets, Mirrors π (all' targets) (all targets)) :
    Mirrors π (withTargets f request o all') (withTargets f request o all) := by
  refine bind (say _) fun _ => ?_
  split
  · exact h _
  · exact Effect.Mirrors.pure ()

theorem onTargets {names : List String} {o : ExpandOptions} {policy : Policy}
    (h : ∀ c, Mirrors π (act' c) (act c)) :
    Mirrors π (onTargets f names o policy act') (onTargets f names o policy act) :=
  withTargets fun targets => forEachAdmitted h targets.entries

theorem withServer {name : String} {policy : Policy} (h : ∀ c, Mirrors π (act' c) (act c)) :
    Mirrors π (withServer f name policy act') (withServer f name policy act) := by
  refine bind (say _) fun _ => ?_
  split
  · exact h _
  · exact say _
  · exact Effect.Mirrors.pure ()

variable {s' : Services τ} {s : Services σ}

theorem withBackup (hs : Services.Mirrors π s' s) {c : ServerConfig} {backup : String}
    {each' : Catalog.Record → Run τ Unit} {each : Catalog.Record → Run σ Unit}
    (h : ∀ r, Mirrors π (each' r) (each r)) :
    Mirrors π (withBackup s' c backup each') (withBackup s c backup each) := by
  refine bind (ask fun t => by rw [hs.lookup]) fun found => ?_
  cases found with
  | none => exact say _
  | some r => exact h r

/-! ## Commands -/

theorem holding (hs : Services.Mirrors π s' s) (l : Location) {x' : Run τ Unit} {x : Run σ Unit}
    (h : Mirrors π x' x) : Mirrors π (holding s' l x') (holding s l x) := by
  intro session
  unfold Run.holding
  rw [h session]
  cases x' session with
  | ok u t =>
    show EStateM.Result.ok () (Session.mk t.messages (s.releaseLock l (π t.world))) = _
    rw [hs.releaseLock]
    rfl
  | error e t =>
    show EStateM.Result.error e (Session.mk t.messages (s.releaseLock l (π t.world))) = _
    rw [hs.releaseLock]
    rfl

theorem cron (hs : Services.Mirrors π s' s) : Mirrors π (cron f s') (cron f s) := by
  refine bind (perform (hs.acquireLock _)) fun a => ?_
  cases a with
  | held l =>
    refine holding hs l (onTargets fun c => bind (perform (hs.cron c)) fun archived => ?_)
    exact Effect.Mirrors.ite (say _) (Effect.Mirrors.pure ())
  | busy => exact say _
  | denied path => exact say _

theorem recover (hs : Services.Mirrors π s' s) {zone : Time.Zone} {args : RecoverArgs} :
    Mirrors π (recover f s' zone args) (recover f s zone args) := by
  unfold Run.recover
  split
  · exact say _
  · refine withServer fun c => bind (ask fun t => by rw [hs.lookup]) fun found => ?_
    split
    · exact say _
    · split
      · exact say _
      · exact bind (say _) fun _ => bind (perform (hs.recover c _ _)) fun _ => say _

theorem checkEach (hs : Services.Mirrors π s' s) (entries : List (String × Option ServerConfig)) :
    Mirrors π (checkEach s' entries) (checkEach s entries) := by
  induction entries with
  | nil => exact Effect.Mirrors.pure ()
  | cons e r ih =>
    obtain ⟨name, found⟩ := e
    cases found with
    | none => exact bind (say _) fun _ => ih
    | some c => exact bind (ask (hs.check c)) fun _ => bind (say _) fun _ => ih

theorem diagnoseEach (hs : Services.Mirrors π s' s) (entries : List (String × Option ServerConfig)) :
    Mirrors π (diagnoseEach s' entries) (diagnoseEach s entries) := by
  induction entries with
  | nil => exact Effect.Mirrors.pure []
  | cons e r ih =>
    obtain ⟨name, found⟩ := e
    cases found with
    | none => exact ih
    | some c =>
      refine bind (ask (hs.diagnose c)) fun _ => bind ih fun _ => ?_
      exact Effect.Mirrors.pure _

end Mirrors

end Run

/-- **A command does the same with services that do and answer the same.** -/
theorem Command.run_mirrors {f : Fleet} {s' : Services τ} {s : Services σ}
    (hs : Services.Mirrors π s' s) (zone : Time.Zone) (command : Command) :
    Run.Mirrors π (command.run f s' zone) (command.run f s zone) := by
  cases command with
  | listServer minimal =>
    show Run.Mirrors π (Run.listServer f minimal) (Run.listServer f minimal)
    exact .withTargets fun targets => .say _
  | cron => exact .cron hs
  | backup names overrides =>
    exact .onTargets fun c => .bind (.say _) fun _ => .bind (.perform (hs.backup c _)) fun r => .say _
  | listBackup names minimal =>
    exact .onTargets fun c => .bind (.ask (hs.listBackups c)) fun _ => .say _
  | status names => exact .onTargets fun c => .bind (.ask (hs.status c)) fun _ => .say _
  | rebuildXlogdb names =>
    refine .onTargets fun c => .bind (.say _) fun _ => ?_
    exact .bind (.perform (hs.rebuildWalCatalog c)) fun count => .say _
  | recover args => exact .recover hs
  | showServer names => exact .onTargets fun c => .bind (.ask (hs.describe c)) fun _ => .say _
  | check names => exact .withTargets fun targets => .checkEach hs targets.entries
  | diagnose =>
    exact .bind (.say _) fun _ => .bind (.diagnoseEach hs _) fun _ => .say _
  | showBackup server id => exact .withServer fun c => .withBackup hs fun r => .say _
  | listFiles server id scope =>
    exact .withServer fun c => .withBackup hs fun r =>
      .bind (.ask (hs.listFiles c r scope)) fun _ => .say _
  | delete server id =>
    exact .withServer fun c => .withBackup hs fun r =>
      .bind (.say _) fun _ => .bind (.perform (hs.deleteBackup c r)) fun _ => .say _

/-- What comes of a command is the same, in the part of the world that is seen. -/
theorem Command.execute_mirrors {f : Fleet} {s' : Services τ} {s : Services σ}
    (hs : Services.Mirrors π s' s) (zone : Time.Zone) (command : Command) (t : τ) :
    command.execute f s zone (π t) = ⟨(command.execute f s' zone t).messages,
      π (command.execute f s' zone t).world, (command.execute f s' zone t).fault⟩ := by
  have hrun : command.run f s zone ⟨[], π t⟩ = seen (Session.seen π) (command.run f s' zone ⟨[], t⟩) :=
    command.run_mirrors hs zone ⟨[], t⟩
  rw [execute_eq, execute_eq, hrun]
  cases command.run f s' zone ⟨[], t⟩ <;> rfl

end BackupFleet
