import BackupFleet.Proofs.Command.Step

/-!
# `BackupFleet.Proofs.Command.Reach` — a command goes where its services go

Commands touch the world through services only, and only for servers of the fleet. So a relation between
worlds that a state has to itself and that adds up over steps holds between the worlds before and after a
command as soon as it does for every operation that the command may ask for, whatever the command
reports and wherever it stops.

## Contents

* `WorldWithin` — relations between worlds, for parts of a command;
* `mem_servers_of_expand`, `ready_of_resolveOne`, `mem_servers_of_resolveOne` — the servers that a command
  acts on;
* `WorldWithin.forEachAdmitted`, `WorldWithin.withServer` — one server after the other, and one server;
* `cron_within`, `rebuildXlogdb_within`, `run_within` — commands.
-/

namespace BackupFleet

open Effect

/-! ## The servers that a command acts on -/

theorem OrderedMap.mem_of_mem_ofList {β : Type} {l : List (String × β)} {e : String × β}
    (h : e ∈ (OrderedMap.ofList l).entries) : e ∈ l := by
  have hgen : ∀ (l : List (String × β)) (m : OrderedMap β),
      e ∈ (l.foldl (fun m e => m.insert e.1 e.2) m).entries → e ∈ l ∨ e ∈ m.entries := by
    intro l
    induction l with
    | nil => exact fun m h => .inr h
    | cons d r ih =>
      intro m h
      rcases ih (m.insert d.1 d.2) h with h | h
      · exact .inl (List.mem_cons_of_mem _ h)
      · rcases mem_insertEntry h with rfl | h
        · exact .inl List.mem_cons_self
        · exact .inr h
  rcases hgen l .empty h with h | h
  · exact h
  · cases h

theorem Fleet.mem_of_server? {f : Fleet} {name : String} {c : ServerConfig}
    (h : f.server? name = some c) : c ∈ f.servers :=
  List.mem_of_find?_eq_some h

/-- **A request is expanded to servers of the fleet.** -/
theorem mem_servers_of_expand {f : Fleet} {request : Request} {o : ExpandOptions} {targets : Targets}
    (h : (expand f request o).2 = some targets) {name : String} {c : ServerConfig}
    (hc : (name, some c) ∈ targets.entries) : c ∈ f.servers := by
  unfold expand at h
  dsimp only at h
  split at h
  · cases h
  · cases request with
    | all =>
      obtain rfl := Option.some.inj h
      obtain ⟨d, hd, he⟩ := List.mem_map.1 (OrderedMap.mem_of_mem_ofList hc)
      obtain rfl := Option.some.inj (Prod.ext_iff.1 he).2
      exact (List.mem_filter.1 hd).1
    | named names =>
      obtain rfl := Option.some.inj h
      obtain ⟨n, -, he⟩ := List.mem_map.1 (OrderedMap.mem_of_mem_ofList hc)
      exact Fleet.mem_of_server? (Prod.ext_iff.1 he).2

/-- **The server to act on is the one with the name, and the policy admits it.** -/
theorem ready_of_resolveOne {f : Fleet} {name : String} {policy : Policy} {ms : List Message}
    {c : ServerConfig} (h : resolveOne f name policy = (ms, .ready c)) :
    f.server? name = some c ∧ (classify c policy).admits = true := by
  unfold resolveOne at h
  split at h
  · cases h
  · cases hs : f.server? name with
    | none =>
      rw [hs] at h
      cases h
    | some d =>
      rw [hs] at h
      dsimp only at h
      split at h
      · rename_i hadmits
        obtain rfl := Single.ready.inj (Prod.mk.inj h).2
        exact ⟨rfl, hadmits⟩
      · cases (Prod.mk.inj h).2

theorem mem_servers_of_resolveOne {f : Fleet} {name : String} {policy : Policy} {ms : List Message}
    {c : ServerConfig} (h : resolveOne f name policy = (ms, .ready c)) : c ∈ f.servers :=
  Fleet.mem_of_server? (ready_of_resolveOne h).1

/-! ## Parts of a command -/

namespace Run

variable {σ α β : Type} {R : σ → σ → Prop}

/-- Whatever the session, its world after a part of a command is related to the one before. -/
def WorldWithin (R : σ → σ → Prop) (run : Run σ α) : Prop :=
  Within (fun a b : Session σ => R a.world b.world) run

theorem isReach_world (hR : IsReach R) : IsReach fun a b : Session σ => R a.world b.world where
  refl := fun session => hR.refl session.world
  trans := hR.trans

namespace WorldWithin

theorem pure (hR : IsReach R) (a : α) : WorldWithin R (Pure.pure a : Run σ α) :=
  Within.pure (isReach_world hR) a

theorem bind {run : Run σ α} {k : α → Run σ β} (hR : IsReach R) (h : WorldWithin R run)
    (hk : ∀ a, WorldWithin R (k a)) : WorldWithin R (run >>= k) :=
  Within.bind (isReach_world hR) h fun a _ session _ => hk a session

theorem say (hR : IsReach R) (ms : List Message) : WorldWithin R (say ms : Run σ Unit) :=
  fun session => hR.refl session.world

theorem info (hR : IsReach R) (text : String) : WorldWithin R (info text : Run σ Unit) :=
  say hR _

theorem report (hR : IsReach R) (e : UserError) : WorldWithin R (report e : Run σ Unit) :=
  say hR _

/-- A question changes nothing. -/
theorem ask (hR : IsReach R) (q : Question σ α) : WorldWithin R (ask q) := by
  intro session
  unfold after
  rw [ask_apply]
  cases q session.world <;> exact hR.refl session.world

/-- An operation does to the world what it does. -/
theorem perform {op : Operation σ α} (h : Within R op) : WorldWithin R (perform op) := by
  intro session
  have hw := h session.world
  unfold after at hw ⊢
  rw [perform_apply]
  cases ho : op session.world <;> rw [ho] at hw <;> exact hw

theorem ite {p : Prop} [Decidable p] {x y : Run σ α} (hx : WorldWithin R x) (hy : WorldWithin R y) :
    WorldWithin R (if p then x else y) :=
  Within.ite hx hy

/-- One server after the other. -/
theorem forEachAdmitted (hR : IsReach R) {policy : Policy} {act : ServerConfig → Run σ Unit}
    {entries : List (String × Option ServerConfig)}
    (h : ∀ name c, (name, some c) ∈ entries → WorldWithin R (act c)) :
    WorldWithin R (forEachAdmitted policy act entries) := by
  induction entries with
  | nil => exact pure hR ()
  | cons e r ih =>
    have hr := ih fun name c hc => h name c (List.mem_cons_of_mem _ hc)
    obtain ⟨name, found⟩ := e
    cases found with
    | none =>
      rw [Run.forEachAdmitted]
      exact bind hR (report hR _) fun _ => hr
    | some c =>
      rw [Run.forEachAdmitted]
      refine bind hR (say hR _) fun _ => ite ?_ (pure hR ())
      exact bind hR (h name c List.mem_cons_self) fun _ => hr

theorem withTargets (hR : IsReach R) {f : Fleet} {request : Request} {o : ExpandOptions}
    {act : Targets → Run σ Unit}
    (h : ∀ targets, (expand f request o).2 = some targets → WorldWithin R (act targets)) :
    WorldWithin R (withTargets f request o act) := by
  unfold Run.withTargets
  refine bind hR (say hR _) fun _ => ?_
  split
  · rename_i targets ht
    exact h targets ht
  · exact pure hR ()

theorem onTargets (hR : IsReach R) {f : Fleet} {names : List String} {o : ExpandOptions}
    {policy : Policy} {act : ServerConfig → Run σ Unit}
    (h : ∀ c ∈ f.servers, WorldWithin R (act c)) :
    WorldWithin R (onTargets f names o policy act) := by
  unfold Run.onTargets
  refine withTargets hR fun targets ht => forEachAdmitted hR fun name c hc => ?_
  exact h c (mem_servers_of_expand ht hc)

theorem withServer (hR : IsReach R) {f : Fleet} {name : String} {policy : Policy}
    {act : ServerConfig → Run σ Unit} (h : ∀ c ∈ f.servers, WorldWithin R (act c)) :
    WorldWithin R (withServer f name policy act) := by
  unfold Run.withServer
  generalize hr : resolveOne f name policy = resolved
  obtain ⟨messages, outcome⟩ := resolved
  refine bind hR (say hR messages) fun _ => ?_
  cases outcome with
  | ready c => exact h c (mem_servers_of_resolveOne hr)
  | unknown => exact report hR _
  | aborted => exact pure hR ()

theorem withBackup (hR : IsReach R) {s : Services σ} {c : ServerConfig} {backup : String}
    {act : Catalog.Record → Run σ Unit} (h : ∀ r, WorldWithin R (act r)) :
    WorldWithin R (withBackup s c backup act) := by
  unfold Run.withBackup findBackup
  refine bind hR (ask hR _) fun found => ?_
  cases found with
  | none => exact report hR _
  | some r => exact h r

end WorldWithin

/-! ## Commands -/

variable {f : Fleet} {s : Services σ}

theorem sweep_within (hR : IsReach R) (h : ∀ c ∈ f.servers, Within R (s.cron c)) :
    WorldWithin R (sweep f s) := by
  unfold sweep
  refine .onTargets hR fun c hc => .bind hR (.perform (h c hc)) fun archived => ?_
  exact .ite (.info hR _) (.pure hR ())

/-- What is done while a lock is held goes where it goes, and where letting the lock go leads. -/
theorem holding_within (hR : IsReach R) {run : Run σ Unit} (h : WorldWithin R run)
    (hrelease : ∀ l w, R w (s.releaseLock l w)) (l : Location) :
    WorldWithin R (holding s l run) := by
  intro session
  have hrun := h session
  unfold after at hrun ⊢
  unfold holding
  cases hs : run session with
  | ok u session' =>
    rw [hs] at hrun
    exact hR.trans hrun (hrelease l session'.world)
  | error e session' =>
    rw [hs] at hrun
    exact hR.trans hrun (hrelease l session'.world)

/-- **A maintenance sweep goes where archiving and the lock go.** -/
theorem cron_within (hR : IsReach R) (hcron : ∀ c ∈ f.servers, Within R (s.cron c))
    (hacquire : Within R (s.acquireLock f.lockDirectory)) (hrelease : ∀ l w, R w (s.releaseLock l w)) :
    WorldWithin R (cron f s) := by
  unfold cron
  refine .bind hR (.perform hacquire) fun a => ?_
  cases a with
  | held l => exact holding_within hR (sweep_within hR hcron) hrelease l
  | busy => exact .info hR _
  | denied path => exact .report hR _

/-- **A rebuild of catalogs goes where the rebuilds of single catalogs go.** -/
theorem rebuildXlogdb_within (hR : IsReach R) {names : List String}
    (h : ∀ c ∈ f.servers, Within R (s.rebuildWalCatalog c)) :
    WorldWithin R (rebuildXlogdb f s names) := by
  unfold rebuildXlogdb
  refine .onTargets hR fun c hc => .bind hR (.info hR _) fun _ => ?_
  exact .bind hR (.perform (h c hc)) fun count => .info hR _

theorem backup_within (hR : IsReach R) {names : List String} {o : BackupOverrides}
    (h : ∀ c ∈ f.servers, ∀ o, Within R (s.backup c o)) : WorldWithin R (backup f s names o) := by
  unfold backup
  refine .onTargets hR fun c hc => .bind hR (.info hR _) fun _ => ?_
  exact .bind hR (.perform (h c hc _)) fun r => .say hR _

theorem delete_within (hR : IsReach R) {server id : String}
    (h : ∀ c ∈ f.servers, ∀ r, Within R (s.deleteBackup c r)) :
    WorldWithin R (delete f s server id) := by
  unfold delete
  refine .withServer hR fun c hc => .withBackup hR fun r => .bind hR (.info hR _) fun _ => ?_
  exact .bind hR (.perform (h c hc r)) fun _ => .info hR _

theorem recover_within (hR : IsReach R) {zone : Time.Zone} {a : RecoverArgs}
    (h : ∀ c ∈ f.servers, ∀ r q, Within R (s.recover c r q)) :
    WorldWithin R (recover f s zone a) := by
  unfold recover
  split
  · exact .report hR _
  · refine .withServer hR fun c hc => ?_
    unfold findBackup
    refine .bind hR (.ask hR _) fun found => ?_
    split
    · exact .report hR _
    · rename_i r _
      split
      · exact .report hR _
      · refine .bind hR (.info hR _) fun _ => .bind hR (.perform (h c hc r _)) fun _ => .info hR _

theorem checkEach_within (hR : IsReach R) (entries : List (String × Option ServerConfig)) :
    WorldWithin R (checkEach s entries) := by
  induction entries with
  | nil => exact .pure hR ()
  | cons e r ih =>
    obtain ⟨name, found⟩ := e
    cases found with
    | none => exact .bind hR (.report hR _) fun _ => ih
    | some c => exact .bind hR (.ask hR _) fun _ => .bind hR (.say hR _) fun _ => ih

theorem diagnoseEach_within (hR : IsReach R) (entries : List (String × Option ServerConfig)) :
    WorldWithin R (diagnoseEach s entries) := by
  induction entries with
  | nil => exact .pure hR []
  | cons e r ih =>
    obtain ⟨name, found⟩ := e
    cases found with
    | none => exact ih
    | some c => exact .bind hR (.ask hR _) fun _ => .bind hR ih fun _ => .pure hR _

end Run

/-- A command that is not a sweep asks for no lock; so it goes where the other operations of the services
    go, and a sweep goes where it goes. -/
theorem Command.run_within_of_sweep {σ : Type} {R : σ → σ → Prop} (hR : IsReach R) {f : Fleet}
    {s : Services σ} (zone : Time.Zone)
    (hbackup : ∀ c ∈ f.servers, ∀ o, Within R (s.backup c o))
    (hrecover : ∀ c ∈ f.servers, ∀ r q, Within R (s.recover c r q))
    (hdelete : ∀ c ∈ f.servers, ∀ r, Within R (s.deleteBackup c r))
    (hrebuild : ∀ c ∈ f.servers, Within R (s.rebuildWalCatalog c))
    (hsweep : Run.WorldWithin R (Run.cron f s)) (command : Command) :
    Run.WorldWithin R (command.run f s zone) := by
  cases command with
  | listServer minimal =>
    show Run.WorldWithin R (Run.listServer f minimal)
    unfold Run.listServer
    exact .withTargets hR fun targets _ => .say hR _
  | cron => exact hsweep
  | backup names overrides => exact Run.backup_within hR hbackup
  | listBackup names minimal =>
    exact .onTargets hR fun c _ => .bind hR (.ask hR _) fun _ => .say hR _
  | status names =>
    exact .onTargets hR fun c _ => .bind hR (.ask hR _) fun _ => .say hR _
  | rebuildXlogdb names => exact Run.rebuildXlogdb_within hR hrebuild
  | recover args => exact Run.recover_within hR hrecover
  | showServer names =>
    exact .onTargets hR fun c _ => .bind hR (.ask hR _) fun _ => .say hR _
  | check names => exact .withTargets hR fun targets _ => Run.checkEach_within hR targets.entries
  | diagnose =>
    refine .bind hR (.say hR _) fun _ => .bind hR (Run.diagnoseEach_within hR _) fun _ => ?_
    exact .say hR _
  | showBackup server id =>
    exact .withServer hR fun c _ => .withBackup hR fun r => .say hR _
  | listFiles server id scope =>
    exact .withServer hR fun c _ => .withBackup hR fun r => .bind hR (.ask hR _) fun _ => .say hR _
  | delete server id => exact Run.delete_within hR hdelete

/-- **Every command goes where the operations of the services go**, for the servers of the fleet. -/
theorem Command.run_within {σ : Type} {R : σ → σ → Prop} (hR : IsReach R) {f : Fleet}
    {s : Services σ} (zone : Time.Zone)
    (hbackup : ∀ c ∈ f.servers, ∀ o, Within R (s.backup c o))
    (hrecover : ∀ c ∈ f.servers, ∀ r q, Within R (s.recover c r q))
    (hdelete : ∀ c ∈ f.servers, ∀ r, Within R (s.deleteBackup c r))
    (hrebuild : ∀ c ∈ f.servers, Within R (s.rebuildWalCatalog c))
    (hcron : ∀ c ∈ f.servers, Within R (s.cron c))
    (hacquire : Within R (s.acquireLock f.lockDirectory))
    (hrelease : ∀ l w, R w (s.releaseLock l w)) (command : Command) :
    Run.WorldWithin R (command.run f s zone) :=
  command.run_within_of_sweep hR zone hbackup hrecover hdelete hrebuild
    (Run.cron_within hR hcron hacquire hrelease)

/-- The world that a command leaves, however it ends. -/
theorem Command.world_execute {σ : Type} (f : Fleet) (s : Services σ) (zone : Time.Zone)
    (command : Command) (world : σ) :
    (command.execute f s zone world).world = (after (command.run f s zone) ⟨[], world⟩).world := by
  unfold Command.execute after
  cases command.run f s zone ⟨[], world⟩ <;> rfl

end BackupFleet
