import BackupFleet.Proofs.Command.Step
import BackupFleet.Proofs.Target.Resolution

/-!
# `BackupFleet.Proofs.Command.OneName` — one name, by either path

A command on one backup looks its server up with `resolveOne`; a command on many servers expands its names
and admits one target after the other. The two are written apart: one classifies a server where it finds
it, the other only when its turn comes, and they report an unknown name in different places. For a request
of one name, nothing of this can be noticed.

What a name comes to is said here of a configuration that is known only by its answers, since neither path
sees more of it than its conflicts and the server with the name.

## Contents

* `Provider`, `Fleet.provider`, `Fleet.Answers` — configurations, known by their answers;
* `Fate`, `Provider.Decides` — what becomes of a name, and what is told of it;
* `withServer_of_decides`, `onTargets_of_decides` — the two paths;
* `one_name_by_either_path` — they agree.
-/

namespace BackupFleet

variable {σ : Type}

/-! ## Configurations, known by their answers -/

/-- A configuration that is asked for its conflicts, and for servers by their names. A server that it finds
    has the name that was asked for. -/
structure Provider where
  conflicts : List String
  server? : String → Option ServerConfig
  named : ∀ {name : String} {c : ServerConfig}, server? name = some c → c.name = name

/-- What a fleet answers. -/
def Fleet.provider (f : Fleet) : Provider := ⟨f.conflicts, f.server?, name_of_server?⟩

/-- The fleet answers as the provider does, if it is asked for one name. -/
structure Fleet.Answers (f : Fleet) (p : Provider) (name : String) : Prop where
  conflicts : f.conflicts = p.conflicts
  server? : f.server? name = p.server? name

/-- Whatever a provider answers on a name, some fleet answers it. -/
theorem Provider.exists_answers (p : Provider) (name : String) : ∃ f : Fleet, f.Answers p name := by
  cases hs : p.server? name with
  | none => exact ⟨⟨Settings.new "", [], p.conflicts⟩, rfl, hs.symm⟩
  | some c =>
    refine ⟨⟨Settings.new "", [c], p.conflicts⟩, rfl, ?_⟩
    simp [Fleet.server?, p.named hs, hs]

/-! ## What becomes of a name -/

/-- The server with the name is acted on, the name is unknown, or the command stops. -/
inductive Fate where
  | proceed (c : ServerConfig)
  | unknown
  | stop

/-- What is left to do. -/
def Fate.goOn (act : ServerConfig → Run σ Unit) : Fate → Run σ Unit
  | proceed c => act c
  | unknown | stop => pure ()

/-- What a policy makes of a name, and what is told of it: conflicts come first, then whether there is a
    server with the name, and then what the policy says of this server. -/
inductive Provider.Decides (p : Provider) (name : String) (policy : Policy) : List Message → Fate → Prop
  | conflicted (hc : p.conflicts ≠ []) : p.Decides name policy (p.conflicts.map .error) .stop
  | unknown (hc : p.conflicts = []) (hs : p.server? name = none) :
      p.Decides name policy [.error (UserError.unknownServer name).message] .unknown
  | refused {c : ServerConfig} (hc : p.conflicts = []) (hs : p.server? name = some c)
      (hv : (classify c policy).admits = false) :
      p.Decides name policy (classify c policy).messages .stop
  | admitted {c : ServerConfig} (hc : p.conflicts = []) (hs : p.server? name = some c)
      (hv : (classify c policy).admits = true) :
      p.Decides name policy (classify c policy).messages (.proceed c)

/-- Of every name something becomes. -/
theorem Provider.exists_decides (p : Provider) (name : String) (policy : Policy) :
    ∃ told fate, p.Decides name policy told fate := by
  by_cases hc : p.conflicts = []
  · cases hs : p.server? name with
    | none => exact ⟨_, _, .unknown hc hs⟩
    | some c =>
      cases hv : (classify c policy).admits with
      | false => exact ⟨_, _, .refused hc hs hv⟩
      | true => exact ⟨_, _, .admitted hc hs hv⟩
  · exact ⟨_, _, .conflicted hc⟩

/-! ## The two paths -/

namespace Run

variable {f : Fleet} {p : Provider} {name : String} {policy : Policy} {told : List Message} {fate : Fate}

/-- A look-up of one server tells what is decided, and goes on as is decided. -/
theorem withServer_of_decides (hf : f.Answers p name) (h : p.Decides name policy told fate)
    (act : ServerConfig → Run σ Unit) (session : Session σ) :
    withServer f name policy act session
      = fate.goOn act { session with messages := session.messages ++ told } := by
  cases h with
  | conflicted hc =>
    rw [withServer_of_conflicts (hf.conflicts ▸ hc), hf.conflicts]
    rfl
  | unknown hc hs =>
    rw [withServer_of_unknown (hf.conflicts.trans hc) (hf.server?.trans hs)]
    rfl
  | refused hc hs hv =>
    rw [withServer_of_found (hf.conflicts.trans hc) (hf.server?.trans hs), hv]
    rfl
  | admitted hc hs hv =>
    rw [withServer_of_found (hf.conflicts.trans hc) (hf.server?.trans hs), if_pos hv]
    rfl

/-- The targets of one name are this name. -/
theorem onTargets_one (hname : name ≠ "all") (act : ServerConfig → Run σ Unit) :
    onTargets f [name] {} policy act =
      if f.conflicts ≠ [] then say f.conflictMessages
      else forEachAdmitted policy act [(name, f.server? name)] := by
  have hnamed : ¬RequestsAll [name] := by simpa [RequestsAll] using hname
  unfold onTargets withTargets expand
  rw [Request.ofNames_of_named hnamed]
  funext session
  by_cases hc : f.conflicts = []
  · have hreported : f.conflictMessages = [] := by rw [Fleet.conflictMessages, hc, List.map_nil]
    rw [if_neg fun h => h.1 hc, if_neg (not_not_intro hc), hreported]
    simp only [Effect.bind_apply, say_apply, Bool.false_eq_true, if_false, List.append_nil]
    rfl
  · rw [if_pos ⟨hc, rfl⟩, if_pos hc]
    rfl

/-- A round of one name tells what is decided, and goes on as is decided. -/
theorem onTargets_of_decides (hf : f.Answers p name) (hname : name ≠ "all")
    (h : p.Decides name policy told fate) (act : ServerConfig → Run σ Unit) (session : Session σ) :
    onTargets f [name] {} policy act session
      = fate.goOn act { session with messages := session.messages ++ told } := by
  rw [onTargets_one hname]
  cases h with
  | conflicted hc =>
    rw [if_pos (hf.conflicts ▸ hc), Fleet.conflictMessages, hf.conflicts]
    rfl
  | unknown hc hs =>
    rw [if_neg (not_not_intro (hf.conflicts.trans hc)), hf.server?, hs]
    rfl
  | refused hc hs hv =>
    rw [if_neg (not_not_intro (hf.conflicts.trans hc)), hf.server?, hs, forEachAdmitted]
    simp only [Effect.bind_apply, say_apply, hv]
    rfl
  | admitted hc hs hv =>
    rw [if_neg (not_not_intro (hf.conflicts.trans hc)), hf.server?, hs, forEachAdmitted]
    simp only [Effect.bind_apply, say_apply, if_pos hv, forEachAdmitted, Fate.goOn]
    -- After this name, no other one is left.
    cases act _ { session with messages := session.messages ++ (classify _ policy).messages } <;> rfl

end Run

/-! ## One name -/

/-- **For one name, it does not matter which path a command takes.** Whatever a configuration answers, some
    messages and a fate are decided for a name other than `all` under a policy: the conflicts and a stop, an
    unknown name and a report of it, or the reasons of the policy and either a stop or the server. A look-up
    of one server and a round of one name both add exactly these messages to what was told before, and both
    go on with exactly this fate. -/
theorem one_name_by_either_path (p : Provider) {name : String} (hname : name ≠ "all") (policy : Policy) :
    (∃ f : Fleet, f.Answers p name) ∧
    ∃ told fate, p.Decides name policy told fate ∧
      ∀ f : Fleet, f.Answers p name →
        ∀ {σ : Type} (act : ServerConfig → Run σ Unit) (session : Session σ),
          Run.withServer f name policy act session
            = fate.goOn act { session with messages := session.messages ++ told } ∧
          Run.onTargets f [name] {} policy act session
            = fate.goOn act { session with messages := session.messages ++ told } := by
  obtain ⟨told, fate, h⟩ := p.exists_decides name policy
  refine ⟨p.exists_answers name, told, fate, h, fun f hf σ act session => ⟨?_, ?_⟩⟩
  · exact Run.withServer_of_decides hf h act session
  · exact Run.onTargets_of_decides hf hname h act session

/-! ### An inactive server, of which a policy only warns -/

namespace InactiveServer

def fleet : Fleet :=
  ⟨Settings.new "bman.conf", [{ ServerConfig.new "max" "srv" with active := false }], []⟩

/-- The name of the server told. -/
def tellName (c : ServerConfig) : Run Unit Unit := Run.info c.name

end InactiveServer

open InactiveServer in
/-- Both paths warn of the server, and act on it. -/
theorem inactive_server_by_either_path :
    "max" ≠ "all" ∧ fleet.Answers fleet.provider "max" ∧
    (∃ told fate, fleet.provider.Decides "max" .warn told fate ∧
      Run.withServer fleet "max" .warn tellName ⟨[], ()⟩ = fate.goOn tellName ⟨[] ++ told, ()⟩ ∧
      Run.onTargets fleet ["max"] {} .warn tellName ⟨[], ()⟩ = fate.goOn tellName ⟨[] ++ told, ()⟩) ∧
    Run.onTargets fleet ["max"] {} .warn tellName ⟨[], ()⟩
      = .ok () ⟨[.warning "Not active server: max", .info "max"], ()⟩ := by
  have hanswers : fleet.Answers fleet.provider "max" := ⟨rfl, rfl⟩
  have hname : "max" ≠ "all" := by decide
  obtain ⟨-, told, fate, h, hpaths⟩ := one_name_by_either_path fleet.provider hname .warn
  exact ⟨hname, hanswers, ⟨told, fate, h, hpaths fleet hanswers tellName ⟨[], ()⟩⟩, rfl⟩

end BackupFleet
