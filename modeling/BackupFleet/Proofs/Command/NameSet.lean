import BackupFleet.Proofs.Command.Step
import BackupFleet.Proofs.Report.Verdict
import BackupFleet.Proofs.Target.Resolution
import BackupFleet.Storage.Services

/-!
# `BackupFleet.Proofs.Command.NameSet` — only the set of the names matters

Six commands take any number of names. They are given as a list, with an order and perhaps with repetitions,
and the commands go through a map that is made of it. So two lists of the same names make the same run: the
same messages in the same order, the same fault if there is one, and the same world afterwards, whatever the
services do, and however often and in which order a name is given. Nothing less than the set would do, since
a configuration without servers has every name of it reported.

## Contents

* `NamedCommand`, `NamedCommand.on` — the commands that are given names;
* `NamedCommand.exists_round` — they see their names through the targets only;
* `expandNamed_congr` — the targets of a set of names;
* `only_the_set_of_names_matters` — runs and sets of names.
-/

namespace BackupFleet

variable {σ : Type}

/-! ## Commands that are given names -/

/-- A command on many servers, before it is given names. -/
inductive NamedCommand where
  | backup (overrides : BackupOverrides)
  | listBackup (minimal : Bool)
  | status
  | rebuildXlogdb
  | showServer
  | check

/-- The command, given names. -/
def NamedCommand.on (names : List String) : NamedCommand → Command
  | backup overrides => .backup names overrides
  | listBackup minimal => .listBackup names minimal
  | status => .status names
  | rebuildXlogdb => .rebuildXlogdb names
  | showServer => .showServer names
  | check => .check names

/-- What is told of names of which none is configured. -/
def unknownMessages (names : List String) : List Message :=
  names.map fun name => .error (UserError.unknownServer name).message

/-- A walk through targets that reports an unknown one and goes on only reports where all are unknown. -/
theorem Run.reports_of_unknown {walk : List (String × Option ServerConfig) → Run σ Unit}
    (hnil : walk [] = pure ())
    (hunknown : ∀ name r, walk ((name, none) :: r) = do report (.unknownServer name); walk r)
    {entries : List (String × Option ServerConfig)} (h : ∀ e ∈ entries, e.2 = none) (session : Session σ) :
    walk entries session
      = .ok () { session with messages := session.messages ++ unknownMessages (entries.map (·.1)) } := by
  induction entries generalizing session with
  | nil => simp [hnil, unknownMessages]
  | cons e r ih =>
    obtain ⟨name, found⟩ := e
    obtain rfl : found = none := h _ List.mem_cons_self
    rw [hunknown, Effect.bind_apply, report_apply]
    refine (ih (fun e he => h e (List.mem_cons_of_mem _ he)) _).trans ?_
    simp [unknownMessages]

/-- **A command sees its names through the targets that they are expanded to.** Targets that are all unknown
    are reported, and nothing else is done. -/
theorem NamedCommand.exists_round (command : NamedCommand) (s : Services σ) :
    ∃ (o : ExpandOptions) (round : Targets → Run σ Unit),
      (∀ f zone names, (command.on names).run f s zone = Run.withTargets f (.ofNames names) o round) ∧
      ∀ targets : Targets, (∀ e ∈ targets.entries, e.2 = none) → ∀ session, round targets session
        = .ok () { session with messages := session.messages ++ unknownMessages targets.keys } := by
  -- A check walks with `checkEach`, the other commands with `forEachAdmitted`; both report alike.
  cases command <;>
    exact ⟨_, _, fun f zone names => rfl, fun targets h => Run.reports_of_unknown rfl (fun _ _ => rfl) h⟩

/-! ## The targets of a set of names -/

/-- **Lists of the same names have the same targets.** -/
theorem expandNamed_congr {names names' : List String} (h : ∀ name, name ∈ names ↔ name ∈ names')
    (f : Fleet) : expandNamed f names = expandNamed f names' := by
  refine OrderedMap.ext_get? fun name => Option.ext fun found => ?_
  rw [← OrderedMap.mem_entries_iff, ← OrderedMap.mem_entries_iff, mem_expandNamed, mem_expandNamed, h]

/-- An unknown name can be read off what is told of it. -/
theorem unknownMessages_injective : Function.Injective unknownMessages := by
  refine List.map_injective_iff.2 fun name name' h => ?_
  have htext : "Unknown server '" ++ name ++ "'" = "Unknown server '" ++ name' ++ "'" :=
    Message.error.inj h
  simpa using htext

/-! ## Runs -/

/-- A configuration without servers. -/
def noServers : Fleet := ⟨Settings.new "", [], []⟩

theorem NamedCommand.execute_on_noServers (command : NamedCommand) {names : List String}
    (hnamed : ¬RequestsAll names) (s : Services σ) (zone : Time.Zone) (w : σ) :
    (command.on names).execute noServers s zone w
      = ⟨unknownMessages (expandNamed noServers names).keys, w, none⟩ := by
  obtain ⟨o, round, hrun, hunknown⟩ := command.exists_round s
  have hnone : ∀ e ∈ (expandNamed noServers names).entries, e.2 = none :=
    fun e he => (mem_expandNamed.1 he).2.symm
  have hexpand : expand noServers (.named names) o = ([], some (expandNamed noServers names)) := by
    simp [expand, noServers, Fleet.conflictMessages]
  refine Command.execute_of_run ?_
  rw [hrun, Request.ofNames_of_named hnamed, Run.withTargets, hexpand]
  exact hunknown _ hnone ⟨[], w⟩

/-- **Two lists of names make the same runs of a command iff they have the same names**, in whatever order
    and however often. Neither list may be a request for all servers. -/
theorem only_the_set_of_names_matters (command : NamedCommand) {names names' : List String}
    (hnamed : ¬RequestsAll names) (hnamed' : ¬RequestsAll names') (s : Services σ) (w : σ) :
    (∀ name, name ∈ names ↔ name ∈ names') ↔
      ∀ (f : Fleet) (zone : Time.Zone),
        (command.on names).execute f s zone w = (command.on names').execute f s zone w := by
  constructor
  · intro h f zone
    obtain ⟨o, round, hrun, -⟩ := command.exists_round s
    have hexpand : expand f (.ofNames names) o = expand f (.ofNames names') o := by
      rw [Request.ofNames_of_named hnamed, Request.ofNames_of_named hnamed']
      simp only [expand, expandNamed_congr h]
    rw [Command.execute_eq, Command.execute_eq, hrun, hrun, Run.withTargets, Run.withTargets, hexpand]
  · intro h name
    have hkeys : (expandNamed noServers names).keys = (expandNamed noServers names').keys := by
      have hrun := h noServers .utc
      rw [command.execute_on_noServers hnamed, command.execute_on_noServers hnamed'] at hrun
      exact unknownMessages_injective (Execution.mk.inj hrun).1
    rw [← mem_keys_expandNamed (f := noServers), hkeys, mem_keys_expandNamed]

/-! ### A name that is given twice -/

namespace RepeatedName

def fleet : Fleet :=
  ⟨Settings.new "bman.conf", [ServerConfig.new "zoe" "srv", ServerConfig.new "ada" "srv"], []⟩

/-- No file is there yet. -/
def host : Host := ⟨⟨.empty, [], []⟩, fun _ => .ofUnix 0 0, 0, [], 1, 0, []⟩

end RepeatedName

open RepeatedName in
/-- The WAL catalog of a server that is named twice is written anew once, and in its turn. -/
theorem rebuild_of_repeated_name :
    ¬RequestsAll ["zoe", "ghost", "ada", "zoe"] ∧ ¬RequestsAll ["ada", "ghost", "zoe"] ∧
    (Command.rebuildXlogdb ["zoe", "ghost", "ada", "zoe"]).execute fleet (Storage.services .idle) .utc host
      = (Command.rebuildXlogdb ["ada", "ghost", "zoe"]).execute fleet (Storage.services .idle) .utc host ∧
    ((Command.rebuildXlogdb ["ada", "ghost", "zoe"]).execute fleet (Storage.services .idle) .utc
        host).messages
      = [.info "Rebuilding xlogdb for server ada",
        .info "Done rebuilding xlogdb for server ada (WAL files: 0)",
        .error "Unknown server 'ghost'",
        .info "Rebuilding xlogdb for server zoe",
        .info "Done rebuilding xlogdb for server zoe (WAL files: 0)"] := by
  have hsame : ∀ name, name ∈ ["zoe", "ghost", "ada", "zoe"] ↔ name ∈ ["ada", "ghost", "zoe"] := by
    intro name
    simp only [List.mem_cons, List.not_mem_nil, or_false]
    tauto
  refine ⟨by decide, by decide, ?_, by decide +kernel⟩
  exact (only_the_set_of_names_matters .rebuildXlogdb (by decide) (by decide) _ host).1 hsame fleet .utc

end BackupFleet
