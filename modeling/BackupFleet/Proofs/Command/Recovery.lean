import BackupFleet.Proofs.Command.Step
import BackupFleet.Proofs.Recovery.Rules
import BackupFleet.Proofs.Server.Trace

/-!
# `BackupFleet.Proofs.Command.Recovery` — when a recovery reaches its server

A recovery is checked in eight steps, the cheapest first, and only a request that passes all of them is
handed to the server. Each check is described on its own here (`RecoverCheck.complaints`): what it finds
wrong does not depend on what the others find. `Recoverable` says that nothing is wrong, `Requested` what
the server is then asked for.

Main statement: `recover_handed_over_or_refused` — either all checks pass and the server is asked exactly
once, or nothing is asked of any service, the world stays as it is, and the complaints of the first check
that fails are all that is reported.

## Contents

* `RecoverCheck`, `complaints`, `firstComplaints` — the checks and their order;
* `Recoverable`, `Requested` — what a recovery needs, and what it asks for.
-/

namespace BackupFleet

/-! ## The checks of a recovery -/

section Checks

variable {σ : Type} (f : Fleet) (s : Services σ) (zone : Time.Zone) (a : RecoverArgs) (world : σ)

/-- What a recovery is checked for, in the order of the checks. -/
inductive RecoverCheck where
  | destination
  | stop
  | rules
  | conflicts
  | server
  | state
  | backup
  | names
deriving DecidableEq, Repr

/-- The order of the checks. -/
def RecoverCheck.inOrder : List RecoverCheck :=
  [.destination, .stop, .rules, .conflicts, .server, .state, .backup, .names]

/-- The backup that is meant, on the server that is meant, as far as the catalog can be read. -/
def RecoverArgs.backupOn (c : ServerConfig) : Except Fault (Option Catalog.Record) :=
  (Catalog.Identifier.read a.backup).resolve (s.lookup c world)

/-- What a check finds wrong, whatever the others find. -/
def RecoverCheck.complaints : RecoverCheck → List Message
  | destination =>
    if ':' ∈ a.destination.toList then [.error UserError.remoteDestination.message] else []
  | stop => match a.target.read zone with
    | .ok _ => []
    | .error p => [.error p.toUserError.message]
  | rules => match Recovery.readRules a.rules with
    | .ok _ => []
    | .error e => [.error e.message]
  | conflicts => f.conflicts.map .error
  | server =>
    if f.server? a.server = none then [.error (UserError.unknownServer a.server).message] else []
  | state => match f.server? a.server with
    | none => []
    | some c =>
      -- Of a disabled server it is not told that it is inactive too.
      if c.disabled then c.problems.map .error
      else if c.active then []
      else [.error (UserError.inactiveServer c.name).message]
  | backup => match f.server? a.server with
    | none => []
    | some c => match a.backupOn s world c with
      | .error _ => []
      | .ok found =>
        if (found.filter (·.status = .done)).isSome then []
        else [.error (UserError.unknownBackup a.server a.backup).message]
  | names => match f.server? a.server, Recovery.readRules a.rules with
    | some c, .ok m => match a.backupOn s world c with
      | .ok (some r) => match Recovery.checkNames m r.tablespaceNames with
        | .ok () => []
        | .error e => [.error e.message]
      | _ => []
    | _, _ => []

/-- The first of several lists of messages that says anything. -/
def firstSaid : List (List Message) → List Message
  | [] => []
  | ms :: r => if ms = [] then firstSaid r else ms

/-- The complaints of the first check that fails. -/
def RecoverArgs.firstComplaints : List Message :=
  firstSaid (RecoverCheck.inOrder.map (RecoverCheck.complaints f s zone a world))

/-- Why the catalog cannot be read, if it cannot. -/
def RecoverArgs.catalogFault : Option Fault := do
  let c ← f.server? a.server
  match a.backupOn s world c with
  | .error e => some e
  | .ok _ => none

/-- Every check passes: the request can go to server `c` for backup `r`, up to the point `t`. -/
structure Recoverable (c : ServerConfig) (r : Catalog.Record) (t : Recovery.Target) : Prop where
  isLocal : ':' ∉ a.destination.toList
  stop : a.target.read zone = .ok t
  rules : ∃ m, Recovery.readRules a.rules = .ok m
  noConflicts : f.conflicts = []
  configured : f.server? a.server = some c
  enabled : c.disabled = false
  active : c.active = true
  found : a.backupOn s world c = .ok (some r)
  complete : r.status = .done
  known : ∀ rule ∈ a.rules, ∀ name location, Recovery.splitRule rule = some (name, location) →
    name ∈ r.tablespaceNames

/-- What a server is asked for: the destination, the last location given for each name, the point to stop
    at, the remote command, and the retries that the user wants or else the configuration. -/
structure Requested (c : ServerConfig) (t : Recovery.Target) (q : RecoveryRequest) : Prop where
  destination : q.destination = a.destination
  relocations : ∀ name, q.relocations.get? name = Recovery.lastLocation a.rules name
  target : q.target = t
  remoteCommand : q.remoteCommand = a.remoteCommand
  retryTimes : q.retryTimes = a.retryTimes.getD c.retryTimes
  retrySleep : q.retrySleep = a.retrySleep.getD c.retrySleep

end Checks

/-! ## One check after the other -/

section Stages

variable {σ : Type} {f : Fleet} {s : Services σ} {zone : Time.Zone} {a : RecoverArgs} {world : σ}

/-- A destination that is not local is the first complaint. -/
theorem checkArgs_of_remote (h : ':' ∈ a.destination.toList) :
    Run.checkArgs zone a = .error .remoteDestination := by
  simp [Run.checkArgs, Recovery.checkDestination, h, bind, Except.bind]

/-- With a local destination, a point to stop at that cannot be read is. -/
theorem checkArgs_of_badStop {p : Recovery.TargetProblem} (hd : ':' ∉ a.destination.toList)
    (h : a.target.read zone = .error p) : Run.checkArgs zone a = .error p.toUserError := by
  simp [Run.checkArgs, Recovery.checkDestination, hd, h, bind, Except.bind]

/-- After that, the first malformed rule is. -/
theorem checkArgs_of_badRules {t : Recovery.Target} {e : UserError}
    (hd : ':' ∉ a.destination.toList) (ht : a.target.read zone = .ok t)
    (h : Recovery.readRules a.rules = .error e) : Run.checkArgs zone a = .error e := by
  simp [Run.checkArgs, Recovery.checkDestination, hd, ht, h, bind, Except.bind]

theorem checkArgs_of_ok {t : Recovery.Target} {m : Recovery.Relocations}
    (hd : ':' ∉ a.destination.toList) (ht : a.target.read zone = .ok t)
    (h : Recovery.readRules a.rules = .ok m) : Run.checkArgs zone a = .ok (t, m) := by
  simp [Run.checkArgs, Recovery.checkDestination, hd, ht, h, bind, Except.bind, pure, Except.pure]

/-- What a recovery does on a server that was admitted, with the arguments read. -/
def Run.recoverOn (s : Services σ) (a : RecoverArgs) (t : Recovery.Target) (m : Recovery.Relocations)
    (c : ServerConfig) : Run σ Unit := do
  match (← findBackup s c a.backup).filter (·.status = .done) with
  | none => report (.unknownBackup a.server a.backup)
  | some r =>
    match Recovery.checkNames m r.tablespaceNames with
    | .error e => report e
    | .ok () =>
      info ("Starting recovery of backup " ++ r.id ++ " for server " ++ c.name ++ " into " ++
        a.destination)
      perform (s.recover c r (recoveryRequest c a t m))
      info "Recovery completed"

/-- The arguments are checked first, and only then the server is looked up. -/
theorem Run.recover_eq (f : Fleet) (s : Services σ) (zone : Time.Zone) (a : RecoverArgs) :
    Run.recover f s zone a = match checkArgs zone a with
      | .error e => report e
      | .ok (t, m) => withServer f a.server .blocking (recoverOn s a t m) := rfl

/-- A catalog that cannot be read ends the command. -/
theorem Run.recoverOn_of_fault {t : Recovery.Target} {m : Recovery.Relocations} {c : ServerConfig}
    {e : Fault} (session : Session σ) (h : a.backupOn s session.world c = .error e) :
    recoverOn s a t m c session = .error e session := by
  unfold RecoverArgs.backupOn at h
  unfold recoverOn findBackup
  rw [Effect.bind_apply, Run.ask_apply, h]

/-- A backup that is missing or not complete is reported. -/
theorem Run.recoverOn_of_unfit {t : Recovery.Target} {m : Recovery.Relocations} {c : ServerConfig}
    {found : Option Catalog.Record} (session : Session σ)
    (h : a.backupOn s session.world c = .ok found) (hf : found.filter (·.status = .done) = none) :
    recoverOn s a t m c session
      = .ok () { session with messages := session.messages ++
          [.error (UserError.unknownBackup a.server a.backup).message] } := by
  unfold RecoverArgs.backupOn at h
  unfold recoverOn findBackup
  rw [Effect.bind_apply, Run.ask_apply, h]
  simp only [hf]
  rfl

/-- A rule for a tablespace that the backup does not have is reported. -/
theorem Run.recoverOn_of_badName {t : Recovery.Target} {m : Recovery.Relocations} {c : ServerConfig}
    {r : Catalog.Record} {e : UserError} (session : Session σ)
    (h : a.backupOn s session.world c = .ok (some r)) (hr : r.status = .done)
    (hn : Recovery.checkNames m r.tablespaceNames = .error e) :
    recoverOn s a t m c session
      = .ok () { session with messages := session.messages ++ [.error e.message] } := by
  unfold RecoverArgs.backupOn at h
  unfold recoverOn findBackup
  rw [Effect.bind_apply, Run.ask_apply, h]
  simp only [Option.filter, hr, decide_true, if_true, hn]
  rfl

/-- With all checks passed, the server is asked. -/
theorem Run.recoverOn_of_ready {t : Recovery.Target} {m : Recovery.Relocations} {c : ServerConfig}
    {r : Catalog.Record} {session : Session σ}
    (h : a.backupOn s session.world c = .ok (some r)) (hr : r.status = .done)
    (hn : Recovery.checkNames m r.tablespaceNames = .ok ()) :
    recoverOn s a t m c session
      = (do
          info ("Starting recovery of backup " ++ r.id ++ " for server " ++ c.name ++ " into " ++
            a.destination)
          perform (s.recover c r (recoveryRequest c a t m))
          info "Recovery completed" : Run σ Unit) session := by
  unfold RecoverArgs.backupOn at h
  unfold recoverOn findBackup
  rw [Effect.bind_apply, Run.ask_apply, h]
  simp only [Option.filter, hr, decide_true, if_true, hn]

/-- With all checks passed, the only call that is noted is that of the recovery. -/
theorem calls_of_ready {t : Recovery.Target} {m : Recovery.Relocations} {c : ServerConfig}
    {r : Catalog.Record} (hargs : Run.checkArgs zone a = .ok (t, m)) (hc : f.conflicts = [])
    (hs : f.server? a.server = some c) (he : c.disabled = false) (ha : c.active = true)
    (h : a.backupOn s world c = .ok (some r)) (hr : r.status = .done)
    (hn : Recovery.checkNames m r.tablespaceNames = .ok ()) :
    (Command.execute f s.traced zone (.recover a) (world, [])).world.2
      = [.recover c r (Run.recoveryRequest c a t m)] := by
  have hrun : Run.recover f s.traced zone a ⟨[], (world, [])⟩
      = Run.recoverOn s.traced a t m c ⟨[], (world, [])⟩ := by
    rw [Run.recover_eq, hargs]
    show Run.withServer f a.server .blocking _ _ = _
    rw [Run.withServer_of_found hc hs, classify_of_ready he ha]
    rfl
  have hready : a.backupOn s.traced (world, []) c = .ok (some r) := h
  rw [Command.execute_eq]
  show (Execution.ofResult (Run.recover f s.traced zone a ⟨[], (world, [])⟩)).world.2 = _
  rw [hrun, Run.recoverOn_of_ready hready hr hn, Effect.bind_apply, Run.info_apply]
  simp only [Effect.bind_apply, Run.perform_apply, Services.traced, Operation.noting_apply]
  cases s.recover c r (Run.recoveryRequest c a t m) world <;> rfl

/-! ## What is reported otherwise -/

/-- The execution in which nothing was done: `messages` were reported, and then `fault` ended it. -/
def Execution.idle (world : σ) (messages : List Message) (fault : Option Fault) : Execution σ :=
  ⟨messages, world, fault⟩

/-- Arguments that cannot be read are all that is reported. -/
theorem execute_recover_of_badArgs {e : UserError} (h : Run.checkArgs zone a = .error e) :
    Command.execute f s zone (.recover a) world = .idle world [.error e.message] none := by
  rw [Command.execute_eq]
  show Execution.ofResult (Run.recover f s zone a ⟨[], world⟩) = _
  rw [Run.recover_eq, h]
  rfl

/-- With the arguments read, what comes of a recovery is decided at its server. -/
theorem execute_recover_of_args {t : Recovery.Target} {m : Recovery.Relocations}
    (h : Run.checkArgs zone a = .ok (t, m)) :
    Command.execute f s zone (.recover a) world
      = .ofResult (Run.withServer f a.server .blocking (Run.recoverOn s a t m) ⟨[], world⟩) := by
  rw [Command.execute_eq]
  show Execution.ofResult (Run.recover f s zone a ⟨[], world⟩) = _
  rw [Run.recover_eq, h]

/-- What the first three checks say decides whether the arguments can be read. -/
theorem checkArgs_cases (f : Fleet) (s : Services σ) (zone : Time.Zone) (a : RecoverArgs)
    (world : σ) :
    (∃ e, Run.checkArgs zone a = .error e ∧
      a.firstComplaints f s zone world = [.error e.message] ∧
      ∀ c r t, ¬Recoverable f s zone a world c r t) ∨
    (∃ t m, Run.checkArgs zone a = .ok (t, m) ∧ ':' ∉ a.destination.toList ∧
      a.target.read zone = .ok t ∧ Recovery.readRules a.rules = .ok m ∧
      a.firstComplaints f s zone world
        = firstSaid ([.conflicts, .server, .state, .backup, .names].map
            (RecoverCheck.complaints f s zone a world))) := by
  by_cases hd : ':' ∈ a.destination.toList
  · refine .inl ⟨_, checkArgs_of_remote hd, ?_, fun c r t h => h.isLocal hd⟩
    simp [RecoverArgs.firstComplaints, RecoverCheck.inOrder, firstSaid, RecoverCheck.complaints, hd]
  cases ht : a.target.read zone with
  | error p =>
    refine .inl ⟨_, checkArgs_of_badStop hd ht, ?_, fun c r t h => ?_⟩
    · simp [RecoverArgs.firstComplaints, RecoverCheck.inOrder, firstSaid, RecoverCheck.complaints, hd,
        ht]
    · have := h.stop
      rw [ht] at this
      cases this
  | ok t =>
    cases hm : Recovery.readRules a.rules with
    | error e =>
      refine .inl ⟨_, checkArgs_of_badRules hd ht hm, ?_, fun c r t h => ?_⟩
      · simp [RecoverArgs.firstComplaints, RecoverCheck.inOrder, firstSaid, RecoverCheck.complaints,
          hd, ht, hm]
      · obtain ⟨m, h⟩ := h.rules
        rw [hm] at h
        cases h
    | ok m =>
      refine .inr ⟨t, m, checkArgs_of_ok hd ht hm, hd, rfl, rfl, ?_⟩
      simp [RecoverArgs.firstComplaints, RecoverCheck.inOrder, firstSaid, RecoverCheck.complaints, hd,
        ht, hm]

/-- A request that some check refuses changes nothing, and the first refusal is all that is told. -/
theorem execute_recover_of_refused (h : ∀ c r t, ¬Recoverable f s zone a world c r t) :
    Command.execute f s zone (.recover a) world
      = .idle world (a.firstComplaints f s zone world)
          (if a.firstComplaints f s zone world = [] then a.catalogFault f s world else none) := by
  rcases checkArgs_cases f s zone a world with
    ⟨e, hargs, hsaid, -⟩ | ⟨t, m, hargs, hd, ht, hm, hsaid⟩
  · rw [execute_recover_of_badArgs hargs, hsaid]
    rfl
  rw [execute_recover_of_args hargs, hsaid]
  by_cases hc : f.conflicts ≠ []
  · rw [Run.withServer_of_conflicts hc]
    simp [firstSaid, RecoverCheck.complaints, hc, Execution.ofResult, Execution.idle]
  have hc : f.conflicts = [] := by simpa using hc
  cases hs : f.server? a.server with
  | none =>
    rw [Run.withServer_of_unknown hc hs]
    simp [firstSaid, RecoverCheck.complaints, hc, hs, Execution.ofResult, Execution.idle]
  | some c =>
    rw [Run.withServer_of_found hc hs]
    by_cases he : c.disabled = true
    · have hp : c.problems ≠ [] := by simpa [ServerConfig.disabled] using he
      simp [classify_of_disabled he, Verdict.admits, Verdict.messages, firstSaid,
        RecoverCheck.complaints, hc, hs, he, hp, Execution.ofResult, Execution.idle]
    have he : c.disabled = false := by simpa using he
    by_cases ha : c.active = false
    · simp [classify_of_inactive he ha, Verdict.admits, Verdict.messages, firstSaid,
        RecoverCheck.complaints, hc, hs, he, ha, Execution.ofResult, Execution.idle]
    have ha : c.active = true := by simpa using ha
    rw [classify_of_ready he ha]
    show Execution.ofResult (Run.recoverOn s a t m c ⟨[], world⟩) = _
    cases hb : a.backupOn s world c with
    | error e =>
      rw [Run.recoverOn_of_fault ⟨[], world⟩ hb]
      simp [firstSaid, RecoverCheck.complaints, RecoverArgs.catalogFault, hc, hs, he, ha, hm, hb,
        Execution.ofResult, Execution.idle]
    | ok found =>
      cases hf : found.filter (·.status = .done) with
      | none =>
        rw [Run.recoverOn_of_unfit ⟨[], world⟩ hb hf]
        simp [firstSaid, RecoverCheck.complaints, hc, hs, he, ha, hb, hf, Execution.ofResult,
          Execution.idle]
      | some r =>
        obtain ⟨rfl, hr⟩ := Option.filter_eq_some_iff.1 hf
        have hr : r.status = .done := by simpa using hr
        cases hn : Recovery.checkNames m r.tablespaceNames with
        | error e =>
          rw [Run.recoverOn_of_badName ⟨[], world⟩ hb hr hn]
          simp [firstSaid, RecoverCheck.complaints, hc, hs, he, ha, hb, hm, hr, hn,
            Execution.ofResult, Execution.idle]
        | ok u =>
          exact absurd ⟨hd, ht, ⟨m, hm⟩, hc, hs, he, ha, hb, hr,
            (Recovery.checkNames_eq_ok_iff hm).1 hn⟩ (h c r t)

theorem firstSaid_eq_nil_iff {l : List (List Message)} : firstSaid l = [] ↔ ∀ ms ∈ l, ms = [] := by
  induction l with
  | nil => simp [firstSaid]
  | cons ms r ih =>
    rw [firstSaid]
    by_cases h : ms = []
    · simp [h, ih]
    · simp [h]

/-- Where no check complains and the catalog can be read, nothing stands in the way. -/
theorem recoverable_of_no_complaints (hq : a.firstComplaints f s zone world = [])
    (hread : a.catalogFault f s world = none) : ∃ c r t, Recoverable f s zone a world c r t := by
  rcases checkArgs_cases f s zone a world with
    ⟨e, -, hsaid, -⟩ | ⟨t, m, -, hd, ht, hm, hsaid⟩
  · rw [hsaid] at hq
    cases hq
  rw [hsaid, firstSaid_eq_nil_iff] at hq
  simp only [List.map_cons, List.map_nil, List.forall_mem_cons] at hq
  obtain ⟨hconflicts, hserver, hstate, hbackup, hnames, -⟩ := hq
  have hc : f.conflicts = [] := by simpa [RecoverCheck.complaints] using hconflicts
  cases hs : f.server? a.server with
  | none => simp [RecoverCheck.complaints, hs] at hserver
  | some c =>
    have he : c.disabled = false := by
      by_cases he : c.disabled = true
      · have hp : c.problems ≠ [] := by simpa [ServerConfig.disabled] using he
        simp [RecoverCheck.complaints, hs, he, hp] at hstate
      · simpa using he
    have ha : c.active = true := by
      by_cases ha : c.active = true
      · exact ha
      · simp [RecoverCheck.complaints, hs, he, ha] at hstate
    cases hb : a.backupOn s world c with
    | error e => simp [RecoverArgs.catalogFault, hs, hb] at hread
    | ok found =>
      cases hf : found.filter (·.status = .done) with
      | none => simp [RecoverCheck.complaints, hs, hb, hf] at hbackup
      | some r =>
        obtain ⟨rfl, hr⟩ := Option.filter_eq_some_iff.1 hf
        cases hn : Recovery.checkNames m r.tablespaceNames with
        | error e => simp [RecoverCheck.complaints, hs, hm, hb, hn] at hnames
        | ok u =>
          exact ⟨c, r, t, hd, ht, ⟨m, hm⟩, hc, hs, he, ha, hb, by simpa using hr,
            (Recovery.checkNames_eq_ok_iff hm).1 hn⟩

/-- The request that the arguments make is what a server is asked for. -/
theorem requested_recoveryRequest {t : Recovery.Target} {m : Recovery.Relocations}
    (c : ServerConfig) (h : Recovery.readRules a.rules = .ok m) :
    Requested a c t (Run.recoveryRequest c a t m) where
  destination := rfl
  relocations := Recovery.get?_of_readRules h
  target := rfl
  remoteCommand := rfl
  retryTimes := rfl
  retrySleep := rfl

/-- **A recovery is handed over exactly when every check passes.** Then the server is asked once, and
    nothing else is asked of any service. Otherwise nothing is asked at all, the world is what it was, and
    the first check that fails is the only one that is told; a catalog that cannot be read ends the
    command, unless an earlier check refused it. -/
theorem recover_handed_over_or_refused (f : Fleet) (s : Services σ) (zone : Time.Zone)
    (a : RecoverArgs) (world : σ) :
    let e := Command.execute f s.traced zone (.recover a) (world, [])
    (∃ c r t, Recoverable f s zone a world c r t ∧
      ∃ q, Requested a c t q ∧ e.world.2 = [.recover c r q]) ∨
    ((¬∃ c r t, Recoverable f s zone a world c r t) ∧ e.world = (world, []) ∧
      e.messages = a.firstComplaints f s zone world ∧
      (e.messages ≠ [] → e.fault = none) ∧
      (e.messages = [] → e.fault = a.catalogFault f s world ∧ e.fault ≠ none)) := by
  intro e
  by_cases h : ∃ c r t, Recoverable f s zone a world c r t
  · obtain ⟨c, r, t, hr⟩ := h
    obtain ⟨m, hm⟩ := hr.rules
    refine .inl ⟨c, r, t, hr, _, requested_recoveryRequest c hm, ?_⟩
    exact calls_of_ready (checkArgs_of_ok hr.isLocal hr.stop hm) hr.noConflicts hr.configured
      hr.enabled hr.active hr.found hr.complete ((Recovery.checkNames_eq_ok_iff hm).2 hr.known)
  · have hrefused : ∀ c r t, ¬Recoverable f s.traced zone a (world, []) c r t := by
      intro c r t hr
      exact h ⟨c, r, t, ⟨hr.isLocal, hr.stop, hr.rules, hr.noConflicts, hr.configured, hr.enabled,
        hr.active, hr.found, hr.complete, hr.known⟩⟩
    have he : e = .idle (world, []) (a.firstComplaints f s zone world)
        (if a.firstComplaints f s zone world = [] then a.catalogFault f s world else none) :=
      execute_recover_of_refused hrefused
    have hm : e.messages = a.firstComplaints f s zone world := by rw [he]; rfl
    have hfault : e.fault
        = if e.messages = [] then a.catalogFault f s world else none := by rw [hm, he]; rfl
    refine .inr ⟨h, by rw [he]; rfl, hm, fun hq => by rw [hfault, if_neg hq], fun hq => ?_⟩
    rw [hfault, if_pos hq]
    exact ⟨rfl, fun hread => h (recoverable_of_no_complaints (hm ▸ hq) hread)⟩

end Stages

end BackupFleet
