import BackupFleet.Proofs.Order
import BackupFleet.Report.Writer

/-!
# `BackupFleet.Proofs.Report.Summary` — what the line for a monitoring system says

A monitoring format writes nothing until it is closed, and then one line from what it kept. It keeps less than
it was told: the errors, which servers were checked, and the failed checks of each server. Each of the three is
a reading of the messages that looks at the messages one by one, so it does not matter how the checks of
different servers follow each other, or what else is told between them.

Main statement: `summary_tells_failures` — the line in full, from these three readings.

## Contents

* `Checked`, `failedChecks`, `errorTexts` — what messages say of the servers;
* `Nagios.Keeps`, `Nagios.Keeps.accept`, `Nagios.Keeps.acceptAll` — what is kept of them;
* `Nagios.Keeps.failing_eq`, `run_nagios` — what is written;
* `SaySame`, `summary_tells_failures` — the line.
-/

namespace BackupFleet

/-! ## What messages say of the servers -/

/-- A check of the server was told, whatever came of it. -/
def Checked (ms : List Message) (server : String) : Prop :=
  ∃ name ok hint, Message.check server name ok hint ∈ ms

/-- The checks of a server that failed, in their order. -/
def failedChecks (ms : List Message) (server : String) : List String :=
  ms.filterMap fun
    | .check s name false _ => if s = server then some name else none
    | _ => none

/-- The errors, in their order. -/
def errorTexts (ms : List Message) : List String :=
  ms.filterMap fun
    | .error text => some text
    | _ => none

theorem mem_failedChecks {ms : List Message} {server name : String} :
    name ∈ failedChecks ms server ↔ ∃ hint, .check server name false hint ∈ ms := by
  unfold failedChecks
  rw [List.mem_filterMap]
  constructor
  · rintro ⟨m, hm, htold⟩
    split at htold
    · rename_i s n hint
      split at htold
      · rename_i hs
        obtain rfl := Option.some.inj htold
        exact ⟨hint, hs ▸ hm⟩
      · cases htold
    · cases htold
  · rintro ⟨hint, hm⟩
    exact ⟨_, hm, if_pos rfl⟩

/-- A server with a failed check was checked. -/
theorem checked_of_failedChecks {ms : List Message} {server : String} (h : failedChecks ms server ≠ []) :
    Checked ms server := by
  obtain ⟨name, hname⟩ := List.exists_mem_of_ne_nil _ h
  obtain ⟨hint, hm⟩ := mem_failedChecks.1 hname
  exact ⟨name, false, hint, hm⟩

@[simp] theorem errorTexts_append (ms ms' : List Message) :
    errorTexts (ms ++ ms') = errorTexts ms ++ errorTexts ms' := List.filterMap_append

@[simp] theorem failedChecks_append (ms ms' : List Message) (server : String) :
    failedChecks (ms ++ ms') server = failedChecks ms server ++ failedChecks ms' server :=
  List.filterMap_append

@[simp] theorem checked_append {ms ms' : List Message} {server : String} :
    Checked (ms ++ ms') server ↔ Checked ms server ∨ Checked ms' server := by
  simp only [Checked, List.mem_append, exists_or]

/-! ## What is kept of the messages -/

namespace Nagios

/-- What is kept are the errors, the checked servers, and the failed checks of each server. -/
structure Keeps (n : Nagios) (ms : List Message) : Prop where
  errors : n.errors = errorTexts ms
  servers : ∀ server, (n.failures.get? server).isSome = true ↔ Checked ms server
  checks : ∀ server, (n.failures.get? server).getD [] = failedChecks ms server

theorem keeps_new : new.Keeps [] where
  errors := rfl
  servers server := by simp [new, Checked]
  checks server := by simp [new, failedChecks]

variable {n : Nagios} {ms : List Message}

/-- A message that is neither an error nor a check is not kept. -/
theorem Keeps.skip (h : n.Keeps ms) {m : Message} (herrors : errorTexts [m] = [])
    (hchecked : ∀ server, ¬Checked [m] server) (hfailed : ∀ server, failedChecks [m] server = []) :
    n.Keeps (ms ++ [m]) where
  errors := by rw [errorTexts_append, herrors, List.append_nil, h.errors]
  servers server := by rw [checked_append, h.servers, or_iff_left (hchecked server)]
  checks server := by rw [failedChecks_append, hfailed, List.append_nil, h.checks]

theorem Keeps.error (h : n.Keeps ms) (text : String) :
    (n.accept (.error text)).Keeps (ms ++ [.error text]) where
  errors := by
    rw [errorTexts_append, ← h.errors]
    rfl
  servers server := by
    rw [checked_append, or_iff_left (by simp [Checked])]
    exact h.servers server
  checks server := by
    rw [failedChecks_append]
    exact (h.checks server).trans (List.append_nil _).symm

/-- A check enters its server, and adds to its failed checks if it is one. -/
theorem Keeps.check (h : n.Keeps ms) (server name : String) (ok : Bool) (hint : String) :
    (n.accept (.check server name ok hint)).Keeps (ms ++ [.check server name ok hint]) where
  errors := by
    rw [errorTexts_append]
    exact h.errors.trans (List.append_nil _).symm
  servers other := by
    rw [checked_append, ← h.servers, accept, OrderedMap.get?_insert]
    by_cases hother : other = server
    · simp [hother, Checked]
    · simp [hother, Checked]
  checks other := by
    rw [failedChecks_append, ← h.checks, accept, OrderedMap.get?_insert]
    -- Whether it passed or failed, the check is entered at its own server only.
    by_cases hother : other = server
    · subst hother
      cases ok <;> simp [failedChecks]
    · cases ok <;> simp [failedChecks, hother, Ne.symm hother]

/-- **What is kept of messages is kept with one more message.** -/
theorem Keeps.accept (h : n.Keeps ms) (m : Message) : (n.accept m).Keeps (ms ++ [m]) := by
  cases m with
  | error text => exact h.error text
  | check server name ok hint => exact h.check server name ok hint
  | info text => exact h.skip rfl (by simp [Checked]) (fun _ => rfl)
  | warning text => exact h.skip rfl (by simp [Checked]) (fun _ => rfl)
  | result line => exact h.skip rfl (by simp [Checked]) (fun _ => rfl)

/-- What is kept after messages. -/
def acceptAll (n : Nagios) (ms : List Message) : Nagios := ms.foldl Nagios.accept n

theorem Keeps.acceptAll {before : List Message} (h : n.Keeps before) (ms : List Message) :
    (n.acceptAll ms).Keeps (before ++ ms) := by
  induction ms generalizing n before with
  | nil => rwa [List.append_nil]
  | cons m r ih =>
    have := ih (h.accept m)
    rwa [List.append_assoc, List.singleton_append] at this

theorem keeps_acceptAll (ms : List Message) : (new.acceptAll ms).Keeps ms := keeps_new.acceptAll ms

/-! ## What is written -/

/-- The servers of the map are those that were checked. -/
theorem Keeps.mem_keys_iff (h : n.Keeps ms) {server : String} :
    server ∈ n.failures.keys ↔ Checked ms server :=
  OrderedMap.mem_keys_iff.trans (h.servers server)

/-- A checked server is kept with its failed checks. -/
theorem Keeps.entries_eq (h : n.Keeps ms) :
    n.failures.entries = n.failures.keys.map fun server => (server, failedChecks ms server) := by
  rw [OrderedMap.keys, List.map_map]
  refine (List.map_id _).symm.trans (List.map_congr_left ?_)
  intro e he
  have hfailed := h.checks e.1
  rw [OrderedMap.mem_entries_iff.1 he, Option.getD_some] at hfailed
  exact Prod.ext rfl hfailed

/-- The servers with failed checks are told with these checks. -/
theorem Keeps.failing_eq (h : n.Keeps ms) :
    n.failing = (n.failures.keys.filter fun server => failedChecks ms server ≠ []).map
      fun server => (server, failedChecks ms server) := by
  rw [failing, h.entries_eq, List.filter_map]
  rfl

theorem Keeps.mem_failing_iff (h : n.Keeps ms) {e : String × List String} :
    e ∈ n.failing ↔ e.2 = failedChecks ms e.1 ∧ failedChecks ms e.1 ≠ [] := by
  rw [h.failing_eq]
  simp only [List.mem_map, List.mem_filter, decide_eq_true_eq, h.mem_keys_iff]
  constructor
  · rintro ⟨server, ⟨-, hne⟩, rfl⟩
    exact ⟨rfl, hne⟩
  · rintro ⟨he, hne⟩
    exact ⟨e.1, ⟨checked_of_failedChecks hne, hne⟩, Prod.ext rfl he.symm⟩

theorem Keeps.errorOccurred_eq_false_iff (h : n.Keeps ms) : n.errorOccurred = false ↔
    (n.failures.keys.filter fun server => failedChecks ms server ≠ []) = [] ∧ errorTexts ms = [] := by
  rw [errorOccurred, h.failing_eq, h.errors]
  simp [and_comm]

/-- What is kept does not depend on more than the three readings of the messages. -/
theorem Keeps.unique {n' : Nagios} {ms' : List Message} (h : n.Keeps ms) (h' : n'.Keeps ms')
    (herrors : errorTexts ms = errorTexts ms') (hchecked : ∀ server, Checked ms server ↔ Checked ms' server)
    (hfailed : ∀ server, failedChecks ms server = failedChecks ms' server) : n = n' := by
  have hfailures : n.failures = n'.failures := by
    apply OrderedMap.ext_get?
    intro server
    -- A server without failed checks can still be an entry, so that its list does not tell all of it.
    have hsome : (n.failures.get? server).isSome = (n'.failures.get? server).isSome := by
      rw [Bool.eq_iff_iff, h.servers, h'.servers, hchecked]
    have hlist : (n.failures.get? server).getD [] = (n'.failures.get? server).getD [] := by
      rw [h.checks, h'.checks, hfailed]
    cases hget : n.failures.get? server <;> cases hget' : n'.failures.get? server <;>
      simp_all
  have herrors' : n.errors = n'.errors := by rw [h.errors, h'.errors, herrors]
  exact congr (congrArg Nagios.mk hfailures) herrors'

end Nagios

/-- A writer for a monitoring system writes nothing before the end. -/
theorem Writer.emitAll_nagios (n : Nagios) (ms : List Message) :
    (Writer.nagios n).emitAll ms = (.nagios (n.acceptAll ms), .empty) := by
  induction ms generalizing n with
  | nil => rfl
  | cons m r ih =>
    show (((Writer.nagios (n.accept m)).emitAll r).1,
      Written.empty ++ ((Writer.nagios (n.accept m)).emitAll r).2) = _
    rw [ih]
    rfl

/-- **A run writes the summary of what was kept of its messages.** -/
theorem run_nagios (quiet : Bool) (ms : List Message) :
    (Writer.new .nagios quiet).run ms
      = ((Nagios.new.acceptAll ms).summary.1, .line (Nagios.new.acceptAll ms).summary.2) := by
  have hnew : Writer.new .nagios quiet = .nagios .new := rfl
  rw [hnew, Writer.run, Writer.emitAll_nagios]
  exact Prod.ext rfl (Written.empty_append _)

/-! ## The line -/

/-- The messages agree on the errors in their order, on which servers were checked, and on the failed checks of
    each server in their order. -/
structure SaySame (ms ms' : List Message) : Prop where
  errors : errorTexts ms = errorTexts ms'
  servers : ∀ server, Checked ms server ↔ Checked ms' server
  checks : ∀ server, failedChecks ms server = failedChecks ms' server

open Nagios in
/-- **The line says how many servers were checked and which, or else which of them failed, in which checks, and
    which errors there were.** Servers are listed once each in ascending order, the failed checks of a server
    and the errors in the order in which they were told. So messages that agree on the errors, on the checked
    servers and on the failed checks of each have the same line and the same exit code, whatever order the
    checks of different servers are in, and whatever else is told. -/
theorem summary_tells_failures :
    (∀ (quiet : Bool) (ms : List Message), ∃ checked failing : List String,
      checked.Pairwise (· < ·) ∧ (∀ server, server ∈ checked ↔ Checked ms server) ∧
      failing.Pairwise (· < ·) ∧ (∀ server, server ∈ failing ↔ failedChecks ms server ≠ []) ∧
      (Writer.new .nagios quiet).run ms =
        if failing = [] ∧ errorTexts ms = [] then
          (0, .line ("BMAN OK - Ready to serve the backups for " ++ toString checked.length ++ " server(s)" ++
            starred checked))
        else
          (2, .line ((if failing = [] then "BMAN CRITICAL - errors reported"
              else "BMAN CRITICAL - server " ++ ", ".intercalate failing ++ " has issues") ++
            starred (failing.map fun server =>
              server ++ ": FAILED (" ++ ", ".intercalate (failedChecks ms server) ++ ")") ++
            starred (errorTexts ms)))) ∧
    ∀ (quiet quiet' : Bool) (ms ms' : List Message), SaySame ms ms' →
      (Writer.new .nagios quiet).run ms = (Writer.new .nagios quiet').run ms' := by
  constructor
  · intro quiet ms
    have h := keeps_acceptAll ms
    generalize hn : Nagios.new.acceptAll ms = n at h
    have hkeys : n.failures.keys.Pairwise (· < ·) := List.pairwise_map.2 n.failures.ascending
    refine ⟨n.failures.keys, n.failures.keys.filter fun server => failedChecks ms server ≠ [], hkeys,
      fun server => h.mem_keys_iff, hkeys.filter _, fun server => ?_, ?_⟩
    · rw [List.mem_filter, h.mem_keys_iff, decide_eq_true_eq]
      exact and_iff_right_of_imp checked_of_failedChecks
    · have hoccurred := h.errorOccurred_eq_false_iff
      rw [run_nagios, hn, summary]
      by_cases hnone : n.errorOccurred = false
      · rw [if_neg (by simp [hnone]), if_pos (hoccurred.1 hnone), OrderedMap.keys, List.length_map]
        rfl
      · rw [if_pos (by simpa using hnone), if_neg fun hall => hnone (hoccurred.2 hall), h.failing_eq, h.errors]
        simp [Function.comp_def, failureText, criticalCode]
  · intro quiet quiet' ms ms' h
    rw [run_nagios, run_nagios,
      (keeps_acceptAll ms).unique (keeps_acceptAll ms') h.errors h.servers h.checks]

/-! ### Checks of three servers -/

namespace MixedChecks

/-- One server after the other is checked. -/
def inTurn : List Message :=
  [.check "ada" "space" false "full", .check "ada" "age" false "", .check "bob" "space" true "",
    .check "cyd" "age" false "2 days", .error "lost"]

/-- The same failures, with the checks of the servers mixed, and more told. -/
def mixed : List Message :=
  [.info "start", .check "cyd" "age" false "", .error "lost", .check "ada" "space" false "",
    .check "bob" "age" true "", .result "a line", .check "ada" "age" false "old", .warning "slow"]

end MixedChecks

open MixedChecks in
/-- The line does not tell in which order three servers were checked. -/
theorem same_line_of_mixed_checks :
    SaySame inTurn mixed ∧
    (Writer.new .nagios false).run inTurn = (Writer.new .nagios true).run mixed ∧
    (Writer.new .nagios true).run mixed = (2, .line ("BMAN CRITICAL - server ada, cyd has issues" ++
      " * ada: FAILED (space, age) * cyd: FAILED (age) * lost")) := by
  have hsame : SaySame inTurn mixed := by
    refine ⟨by decide, fun server => ?_, fun server => ?_⟩
    · have hturn : Checked inTurn server ↔ server = "ada" ∨ server = "bob" ∨ server = "cyd" := by
        simp [Checked, inTurn, exists_or]
      have hmixed : Checked mixed server ↔
          server = "cyd" ∨ server = "ada" ∨ server = "bob" ∨ server = "ada" := by
        simp [Checked, mixed, exists_or]
      grind
    · by_cases hada : "ada" = server
      · subst hada
        decide
      · by_cases hcyd : "cyd" = server <;> simp [failedChecks, inTurn, mixed, hada, hcyd]
  exact ⟨hsame, summary_tells_failures.2 false true _ _ hsame, by decide⟩

end BackupFleet
