import BackupFleet.CommandLine.Program
import BackupFleet.Proofs.Report.Verdict

/-!
# `BackupFleet.Proofs.Report.Agreement` — every writer gives the same verdict

A run is judged by its messages, and the writers see the same messages. A console keeps a flag, a monitoring
format keeps lists and decides at the end; a quiet console writes less. The verdict is the same for all of
them, and it is what the messages say: a failure is an error or a failed check, wherever it stands. Being
quiet costs the progress only. That is more than leaving out some lines, since the line above a group of
checks depends on what was written before, and progress between two checks does not part them.

A fault of the configuration or of the command reaches the writer as one more error, so the exit code of a
run is zero iff there was no fault and no message of a failure.

## Contents

* `ReportsFailure`, `failed_iff` — what the messages say;
* `Writer.Judges`, `Writer.judges_new` — what a writer makes of them;
* `WithoutProgress`, `run_hushed` — what a quiet console writes;
* `Invocation.exit_run` — the exit code of a run;
* `every_writer_gives_one_verdict` — all of it.
-/

namespace BackupFleet

/-! ## Verdicts -/

/-- The messages tell of an error or of a failed check. -/
def ReportsFailure (ms : List Message) : Prop :=
  (∃ text, .error text ∈ ms) ∨ ∃ server name hint, .check server name false hint ∈ ms

theorem Message.isFailure_iff {m : Message} : m.isFailure = true ↔
    (∃ text, m = .error text) ∨ ∃ server name hint, m = .check server name false hint := by
  cases m with
  | check server name ok hint => cases ok <;> simp [isFailure]
  | _ => simp [isFailure]

theorem failed_iff {ms : List Message} : failed ms = true ↔ ReportsFailure ms := by
  unfold failed ReportsFailure
  rw [List.any_eq_true]
  constructor
  · rintro ⟨m, hm, hfailure⟩
    rcases Message.isFailure_iff.1 hfailure with ⟨text, rfl⟩ | ⟨server, name, hint, rfl⟩
    · exact .inl ⟨text, hm⟩
    · exact .inr ⟨server, name, hint, hm⟩
  · rintro (⟨text, hm⟩ | ⟨server, name, hint, hm⟩)
    · exact ⟨_, hm, rfl⟩
    · exact ⟨_, hm, rfl⟩

/-- A writer that was given the messages knows whether a failure is among them, and closes with a code that
    says so. -/
structure Writer.Judges (w : Writer) (ms : List Message) (code : Nat) : Prop where
  errorOccurred_iff : (w.emitAll ms).1.errorOccurred = true ↔ ReportsFailure ms
  close_of_failure : ReportsFailure ms → (w.emitAll ms).1.close.1 = code
  close_of_success : ¬ReportsFailure ms → (w.emitAll ms).1.close.1 = 0

/-- The exit code of a format after a failure. -/
def Format.failureCode : Format → Nat
  | console => 1
  | nagios => Nagios.criticalCode

/-- The code of a writer of this format. -/
def Writer.format : Writer → Format
  | console _ => .console
  | nagios _ => .nagios

theorem Writer.close_eq (w : Writer) :
    w.close.1 = if w.errorOccurred then w.format.failureCode else 0 := by
  cases w with
  | console c => rfl
  | nagios n => cases h : n.errorOccurred <;> simp [close, Nagios.summary, errorOccurred, h] <;> rfl

theorem Writer.format_emitAll (w : Writer) (ms : List Message) : (w.emitAll ms).1.format = w.format := by
  induction ms generalizing w with
  | nil => rfl
  | cons m ms ih =>
    refine (ih (w.emit m).1).trans ?_
    cases w <;> rfl

/-- **A new writer judges any messages.** -/
theorem Writer.judges_new (format : Format) (quiet : Bool) (ms : List Message) :
    (Writer.new format quiet).Judges ms format.failureCode := by
  have hnew : (Writer.new format quiet).errorOccurred = false := by cases format <;> rfl
  have hformat : (Writer.new format quiet).format = format := by cases format <;> rfl
  have hoccurred : ((Writer.new format quiet).emitAll ms).1.errorOccurred = failed ms := by
    rw [errorOccurred_emitAll, hnew, Bool.false_or]
  have hclose : ((Writer.new format quiet).emitAll ms).1.close.1
      = if failed ms then format.failureCode else 0 := by
    rw [close_eq, hoccurred, format_emitAll, hformat]
  exact {
    errorOccurred_iff := by rw [hoccurred, failed_iff]
    close_of_failure := fun h => by rw [hclose, if_pos (failed_iff.2 h)]
    close_of_success := fun h => by rw [hclose, if_neg fun hf => h (failed_iff.1 hf)] }

/-! ## A quiet console -/

/-- The second text is the first one without the lines of the messages that tell what goes on; every other
    message has the same part in both. -/
inductive WithoutProgress : List Message → String → String → Prop
  | nil : WithoutProgress [] "" ""
  | info {text loud quiet : String} {ms : List Message} (h : WithoutProgress ms loud quiet) :
      WithoutProgress (.info text :: ms) (text ++ "\n" ++ loud) quiet
  | other {m : Message} {part loud quiet : String} {ms : List Message} (hm : ∀ text, m ≠ .info text)
      (h : WithoutProgress ms loud quiet) :
      WithoutProgress (m :: ms) (part ++ loud) (part ++ quiet)

/-- The same console, quiet. -/
def Console.hushed (c : Console) : Console := { c with quiet := true }

/-- A quiet console differs in its text of progress only. -/
theorem Console.text_hushed (c : Console) {m : Message} (hm : ∀ text, m ≠ .info text) :
    c.hushed.text m = c.text m := by
  cases m with
  | info text => exact absurd rfl (hm text)
  | _ => rfl

/-- What a console writes before the end, and what it writes if it is made quiet. -/
theorem emitAll_hushed {c : Console} (hc : c.quiet = false) (ms : List Message) :
    ((Writer.console c.hushed).emitAll ms).2.err = ((Writer.console c).emitAll ms).2.err ∧
    WithoutProgress ms ((Writer.console c).emitAll ms).2.out
      ((Writer.console c.hushed).emitAll ms).2.out := by
  induction ms generalizing c with
  | nil => exact ⟨rfl, .nil⟩
  | cons m ms ih =>
    obtain ⟨herr, hout⟩ := ih (c := c.accept m) hc
    have hloud : ((Writer.console c).emitAll (m :: ms)).2
        = c.text m ++ ((Writer.console (c.accept m)).emitAll ms).2 := rfl
    -- Both consoles take in a message alike, so they have the same group of checks open.
    have hquiet : ((Writer.console c.hushed).emitAll (m :: ms)).2
        = c.hushed.text m ++ ((Writer.console (c.accept m).hushed).emitAll ms).2 := rfl
    rw [hloud, hquiet]
    by_cases hm : ∃ text, m = .info text
    · obtain ⟨text, rfl⟩ := hm
      have hsaid : c.text (.info text) = .line text := if_neg (by simp [hc])
      have hunsaid : c.hushed.text (.info text) = .empty := rfl
      rw [hsaid, hunsaid, Written.empty_append, Written.err_append, Written.out_append, herr]
      exact ⟨String.empty_append.symm, .info hout⟩
    · have hm : ∀ text, m ≠ .info text := fun text h => hm ⟨text, h⟩
      rw [c.text_hushed hm, Written.err_append, Written.err_append, Written.out_append,
        Written.out_append, herr]
      exact ⟨rfl, .other hm hout⟩

/-- A console writes nothing at the end. -/
theorem Writer.written_run_console (c : Console) (ms : List Message) :
    ((Writer.console c).run ms).2 = ((Writer.console c).emitAll ms).2 := by
  have hlast : ((Writer.console c).emitAll ms).1.close.2 = .empty := by
    have hformat := Writer.format_emitAll (.console c) ms
    cases hw : ((Writer.console c).emitAll ms).1 with
    | console c' => rfl
    | nagios n =>
      rw [hw] at hformat
      cases hformat
  show ((Writer.console c).emitAll ms).2 ++ ((Writer.console c).emitAll ms).1.close.2 = _
  rw [hlast, Written.append_empty]

/-- **A console that is made quiet writes the same errors, and the same output without progress.** -/
theorem run_hushed {c : Console} (hc : c.quiet = false) (ms : List Message) :
    ((Writer.console c.hushed).run ms).2.err = ((Writer.console c).run ms).2.err ∧
    WithoutProgress ms ((Writer.console c).run ms).2.out ((Writer.console c.hushed).run ms).2.out := by
  rw [Writer.written_run_console, Writer.written_run_console]
  exact emitAll_hushed hc ms

/-- Two checks of one server stay below one line, with progress told between them or not. -/
example :
    let ms : List Message := [.check "ada" "space" true "", .info "t", .check "ada" "age" false "2 days"]
    (Writer.new .console false).run ms
      = (1, ⟨"Server ada:\n\tspace: OK\nt\n\tage: FAILED (2 days)\n", ""⟩) ∧
    (Writer.new .console true).run ms
      = (1, ⟨"Server ada:\n\tspace: OK\n\tage: FAILED (2 days)\n", ""⟩) := by
  decide

/-! ## The exit code of a run -/

/-- **A run exits with 0 iff its configuration is read, its command ends without a fault, and no message of
    the command tells of a failure.** -/
theorem Invocation.exit_run (i : Invocation) (hooks : HookRunner) (zone : Time.Zone) (home : Option String)
    (h : Host) :
    (i.run hooks zone home h).exit = 0 ↔ ∃ fleet, i.load home h = .ok fleet ∧
      let e := i.command.execute fleet (Storage.services hooks) zone (openLog fleet.settings h)
      e.fault = none ∧ ¬ReportsFailure e.messages := by
  have hexit : (i.run hooks zone home h).exit = 0 ↔ failed (i.perform hooks zone home h).1 = false :=
    Writer.exit_eq_zero_iff i.format i.quiet _
  rw [hexit, perform]
  cases i.load home h with
  | error x => simp [Message.isFailure, faultMessage]
  | ok fleet =>
    simp only [Except.ok.injEq, exists_eq_left']
    generalize i.command.execute fleet (Storage.services hooks) zone (openLog fleet.settings h) = e
    rw [← failed_iff, Bool.not_eq_true, Execution.report, failed_append, Bool.or_eq_false_iff, and_comm]
    refine and_congr_left fun _ => ?_
    cases e.fault <;> simp [faultMessage, Message.isFailure]

/-- **Every writer gives the same verdict.** A console, a quiet console and the monitoring format know of a
    failure iff the messages tell of one, and then close with 1, 1 and 2, and with 0 otherwise. What a quiet
    console writes differs from what a loud one does in that the output lacks the progress. And a run exits
    with 0 iff there is no fault and no message of a failure. -/
theorem every_writer_gives_one_verdict :
    (∀ ms : List Message,
      (Writer.new .console false).Judges ms 1 ∧
      (Writer.new .console true).Judges ms 1 ∧
      (∀ quiet, (Writer.new .nagios quiet).Judges ms 2) ∧
      let loud := ((Writer.new .console false).run ms).2
      let quiet := ((Writer.new .console true).run ms).2
      quiet.err = loud.err ∧ WithoutProgress ms loud.out quiet.out) ∧
    ∀ (i : Invocation) (hooks : HookRunner) (zone : Time.Zone) (home : Option String) (h : Host),
      (i.run hooks zone home h).exit = 0 ↔ ∃ fleet, i.load home h = .ok fleet ∧
        let e := i.command.execute fleet (Storage.services hooks) zone (openLog fleet.settings h)
        e.fault = none ∧ ¬ReportsFailure e.messages := by
  refine ⟨fun ms => ⟨Writer.judges_new .console false ms, Writer.judges_new .console true ms,
    fun quiet => Writer.judges_new .nagios quiet ms, ?_⟩, fun i => i.exit_run⟩
  exact run_hushed (c := .new false) rfl ms

end BackupFleet
