import BackupFleet.Proofs.Order
import BackupFleet.Report.Writer

/-!
# `BackupFleet.Proofs.Report.Verdict` — the exit code of a run

Each format keeps what it needs of the messages: a console a flag, a monitoring system lists of errors and
of failed checks. Both remember of every message whether it was a failure, and never forget one, so that
the exit code is zero iff no message was a failure.

## Contents

* `Nagios.errorOccurred_iff`, `Writer.errorOccurred_emit` — what one message does;
* `Writer.errorOccurred_emitAll`, `Writer.exit_eq_zero_iff` — what a run does.
-/

namespace BackupFleet

/-! ## One message -/

/-- An error was reported, or some server has a failed check. -/
theorem Nagios.errorOccurred_iff {n : Nagios} : n.errorOccurred = true ↔
    n.errors ≠ [] ∨ ∃ server failed, n.failures.get? server = some failed ∧ failed ≠ [] := by
  have hfailing : n.failing.isEmpty = false ↔
      ∃ server failed, n.failures.get? server = some failed ∧ failed ≠ [] := by
    rw [List.isEmpty_eq_false_iff_exists_mem]
    simp only [failing, List.mem_filter, decide_eq_true_eq, OrderedMap.mem_entries_iff, Prod.exists]
  rw [← hfailing]
  simp [errorOccurred]

/-- A check that succeeds leaves the failed checks as they are, also when it enters its server. -/
theorem Nagios.failed_check_iff (n : Nagios) (server name : String) (ok : Bool) (hint : String) :
    (∃ target failed, (n.accept (.check server name ok hint)).failures.get? target = some failed ∧
      failed ≠ []) ↔
    (∃ target failed, n.failures.get? target = some failed ∧ failed ≠ []) ∨ ok = false := by
  simp only [accept, OrderedMap.get?_insert]
  cases ok with
  | false =>
    refine iff_of_true ⟨server, _, if_pos rfl, ?_⟩ (.inr rfl)
    simp
  | true =>
    simp only [if_true, reduceCtorEq, or_false]
    constructor
    · rintro ⟨target, failed, hget, hne⟩
      by_cases ht : target = server
      · rw [if_pos ht, Option.some.injEq] at hget
        cases hbefore : n.failures.get? server with
        | none =>
          rw [hbefore] at hget
          exact absurd hget.symm hne
        | some before =>
          rw [hbefore] at hget
          exact ⟨server, before, hbefore, by rwa [← hget] at hne⟩
      · rw [if_neg ht] at hget
        exact ⟨target, failed, hget, hne⟩
    · rintro ⟨target, failed, hget, hne⟩
      by_cases ht : target = server
      · subst ht
        exact ⟨target, failed, by rw [if_pos rfl, hget, Option.getD_some], hne⟩
      · exact ⟨target, failed, by rw [if_neg ht, hget], hne⟩

theorem Nagios.errorOccurred_accept (n : Nagios) (m : Message) :
    (n.accept m).errorOccurred = (n.errorOccurred || m.isFailure) := by
  rw [Bool.eq_iff_iff, Bool.or_eq_true]
  cases m with
  | info t => simp [accept, Message.isFailure]
  | warning t => simp [accept, Message.isFailure]
  | result t => simp [accept, Message.isFailure]
  | error t => simp [accept, Message.isFailure, errorOccurred]
  | check server name ok hint =>
    rw [errorOccurred_iff, errorOccurred_iff, n.failed_check_iff]
    simp [accept, Message.isFailure, or_assoc]

/-- **A failure is remembered, and nothing else is taken for one.** -/
theorem Writer.errorOccurred_emit (w : Writer) (m : Message) :
    (w.emit m).1.errorOccurred = (w.errorOccurred || m.isFailure) := by
  cases w with
  | console c => rfl
  | nagios n => exact n.errorOccurred_accept m

/-! ## A run -/

theorem Writer.errorOccurred_emitAll (w : Writer) (ms : List Message) :
    (w.emitAll ms).1.errorOccurred = (w.errorOccurred || failed ms) := by
  induction ms generalizing w with
  | nil => simp [emitAll]
  | cons m ms ih =>
    show ((w.emit m).1.emitAll ms).1.errorOccurred = _
    rw [ih, w.errorOccurred_emit, failed_cons, Bool.or_assoc]

theorem Writer.close_eq_zero_iff (w : Writer) : w.close.1 = 0 ↔ w.errorOccurred = false := by
  cases w with
  | console c => cases h : c.errorOccurred <;> simp [close, Console.exitCode, errorOccurred, h]
  | nagios n =>
    cases h : n.errorOccurred <;>
      simp [close, Nagios.summary, Nagios.okCode, Nagios.criticalCode, errorOccurred, h]

/-- **The exit code of a run is zero iff no message was a failure**, in either format. -/
theorem Writer.exit_eq_zero_iff (format : Format) (quiet : Bool) (ms : List Message) :
    ((Writer.new format quiet).run ms).1 = 0 ↔ failed ms = false := by
  show ((Writer.new format quiet).emitAll ms).1.close.1 = 0 ↔ _
  have hnew : (Writer.new format quiet).errorOccurred = false := by cases format <;> rfl
  rw [close_eq_zero_iff, errorOccurred_emitAll, hnew, Bool.false_or]

end BackupFleet
