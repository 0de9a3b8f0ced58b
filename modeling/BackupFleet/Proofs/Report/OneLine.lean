import BackupFleet.Command.Run
import BackupFleet.Proofs.Report.Summary
import BackupFleet.Proofs.Report.Verdict
import BackupFleet.Storage.Services

/-!
# `BackupFleet.Proofs.Report.OneLine` — when the summary is a single line

A monitoring system reads the first line of what a plug-in writes. The summary is written at once, at the end,
and is meant to be one line, but the names of servers and checks and the texts of errors are put into it as
they are. So it is one line iff none of the texts that it shows has a line feed.

Main statement: `one_line_iff_none_shown_breaks`. A diagnostic with a hint is one that takes two lines
(`hint_is_in_second_line`).

## Contents

* `mem_toList_intercalate`, `mem_toList_starred` — line feeds in joined texts;
* `Shown` — the texts that the summary shows;
* `Nagios.Keeps.mem_summary_iff` — line feeds in the summary;
* `one_line_iff_none_shown_breaks` — what a run writes.
-/

namespace BackupFleet

/-! ## Line feeds in joined texts -/

/-- A character that is not in the separator is in joined texts iff it is in one of them. -/
theorem mem_toList_intercalate {c : Char} {separator : String} (hc : c ∉ separator.toList)
    {texts : List String} :
    c ∈ (separator.intercalate texts).toList ↔ ∃ text ∈ texts, c ∈ text.toList := by
  rw [String.toList_intercalate]
  induction texts with
  | nil => simp
  | cons first r ih =>
    cases r with
    | nil => simp
    | cons second r =>
      rw [List.map_cons, List.map_cons, List.intercalate_cons_cons, List.mem_append, List.mem_append,
        or_iff_left hc, ← List.map_cons, ih]
      simp

theorem mem_toList_starred {texts : List String} :
    '\n' ∈ (Nagios.starred texts).toList ↔ ∃ text ∈ texts, '\n' ∈ text.toList := by
  simp only [Nagios.starred, String.toList_join, List.mem_flatMap, List.mem_map]
  constructor
  · rintro ⟨_, ⟨text, htext, rfl⟩, hbreak⟩
    exact ⟨text, htext, by simpa using hbreak⟩
  · rintro ⟨text, htext, hbreak⟩
    exact ⟨_, ⟨text, htext, rfl⟩, by simp [hbreak]⟩

theorem not_mem_toList_toString (n : Nat) : '\n' ∉ (toString n).toList := by
  intro h
  rw [Nat.toString_eq_repr, Nat.toList_repr] at h
  exact absurd (Nat.isDigit_of_mem_toDigits (by decide) (by decide) h) (by decide)

/-! ## Line feeds in the summary -/

/-- The summary shows the text: after a failure, an error, or a server with a failed check, or one of these
    checks, and otherwise a server that was checked. -/
def Shown (ms : List Message) (text : String) : Prop :=
  if failed ms then
    text ∈ errorTexts ms ∨
      ∃ server, failedChecks ms server ≠ [] ∧ (text = server ∨ text ∈ failedChecks ms server)
  else Checked ms text

namespace Nagios

variable {n : Nagios} {ms : List Message}

theorem errorOccurred_acceptAll (ms : List Message) : (new.acceptAll ms).errorOccurred = failed ms := by
  have h := Writer.errorOccurred_emitAll (.nagios .new) ms
  rw [Writer.emitAll_nagios] at h
  exact h

/-- A server with its failed checks has a line feed iff its name or one of the checks has. -/
theorem mem_toList_failureText {e : String × List String} : '\n' ∈ (failureText e).toList ↔
    '\n' ∈ e.1.toList ∨ ∃ check ∈ e.2, '\n' ∈ check.toList := by
  have hchecks : '\n' ∈ (", ".intercalate e.2).toList ↔ ∃ check ∈ e.2, '\n' ∈ check.toList :=
    mem_toList_intercalate (by decide)
  simp only [failureText, String.toList_append, List.mem_append, hchecks]
  simp

/-- The start of the summary has the names of the servers with failed checks. -/
theorem mem_toList_head (n : Nagios) :
    '\n' ∈ (if n.failing.isEmpty then "BMAN CRITICAL - errors reported"
      else "BMAN CRITICAL - server " ++ ", ".intercalate (n.failing.map (·.1)) ++ " has issues").toList ↔
    ∃ e ∈ n.failing, '\n' ∈ e.1.toList := by
  cases hfailing : n.failing with
  | nil => simp
  | cons e r =>
    have hnames : '\n' ∈ (", ".intercalate ((e :: r).map (·.1))).toList ↔
        ∃ name ∈ (e :: r).map (·.1), '\n' ∈ name.toList := mem_toList_intercalate (by decide)
    simp only [List.isEmpty_cons, Bool.false_eq_true, if_false, String.toList_append, List.mem_append, hnames]
    simp

/-- **A line feed in the summary is one of a text that it shows.** -/
theorem Keeps.mem_summary_iff (h : n.Keeps ms) (hoccurred : n.errorOccurred = failed ms) :
    '\n' ∈ n.summary.2.toList ↔ ∃ text, Shown ms text ∧ '\n' ∈ text.toList := by
  unfold summary Shown
  rw [hoccurred]
  cases hfailed : failed ms with
  | false =>
    simp only [Bool.false_eq_true, if_false, String.toList_append, List.mem_append, mem_toList_starred,
      not_mem_toList_toString, or_false, h.mem_keys_iff]
    simp
  | true =>
    simp only [if_true, String.toList_append, List.mem_append, mem_toList_starred, mem_toList_head,
      List.mem_map, h.errors]
    constructor
    -- The line feed is in the start, with the names, in the list of failed checks, or in the list of errors.
    · rintro ((⟨e, he, hbreak⟩ | ⟨_, ⟨e, he, rfl⟩, hbreak⟩) | ⟨text, htext, hbreak⟩)
      · exact ⟨e.1, .inr ⟨e.1, (h.mem_failing_iff.1 he).2, .inl rfl⟩, hbreak⟩
      · obtain ⟨hchecks, hne⟩ := h.mem_failing_iff.1 he
        rcases mem_toList_failureText.1 hbreak with hbreak | ⟨check, hcheck, hbreak⟩
        · exact ⟨e.1, .inr ⟨e.1, hne, .inl rfl⟩, hbreak⟩
        · exact ⟨check, .inr ⟨e.1, hne, .inr (hchecks ▸ hcheck)⟩, hbreak⟩
      · exact ⟨text, .inl htext, hbreak⟩
    -- A server with a failed check is named in the start too; its entry in the list will do.
    · rintro ⟨text, htext | ⟨server, hne, htext⟩, hbreak⟩
      · exact .inr ⟨text, htext, hbreak⟩
      · have he : (server, failedChecks ms server) ∈ n.failing := h.mem_failing_iff.2 ⟨rfl, hne⟩
        refine .inl (.inr ⟨_, ⟨_, he, rfl⟩, mem_toList_failureText.2 ?_⟩)
        rcases htext with rfl | hcheck
        · exact .inl hbreak
        · exact .inr ⟨text, hcheck, hbreak⟩

/-- The summary starts with the verdict. -/
theorem exists_rest (n : Nagios) : ∃ rest,
    n.summary.2 = (if n.errorOccurred then "BMAN CRITICAL" else "BMAN OK") ++ rest := by
  have hok : "BMAN OK - Ready to serve the backups for "
      = "BMAN OK" ++ " - Ready to serve the backups for " := rfl
  have herrors : "BMAN CRITICAL - errors reported" = "BMAN CRITICAL" ++ " - errors reported" := rfl
  have hservers : "BMAN CRITICAL - server " = "BMAN CRITICAL" ++ " - server " := rfl
  unfold summary
  rw [hok, herrors, hservers]
  cases n.errorOccurred with
  | false => exact ⟨_, by simp only [Bool.false_eq_true, if_false, String.append_assoc]; rfl⟩
  | true =>
    cases n.failing.isEmpty with
    | true => exact ⟨_, by simp only [if_true, String.append_assoc]; rfl⟩
    | false => exact ⟨_, by simp only [Bool.false_eq_true, if_true, if_false, String.append_assoc]; rfl⟩

end Nagios

/-! ## What a run writes -/

/-- **The summary is a single line iff no text that it shows has a line feed.** Nothing is written before the
    end, and at the end one text with a line feed behind it, which starts with the verdict. -/
theorem one_line_iff_none_shown_breaks (quiet : Bool) (ms : List Message) :
    ((Writer.new .nagios quiet).emitAll ms).2 = .empty ∧
    ∃ line : String, ((Writer.new .nagios quiet).run ms).2 = .line line ∧
      (∃ rest, line = (if failed ms then "BMAN CRITICAL" else "BMAN OK") ++ rest) ∧
      ('\n' ∉ line.toList ↔ ∀ text, Shown ms text → '\n' ∉ text.toList) := by
  have hnew : Writer.new .nagios quiet = .nagios .new := rfl
  have hoccurred := Nagios.errorOccurred_acceptAll ms
  have hmem := (Nagios.keeps_acceptAll ms).mem_summary_iff hoccurred
  refine ⟨by rw [hnew, Writer.emitAll_nagios], _, congrArg Prod.snd (run_nagios quiet ms), ?_, ?_⟩
  · rw [← hoccurred]
    exact Nagios.exists_rest _
  · rw [hmem]
    simp only [not_exists, not_and]

/-! ### A diagnostic with a hint -/

namespace HintedRule

/-- A recovery with one relocation rule, which is none. -/
def command : Command :=
  .recover ⟨"main", "latest", "dest", ⟨none, none, none, none, false⟩, ["b"], none, none, none⟩

/-- What that recovery reports; no server and no hook is asked. -/
def messages : List Message :=
  (command.execute ⟨Settings.new "bman.conf", [], []⟩
    (Storage.services .idle) .utc default).messages

end HintedRule

open HintedRule in
/-- The hint of a diagnostic is in a second line, which a monitoring system does not read. -/
theorem hint_is_in_second_line :
    messages = [.error (UserError.malformedRule "b").message] ∧
    ((Writer.new .nagios false).run messages).2.out
      = "BMAN CRITICAL - errors reported * Invalid tablespace relocation rule 'b'\n" ++
        "HINT: The valid syntax for a relocation rule is NAME:LOCATION\n" ∧
    ∃ line : String, ((Writer.new .nagios false).run messages).2 = .line line ∧ '\n' ∈ line.toList := by
  have hmessages : messages = [.error (UserError.malformedRule "b").message] := by decide +kernel
  refine ⟨hmessages, by decide +kernel, ?_⟩
  obtain ⟨-, line, hline, -, hone⟩ := one_line_iff_none_shown_breaks false messages
  refine ⟨line, hline, Decidable.not_not.1 fun hbreak => ?_⟩
  refine hone.1 hbreak (UserError.malformedRule "b").message ?_ (by decide)
  rw [hmessages]
  exact .inl (by decide)

end BackupFleet
