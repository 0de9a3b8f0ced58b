import BackupFleet.Proofs.Storage.Backup
import Mathlib.Data.ENat.Lattice

/-!
# `BackupFleet.Proofs.Hook.Retry` — how often a hook is run

Without a limit, the runs of a hook that is tried again would make one endless sequence: each starts where
the run before it and the pause after that have led. What is done is the beginning of this sequence, up to
its first success or to the last retry. So it is enough to find the last run; the runs and pauses before it
can be noted without being disturbed, and the count of them fits into any word that the limit fits into.

Main statement: `hook_run_until_success`.

## Contents

* `startOf`, `failures` — the endless sequence, and the failures at its beginning;
* `LastRun`, `exists_lastRun` — the run that is the last one, and what comes of it;
* `watched`, `course`, `retry_watched` — runs and pauses, noted as they happen;
* `retryCounted_eq` — retries counted in words of 32 bits;
* `counts_runHook`, `counts_startOf` — the hooks that were started, and the pauses.
-/

namespace BackupFleet

namespace Effect

variable {ε σ α : Type}

/-! ## Runs without a limit -/

section Runs

variable (x : EStateM ε σ α) (pause : Nat → σ → σ) (s : σ)

/-- The state in which the run after `k` failures starts, if there is no limit. -/
def startOf : (k : Nat) → σ
  | 0 => s
  | k + 1 => pause (k + 1) (after x (startOf k))

/-- The number of runs that fail before one succeeds, if there is no limit. -/
noncomputable def failures : ℕ∞ :=
  ⨅ (k : Nat) (_ : succeeds x (startOf x pause s k) = true), (k : ℕ∞)

/-- The run after `k` failures is made, and no other one after it: it succeeds, or there were all retries. -/
structure LastRun (times k : Nat) : Prop where
  le : k ≤ times
  fails : ∀ j < k, succeeds x (startOf x pause s j) = false
  stops : k = times ∨ succeeds x (startOf x pause s k) = true

end Runs

section LastRun

variable {x : EStateM ε σ α} {pause : Nat → σ → σ} {s : σ} {times k : Nat}

theorem le_failures (h : ∀ j < k, succeeds x (startOf x pause s j) = false) :
    (k : ℕ∞) ≤ failures x pause s := by
  refine le_iInf₂ fun j hj => Nat.cast_le.2 (Nat.not_lt.1 fun hlt => ?_)
  rw [h j hlt] at hj
  cases hj

theorem failures_le (h : succeeds x (startOf x pause s k) = true) : failures x pause s ≤ k :=
  iInf₂_le k h

namespace LastRun

/-- **The last run comes after as many failures as there are, or as there are retries.** -/
theorem eq_min (h : LastRun x pause s times k) : (k : ℕ∞) = min (failures x pause s) times := by
  refine le_antisymm (le_min (le_failures h.fails) (Nat.cast_le.2 h.le)) ?_
  rcases h.stops with rfl | hsucceeds
  · exact min_le_right _ _
  · exact (min_le_left _ _).trans (failures_le hsucceeds)

theorem unique {k' : Nat} (h : LastRun x pause s times k) (h' : LastRun x pause s times k') : k = k' :=
  Nat.cast_injective (h.eq_min.trans h'.eq_min.symm)

/-- It succeeds iff there are no more failures than retries. -/
theorem succeeds_iff (h : LastRun x pause s times k) :
    succeeds x (startOf x pause s k) = true ↔ failures x pause s ≤ times := by
  refine ⟨fun hsucceeds => (failures_le hsucceeds).trans (Nat.cast_le.2 h.le), fun hle => ?_⟩
  by_contra hfails
  obtain rfl := h.stops.resolve_right hfails
  -- With this run there is one more failure than there are retries.
  have hmore : ((k + 1 : Nat) : ℕ∞) ≤ failures x pause s := le_failures fun j hj => by
    rcases Nat.lt_succ_iff_lt_or_eq.1 hj with hlt | rfl
    · exact h.fails j hlt
    · exact Bool.eq_false_iff.2 hfails
  exact absurd (Nat.cast_le.1 (hmore.trans hle)) (Nat.not_succ_le_self k)

end LastRun

/-- From a state that was reached by failures alone, trying again leads to the last run. -/
theorem exists_lastRun_from (attempt : Nat) (t : σ) (ht : t = startOf x pause s attempt)
    (hle : attempt ≤ times) (hfails : ∀ j < attempt, succeeds x (startOf x pause s j) = false) :
    ∃ k, LastRun x pause s times k ∧
      retryFrom x pause times attempt t = x (startOf x pause s k) := by
  induction attempt, t using retryFrom.induct x pause times with
  | case1 attempt t a t' hs =>
    rw [ht] at hs
    exact ⟨attempt, ⟨hle, hfails, .inr (succeeds_of_ok hs)⟩, by rw [ht, retryFrom_of_ok hs, hs]⟩
  | case2 attempt t e t' hs hlt ih =>
    rw [retryFrom_of_lt hs hlt]
    rw [ht] at hs
    refine ih (by rw [startOf, after_of_error hs]) hlt fun j hj => ?_
    rcases Nat.lt_succ_iff_lt_or_eq.1 hj with hbefore | rfl
    · exact hfails j hbefore
    · exact succeeds_of_error hs
  | case3 attempt t e t' hs hlt =>
    rw [ht] at hs
    exact ⟨attempt, ⟨hle, hfails, .inl (Nat.le_antisymm hle (Nat.not_lt.1 hlt))⟩,
      by rw [ht, retryFrom_of_not_lt hs hlt, hs]⟩

/-- **Trying again gives what the last run gives.** -/
theorem exists_lastRun (x : EStateM ε σ α) (pause : Nat → σ → σ) (times : Nat) (s : σ) :
    ∃ k, LastRun x pause s times k ∧ retry x pause times s = x (startOf x pause s k) :=
  exists_lastRun_from 0 s rfl (Nat.zero_le _) fun _ hj => absurd hj (Nat.not_lt_zero _)

end LastRun

/-! ## Runs and pauses as they happen -/

/-- What happens while an action is tried again: it is run, and succeeds or fails; or there is a pause, with
    the count of retries so far. -/
inductive RetryEvent where
  | run (succeeded : Bool)
  | pause (attempt : Nat)
deriving DecidableEq, Repr

namespace RetryEvent

/-- The event is a run. -/
def isRun : RetryEvent → Bool
  | run _ => true
  | pause _ => false

end RetryEvent

/-- The action, with its run noted. -/
def watched (x : EStateM ε σ α) : EStateM ε (σ × List RetryEvent) α := fun w =>
  match x w.1 with
  | .ok a s => .ok a (s, w.2 ++ [.run true])
  | .error e s => .error e (s, w.2 ++ [.run false])

/-- A pause, noted with the count of retries. -/
def watchedPause (pause : Nat → σ → σ) (attempt : Nat) (w : σ × List RetryEvent) : σ × List RetryEvent :=
  (pause attempt w.1, w.2 ++ [.pause attempt])

/-- Runs that fail, each with the pause after it, up to the pause before retry `k`. -/
def failedRuns : (k : Nat) → List RetryEvent
  | 0 => []
  | k + 1 => failedRuns k ++ [.run false, .pause (k + 1)]

/-- The course of an action that is tried again `k` times: there is one pause between a run and the next, and
    none after the last. -/
def course (k : Nat) (succeeded : Bool) : List RetryEvent := failedRuns k ++ [.run succeeded]

theorem countP_isRun_course (k : Nat) (succeeded : Bool) :
    (course k succeeded).countP RetryEvent.isRun = k + 1 := by
  have hfailed : (failedRuns k).countP RetryEvent.isRun = k := by
    induction k with
    | zero => rfl
    | succ k ih =>
      rw [failedRuns, List.countP_append, ih]
      rfl
  rw [course, List.countP_append, hfailed]
  rfl

/-- The pauses are counted from one on, up to the number of retries. -/
theorem pause_mem_course_iff {k attempt : Nat} {succeeded : Bool} :
    .pause attempt ∈ course k succeeded ↔ 0 < attempt ∧ attempt ≤ k := by
  have hfailed : .pause attempt ∈ failedRuns k ↔ 0 < attempt ∧ attempt ≤ k := by
    induction k with
    | zero => simp [failedRuns]; omega
    | succ k ih =>
      simp only [failedRuns, List.mem_append, ih, List.mem_cons, List.not_mem_nil, reduceCtorEq,
        RetryEvent.pause.injEq, false_or, or_false]
      omega
  rw [course, List.mem_append, hfailed]
  simp

section Watched

variable {x : EStateM ε σ α} {pause : Nat → σ → σ} {s : σ} {times k : Nat}

theorem succeeds_watched (w : σ × List RetryEvent) : succeeds (watched x) w = succeeds x w.1 := by
  unfold succeeds watched
  cases x w.1 <;> rfl

theorem after_watched (w : σ × List RetryEvent) :
    after (watched x) w = (after x w.1, w.2 ++ [.run (succeeds x w.1)]) := by
  unfold after succeeds watched
  cases x w.1 <;> rfl

/-- Watching is no part of what goes on. -/
theorem mirrors_watched : Mirrors Prod.fst (watched x) x := by
  intro w
  unfold watched seen
  cases x w.1 <;> rfl

/-- After `k` failures, these and the pauses between them are noted. -/
theorem startOf_watched (hfails : ∀ j < k, succeeds x (startOf x pause s j) = false) :
    startOf (watched x) (watchedPause pause) (s, []) k = (startOf x pause s k, failedRuns k) := by
  induction k with
  | zero => rfl
  | succ k ih =>
    rw [startOf, ih fun j hj => hfails j (Nat.lt_succ_of_lt hj), after_watched, watchedPause,
      hfails k (Nat.lt_succ_self k), List.append_assoc]
    rfl

/-- The last run is the last one under watch, too. -/
theorem LastRun.watched (h : LastRun x pause s times k) :
    LastRun (Effect.watched x) (watchedPause pause) (s, []) times k where
  le := h.le
  fails := fun j hj => by
    rw [startOf_watched fun i hi => h.fails i (hi.trans hj), succeeds_watched]
    exact h.fails j hj
  stops := by
    rw [startOf_watched h.fails, succeeds_watched]
    exact h.stops

/-- **Trying again takes its course**: what is noted is as many failures as retries, a pause after each of
    them, and the last run; apart from that, everything is as it is otherwise. -/
theorem retry_watched (h : LastRun x pause s times k) :
    retry x pause times s = seen Prod.fst (retry (watched x) (watchedPause pause) times (s, [])) ∧
      (after (retry (watched x) (watchedPause pause) times) (s, [])).2
        = course k (succeeds (retry x pause times) s) := by
  obtain ⟨j, hj, hretry⟩ := exists_lastRun x pause times s
  obtain ⟨i, hi, hwatched⟩ := exists_lastRun (watched x) (watchedPause pause) times (s, [])
  rw [hj.unique h] at hretry
  rw [hi.unique h.watched, startOf_watched h.fails] at hwatched
  constructor
  · rw [hretry, hwatched]
    exact mirrors_watched (startOf x pause s k, failedRuns k)
  · rw [after_congr hwatched, after_watched, succeeds_congr hretry, course]

end Watched

/-! ## Counting in words -/

/-- A count below another one has a successor. -/
theorem toNat_succ_of_lt {attempt times : UInt32} (h : attempt < times) :
    (attempt + 1).toNat = attempt.toNat + 1 := by
  have hlt : attempt.toNat < times.toNat := h
  have hbound := times.toNat_lt
  rw [UInt32.toNat_add, UInt32.toNat_one]
  exact Nat.mod_eq_of_lt (by omega)

/-- Trying again with a count of 32 bits, where zero follows the greatest number. -/
def retryCountedFrom (x : EStateM ε σ α) (pause : (attempt : UInt32) → σ → σ) (times attempt : UInt32) :
    EStateM ε σ α := fun s =>
  match x s with
  | .ok a s => .ok a s
  | .error e s =>
    if attempt < times then retryCountedFrom x pause times (attempt + 1) (pause (attempt + 1) s)
    else .error e s
termination_by times.toNat - attempt.toNat
decreasing_by
  rename_i h
  have hlt : attempt.toNat < times.toNat := h
  rw [toNat_succ_of_lt h]
  omega

/-- Trying again with a count of 32 bits, from zero on. -/
def retryCounted (x : EStateM ε σ α) (pause : (attempt : UInt32) → σ → σ) (times : UInt32) :
    EStateM ε σ α :=
  retryCountedFrom x pause times 0

/-- **The count never comes to the end of its word**, so words count retries as numbers do. -/
theorem retryCounted_eq (x : EStateM ε σ α) (pause : Nat → σ → σ) (times : UInt32) :
    retryCounted x (fun attempt => pause attempt.toNat) times = retry x pause times.toNat := by
  suffices h : ∀ attempt s, retryCountedFrom x (fun attempt => pause attempt.toNat) times attempt s
      = retryFrom x pause times.toNat attempt.toNat s from funext (h 0)
  intro attempt s
  induction attempt, s using retryCountedFrom.induct x (fun attempt => pause attempt.toNat) times with
  | case1 attempt s a s' hs => rw [retryCountedFrom, hs, retryFrom_of_ok hs]
  | case2 attempt s e s' hs hlt ih =>
    have hcount : attempt.toNat < times.toNat := hlt
    rw [toNat_succ_of_lt hlt] at ih
    rw [retryCountedFrom, hs, retryFrom_of_lt hs hcount, ← ih]
    dsimp only
    rw [if_pos hlt, toNat_succ_of_lt hlt]
  | case3 attempt s e s' hs hlt =>
    have hcount : ¬attempt.toNat < times.toNat := hlt
    rw [retryCountedFrom, hs, retryFrom_of_not_lt hs hcount]
    exact if_neg hlt

end Effect

/-! ## Hooks -/

namespace Storage

open Effect

section Hooks

variable (hooks : HookRunner) (c : ServerConfig) (command : String) (parameters : List (String × String))

/-- How many hooks are started when one is run: none if the call cannot be made. -/
def startsOf : Nat :=
  if HookCall.hasNul ⟨command, ("BMAN_SERVER", c.name) :: parameters⟩ then 0 else 1

/-- A hook that is run is counted if it is started, and it makes no pause. -/
theorem counts_runHook (h : Host) :
    (after (runHook hooks c command parameters) h).hookRuns = h.hookRuns + startsOf c command parameters ∧
      (after (runHook hooks c command parameters) h).pauses = h.pauses := by
  rw [after_runHook, startsOf]
  split
  · exact ⟨rfl, rfl⟩
  · exact ⟨rfl, rfl⟩

/-- The pauses before as many retries. -/
def pausesOf (seconds retries : Nat) : List Pause := (List.range retries).map fun k => ⟨k + 1, seconds⟩

theorem counts_startOf (seconds : Nat) (h : Host) (k : Nat) :
    (startOf (runHook hooks c command parameters) (Host.pause seconds) h k).hookRuns
        = h.hookRuns + k * startsOf c command parameters ∧
      (startOf (runHook hooks c command parameters) (Host.pause seconds) h k).pauses
        = h.pauses ++ pausesOf seconds k := by
  induction k with
  | zero => exact ⟨by rw [startOf, Nat.zero_mul, Nat.add_zero], (List.append_nil _).symm⟩
  | succ k ih =>
    obtain ⟨hruns, hpauses⟩ := counts_runHook hooks c command parameters
      (startOf (runHook hooks c command parameters) (Host.pause seconds) h k)
    rw [ih.1, Nat.add_assoc, ← Nat.succ_mul] at hruns
    rw [ih.2] at hpauses
    refine ⟨hruns, ?_⟩
    rw [startOf, Host.pause, hpauses, List.append_assoc, pausesOf, pausesOf, List.range_succ, List.map_append]
    rfl

/-- **A hook is run until it succeeds, or until there are no more retries.**

    Let `f` be the number of failures before the first success if a hook is run again and again, each run
    finding what the one before it has left; `f` may be infinite. Of these runs the first `1 + min f times`
    are made, with one pause between a run and the next and none after the last. What comes of the last one is
    the answer and the state afterwards, and it is a success iff there are no more failures than retries.
    Each of these runs starts a hook, or none does, if the call cannot be made. The count of retries, which
    every pause is told, stays below the end of a word of 32 bits; with such words for counts everything is
    the same. -/
theorem hook_run_until_success (times : UInt32) (seconds : Nat) (h : Host) :
    let hook := runHook hooks c command parameters
    let hookWithRetry := runHookWithRetry hooks c command parameters times.toNat seconds
    let f := failures hook (Host.pause seconds) h
    let watchedWithRetry := retry (watched hook) (watchedPause (Host.pause seconds)) times.toNat
    let log := (after watchedWithRetry (h, [])).2
    ∃ retries : Nat,
      (retries : ℕ∞) = min f times.toNat ∧
      hookWithRetry h = hook (startOf hook (Host.pause seconds) h retries) ∧
      (succeeds hookWithRetry h = true ↔ f ≤ times.toNat) ∧
      (after hookWithRetry h).hookRuns = h.hookRuns + (1 + retries) * startsOf c command parameters ∧
      (after hookWithRetry h).pauses = h.pauses ++ pausesOf seconds retries ∧
      hookWithRetry h = seen Prod.fst (watchedWithRetry (h, [])) ∧
      log = course retries (succeeds hookWithRetry h) ∧
      (log.countP RetryEvent.isRun : ℕ∞) = 1 + min f times.toNat ∧
      (∀ attempt, .pause attempt ∈ log → attempt < UInt32.size) ∧
      retryCounted (watched hook) (fun attempt => watchedPause (Host.pause seconds) attempt.toNat) times
        = watchedWithRetry := by
  intro hook hookWithRetry f watchedWithRetry log
  obtain ⟨retries, hlast, hanswer⟩ := exists_lastRun hook (Host.pause seconds) times.toNat h
  have hend : hookWithRetry h = hook (startOf hook (Host.pause seconds) h retries) := hanswer
  have hlog : log = course retries (succeeds hookWithRetry h) := (retry_watched hlast).2
  obtain ⟨hrunsBefore, hpausesBefore⟩ := counts_startOf hooks c command parameters seconds h retries
  obtain ⟨hruns, hpauses⟩ := counts_runHook hooks c command parameters
    (startOf hook (Host.pause seconds) h retries)
  rw [hrunsBefore] at hruns
  rw [hpausesBefore] at hpauses
  refine ⟨retries, hlast.eq_min, hend, ?_, ?_, ?_, (retry_watched hlast).1, hlog, ?_, fun attempt hpause => ?_,
    retryCounted_eq _ _ _⟩
  · rw [succeeds_congr hend]
    exact hlast.succeeds_iff
  · rw [after_congr hend, hruns, Nat.add_assoc, Nat.one_add, Nat.succ_mul]
  · rw [after_congr hend, hpauses]
  · rw [hlog, countP_isRun_course, Nat.add_comm, Nat.cast_add, Nat.cast_one, hlast.eq_min]
  · rw [hlog] at hpause
    exact ((pause_mem_course_iff.1 hpause).2.trans hlast.le).trans_lt times.toNat_lt

end Hooks

/-- Three retries are more than a hook takes that succeeds in its third run. -/
example :
    let hooks : HookRunner := fun run _ fs => (⟨.code (if run < 2 then 1 else 0), [], []⟩, fs.tree)
    let hookWithRetry := runHookWithRetry hooks (ServerConfig.new "main" "srv") "pg_backup" [] 3 30
    (after hookWithRetry default).hookRuns = 3 ∧ (after hookWithRetry default).pauses = [⟨1, 30⟩, ⟨2, 30⟩] := by
  decide +kernel

end Storage

end BackupFleet
