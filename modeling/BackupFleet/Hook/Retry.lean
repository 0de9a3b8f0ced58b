/-!
# `BackupFleet.Hook.Retry` — trying again after a failure

## Contents

* `retry`, `retryFrom` — an action, run again after a pause while it fails and the count of retries allows it;
* `retryFrom_of_ok`, `retryFrom_of_lt`, `retryFrom_of_not_lt` — one round of it.
-/

namespace BackupFleet

variable {ε σ α : Type}

/-- `action` after `attempt` retries: it is run again as long as it fails and there were fewer than `times`
    retries. A retry is counted, then there is a pause, which is told the new count, and then comes the run.
    The answer is that of the last run. -/
def retryFrom (action : EStateM ε σ α) (pause : (attempt : Nat) → σ → σ) (times attempt : Nat) :
    EStateM ε σ α := fun s =>
  match action s with
  | .ok a s => .ok a s
  | .error e s =>
    if attempt < times then retryFrom action pause times (attempt + 1) (pause (attempt + 1) s)
    else .error e s
termination_by times - attempt

/-- `action`, and up to `times` more runs of it as long as it fails, each after a pause. -/
def retry (action : EStateM ε σ α) (pause : (attempt : Nat) → σ → σ) (times : Nat) : EStateM ε σ α :=
  retryFrom action pause times 0

section

variable {action : EStateM ε σ α} {pause : Nat → σ → σ} {times attempt : Nat} {s s' : σ}

/-- A run that succeeds is the last one. -/
theorem retryFrom_of_ok {a : α} (hs : action s = .ok a s') :
    retryFrom action pause times attempt s = .ok a s' := by
  rw [retryFrom, hs]

/-- While retries are left, a failure is followed by a pause and another run. -/
theorem retryFrom_of_lt {e : ε} (hs : action s = .error e s') (h : attempt < times) :
    retryFrom action pause times attempt s
      = retryFrom action pause times (attempt + 1) (pause (attempt + 1) s') := by
  rw [retryFrom, hs]
  exact if_pos h

/-- With no retries left, a failure is the answer. -/
theorem retryFrom_of_not_lt {e : ε} (hs : action s = .error e s') (h : ¬attempt < times) :
    retryFrom action pause times attempt s = .error e s' := by
  rw [retryFrom, hs]
  exact if_neg h

end

end BackupFleet
