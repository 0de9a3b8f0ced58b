/-!
# `BackupFleet.Report.Message` — what a command reports

A command tells its user five kinds of things. A run of a command is judged by them alone: it has
failed iff some message is an error or a check that was not passed.

## Contents

* `Message` — the kinds;
* `Message.isFailure`, `failed` — the judgement.
-/

namespace BackupFleet

/-- One message: what goes on, what looks wrong, what went wrong, a line of the answer, or the outcome of
    one check of a server, with a hint that may be empty. -/
inductive Message where
  | info (text : String)
  | warning (text : String)
  | error (text : String)
  | result (line : String)
  | check (server name : String) (ok : Bool) (hint : String)
deriving DecidableEq, Repr

/-- The message makes the run a failure. -/
def Message.isFailure : Message → Bool
  | .error _ => true
  | .check _ _ ok _ => !ok
  | _ => false

/-- A run that reported these messages has failed. -/
def failed (messages : List Message) : Bool := messages.any Message.isFailure

@[simp] theorem failed_nil : failed [] = false := rfl

@[simp] theorem failed_cons (m : Message) (ms : List Message) :
    failed (m :: ms) = (m.isFailure || failed ms) := rfl

@[simp] theorem failed_append (a b : List Message) : failed (a ++ b) = (failed a || failed b) := by
  simp [failed]

end BackupFleet
