import BackupFleet.Diagnostic.UserError
import BackupFleet.Text.Numeral
import BackupFleet.Time.Reader

/-!
# `BackupFleet.Recovery.Target` — the point a recovery stops at

A recovery replays changes up to a time, a transaction or a named restore point; at most one of them may
be given. `exclusive` stops just before the point and needs a time or a transaction. The checks are made
in a fixed order: how the parts combine, then the time, then the transaction.

## Contents

* `TargetRequest` — the parts as the user gives them;
* `Target` — the point;
* `TargetProblem`, `TargetRequest.read` — the checks, and what they find.
-/

namespace BackupFleet.Recovery

/-! ## Points -/

/-- The parts as they were given, unread. -/
structure TargetRequest where
  timeline : Option Nat
  time : Option String
  transaction : Option String
  name : Option String
  exclusive : Bool
deriving DecidableEq, Repr

/-- A point to stop at; without a time, a transaction and a name, the end of the timeline. -/
structure Target where
  timeline : Option Nat
  time : Option Time.Stamp
  transaction : Option Nat
  name : Option String
  exclusive : Bool
deriving DecidableEq

/-! ## Reading -/

/-- What can be wrong with the parts. -/
inductive TargetProblem where
  | severalStops
  | exclusiveAlone
  | badTime (text : String)
  | badTransaction (text : String)
deriving DecidableEq, Repr

/-- The wording of a problem. -/
def TargetProblem.message : TargetProblem → String
  | severalStops => "only one of --target-time, --target-xid and --target-name can be used"
  | exclusiveAlone => "--exclusive requires --target-time or --target-xid"
  | badTime text => "'" ++ text ++ "' is not a valid target time"
  | badTransaction text => "'" ++ text ++ "' is not a valid transaction ID"

/-- The error that is reported for a problem. -/
def TargetProblem.toUserError (p : TargetProblem) : UserError := .invalidTarget p.message

/-- A time without the blanks around it, on the clock of the zone if it has no offset. -/
def readTime (zone : Time.Zone) (text : String) : Except TargetProblem Time.Stamp :=
  let trimmed := Text.trim text.toList
  match Time.readTarget zone trimmed with
  | some stamp => .ok stamp
  | none => .error (.badTime (String.ofList trimmed))

/-- A transaction id: a positive number of 64 bits, with blanks around it allowed. -/
def readTransaction (text : String) : Except TargetProblem Nat :=
  match (Text.readUnsigned Text.bound64 (Text.trim text.toList)).filter (0 < ·) with
  | some n => .ok n
  | none => .error (.badTransaction text)

/-- A reader applied to a part that may be missing. -/
def readPart {α β ε : Type} (read : α → Except ε β) : Option α → Except ε (Option β)
  | none => .ok none
  | some a => (read a).map some

/-- How many of time, transaction and name are given. -/
def TargetRequest.stops (r : TargetRequest) : Nat :=
  [r.time.isSome, r.transaction.isSome, r.name.isSome].count true

/-- The point that the parts describe. -/
def TargetRequest.read (zone : Time.Zone) (r : TargetRequest) : Except TargetProblem Target :=
  if 1 < r.stops then .error .severalStops
  else if r.exclusive ∧ r.time = none ∧ r.transaction = none then .error .exclusiveAlone
  else do
    let time ← readPart (readTime zone) r.time
    let transaction ← readPart readTransaction r.transaction
    pure ⟨r.timeline, time, transaction, r.name, r.exclusive⟩

end BackupFleet.Recovery
