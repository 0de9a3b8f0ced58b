import BackupFleet.Order
import BackupFleet.Report.Message
import BackupFleet.Report.Written

/-!
# `BackupFleet.Report.Nagios` — messages for a monitoring system

A monitoring system reads one line and the exit code. Nothing is written before the end; what is kept are
the failed checks of each server and the errors, and `Nagios.summary` makes the line from them. A server
that was checked without a failure is kept with an empty list.

## Contents

* `Nagios`, `Nagios.accept` — what is kept of the messages;
* `Nagios.summary` — the exit code and the line.
-/

namespace BackupFleet

/-- The failed checks of each checked server, in the order of the checks, and the errors. -/
structure Nagios where
  failures : OrderedMap (List String)
  errors : List String

namespace Nagios

/-- Before the first message. -/
def new : Nagios := ⟨.empty, []⟩

/-- Exit code of a healthy fleet. -/
def okCode : Nat := 0

/-- Exit code after any failure. -/
def criticalCode : Nat := 2

/-- What is kept after a message. -/
def accept (n : Nagios) : Message → Nagios
  | .error t => { n with errors := n.errors ++ [t] }
  | .check server name ok _ =>
    -- A check that succeeds still enters its server, with no failure.
    let before := (n.failures.get? server).getD []
    { n with failures := n.failures.insert server (if ok then before else before ++ [name]) }
  | _ => n

/-- The servers with failed checks, ascending, each with these checks. -/
def failing (n : Nagios) : List (String × List String) := n.failures.entries.filter (·.2 ≠ [])

/-- A failure was reported. -/
def errorOccurred (n : Nagios) : Bool := !n.errors.isEmpty || !n.failing.isEmpty

/-- `" * "` before each of the texts. -/
def starred (texts : List String) : String := String.join (texts.map (" * " ++ ·))

/-- A server with its failed checks. -/
def failureText (f : String × List String) : String :=
  f.1 ++ ": FAILED (" ++ ", ".intercalate f.2 ++ ")"

/-- The exit code and the line. -/
def summary (n : Nagios) : Nat × String :=
  if n.errorOccurred then
    let head :=
      if n.failing.isEmpty then "BMAN CRITICAL - errors reported"
      else "BMAN CRITICAL - server " ++ ", ".intercalate (n.failing.map (·.1)) ++ " has issues"
    (criticalCode, head ++ starred (n.failing.map failureText) ++ starred n.errors)
  else
    (okCode, "BMAN OK - Ready to serve the backups for " ++ toString n.failures.entries.length ++
      " server(s)" ++ starred n.failures.keys)

end Nagios

end BackupFleet
