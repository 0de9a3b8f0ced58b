import BackupFleet.Report.Message
import BackupFleet.Report.Written

/-!
# `BackupFleet.Report.Console` — messages for a reader at a terminal

Each message is written at once: answers and progress on the standard output, warnings and errors on the
standard error. A quiet console leaves out the progress. Checks are grouped: a line that names the server
stands before the checks of one server that follow each other.

## Contents

* `Console` — what has to be remembered between messages;
* `Console.text` — what one message writes;
* `Console.accept`, `Console.exitCode` — the message taken in, and the verdict at the end.
-/

namespace BackupFleet

/-- Whether progress is left out, whether a failure was reported, and the server of the last check. -/
structure Console where
  quiet : Bool
  errorOccurred : Bool
  lastChecked : Option String
deriving DecidableEq, Repr

namespace Console

/-- A console before the first message. -/
def new (quiet : Bool) : Console := ⟨quiet, false, none⟩

/-- The line of a check. -/
def checkLine (name : String) (ok : Bool) (hint : String) : String :=
  let status := if ok then "OK" else "FAILED"
  if hint = "" then "\t" ++ name ++ ": " ++ status
  else "\t" ++ name ++ ": " ++ status ++ " (" ++ hint ++ ")"

/-- What a message writes. -/
def text (c : Console) : Message → Written
  | .info t => if c.quiet then .empty else .line t
  | .warning t => .errorLine ("WARNING: " ++ t)
  | .error t => .errorLine ("ERROR: " ++ t)
  | .result t => .line t
  | .check server name ok hint =>
    if c.lastChecked = some server then .line (checkLine name ok hint)
    else .line ("Server " ++ server ++ ":") ++ .line (checkLine name ok hint)

/-- The console after a message. -/
def accept (c : Console) (m : Message) : Console :=
  { c with
    errorOccurred := c.errorOccurred || m.isFailure
    lastChecked := match m with
      | .check server _ _ _ => some server
      | _ => c.lastChecked }

/-- 1 after a failure. -/
def exitCode (c : Console) : Nat := if c.errorOccurred then 1 else 0

end Console

end BackupFleet
