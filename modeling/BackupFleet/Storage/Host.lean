import BackupFleet.FileSystem.Change
import BackupFleet.Server.Service
import BackupFleet.Time.Moment

/-!
# `BackupFleet.Storage.Host` — the machine that backups are stored on

The services of this library work on a host: its files, its clock, the lock files that are held, and the
number of the running process. Time passes only between two readings of the clock.

## Contents

* `Host`, `Host.now` — the machine and its clock;
* `Pause`, `Host.pause` — waiting before a hook is run again;
* `Host.onFiles`, `Host.ask` — file operations and look-ups as parts of a service.
-/

namespace BackupFleet

/-- A pause before a retry: which retry it is, and the seconds waited. -/
structure Pause where
  attempt : Nat
  seconds : Nat
deriving DecidableEq, Repr

/-- A machine. `clock` gives the reading with each number, `readings` counts those that were made,
    `hookRuns` counts the hooks that were run, and `pauses` tells of the pauses between them. -/
structure Host where
  files : FileSystem
  clock : Nat → Time.Moment
  readings : Nat
  heldLocks : List Location
  processId : Nat
  hookRuns : Nat := 0
  pauses : List Pause := []

namespace Host

instance : Inhabited Host := ⟨⟨default, fun _ => .epoch, 0, [], 0, 0, []⟩⟩

/-- The next reading of the clock. -/
def now : Operation Host Time.Moment := fun h =>
  .ok (h.clock h.readings) { h with readings := h.readings + 1 }

/-- Waiting before a retry. How late it is then shows at the next reading of the clock. -/
def pause (seconds attempt : Nat) (h : Host) : Host := { h with pauses := h.pauses ++ [⟨attempt, seconds⟩] }

/-- A file operation. A failure is told with what was attempted and where. -/
def onFiles {α : Type} (attempt : Attempt) (path : String) (op : FileOp α) : Operation Host α := fun h =>
  match op h.files with
  | .ok a fs => .ok a { h with files := fs }
  | .error e fs => .error (.file attempt path e) { h with files := fs }

/-- A question about the files. -/
def ask {α : Type} (q : Question FileSystem α) : Operation Host α := fun h =>
  match q h.files with
  | .ok a => .ok a h
  | .error f => .error f h

end Host

/-- A look-up as a question. A failure is told with what was attempted and where. -/
def attemptTo {α : Type} (attempt : Attempt) (path : String) : Except FileError α → Except Fault α
  | .ok a => .ok a
  | .error e => .error (.file attempt path e)

end BackupFleet
