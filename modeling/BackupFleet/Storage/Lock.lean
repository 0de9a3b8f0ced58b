import BackupFleet.Storage.Host

/-!
# `BackupFleet.Storage.Lock` — the maintenance lock

Only one process at a time does maintenance. A process holds the lock by holding a file in the lock
directory; the file contains the number of the process. The lock belongs to the file, whatever path leads
to it, and it is free again when its holder lets it go or ends.

## Contents

* `lockPath` — the lock file of a directory;
* `acquire`, `release` — taking the lock without waiting, and letting it go;
* `holding`, `exclusively` — an operation that runs while the lock is held.
-/

namespace BackupFleet

namespace Lock

/-- The lock file of a directory. -/
def lockPath (directory : String) : String := Path.join directory ".cron.lock"

/-- The lock file opened, and created with its directory if it is missing; its location. -/
def openFile (path : String) : FileOp Location := do
  FileSystem.makeParents path
  let handle ← FileSystem.openAppend path
  pure handle.location

/-- What a held lock file contains. -/
def contentFor (processId : Nat) : Bytes := Text.encode (Text.decimal processId ++ ['\n'])

/-- The lock of a directory, if it is free and its file may be created. -/
def acquire (directory : String) : Operation Host Acquisition := fun h =>
  let path := lockPath directory
  match openFile path h.files with
  | .error .permissionDenied fs => .ok (.denied path) { h with files := fs }
  | .error e fs => .error (.file .openLock path e) { h with files := fs }
  | .ok l fs =>
    -- Opening a held file changes nothing in it; only the holder writes.
    if l ∈ h.heldLocks then .ok .busy { h with files := fs }
    else
      let content := contentFor h.processId
      .ok (.held l)
        { h with files := fs.withTree (fs.tree.put l (.file content)), heldLocks := l :: h.heldLocks }

/-- A host on which a lock file is not held any more. -/
def release (l : Location) (h : Host) : Host := { h with heldLocks := h.heldLocks.erase l }

end Lock

/-- What comes of an operation that needs the lock. -/
inductive LockOutcome (α : Type) where
  | completed (a : α)
  | alreadyRunning
  | permissionDenied (path : String)
deriving DecidableEq, Repr

/-- `body`, with a lock let go after it however it ends. -/
def Lock.holding {α : Type} (l : Location) (body : Operation Host α) : Operation Host α := fun h =>
  match body h with
  | .ok a h => .ok a (Lock.release l h)
  | .error f h => .error f (Lock.release l h)

/-- `body`, run while the lock of a directory is held. -/
def Lock.exclusively {α : Type} (directory : String) (body : Operation Host α) :
    Operation Host (LockOutcome α) := do
  match ← Lock.acquire directory with
  | .busy => pure .alreadyRunning
  | .denied path => pure (.permissionDenied path)
  | .held l => return .completed (← Lock.holding l body)

end BackupFleet
