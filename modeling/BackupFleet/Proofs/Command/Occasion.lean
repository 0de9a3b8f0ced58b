import BackupFleet.Proofs.Command.Reach
import BackupFleet.Proofs.Storage.Host
import BackupFleet.Storage.Services

/-!
# `BackupFleet.Proofs.Command.Occasion` — commands that are run one after the other

Each command is run by a process of its own. All that one process leaves to the next are the files; the
clock it read, the hooks that answered it and the locks that others held are its own.

## Contents

* `Occasion`, `Occasion.execute`, `Occasion.filesAfter` — a command run on files;
* `Occasion.filesAfter_within` — what it does to the files.
-/

namespace BackupFleet

open Effect

/-- What a process finds besides the files: how hooks behave, the time zone, the clock, the lock files
    that other processes hold, and its own number. -/
structure Occasion where
  hooks : HookRunner
  zone : Time.Zone
  clock : Nat → Time.Moment
  heldLocks : List Location
  processId : Nat

namespace Occasion

/-- The machine with these files. -/
def host (o : Occasion) (fs : FileSystem) : Host := ⟨fs, o.clock, 0, o.heldLocks, o.processId, 0, []⟩

/-- A command, run on these files. -/
def execute (o : Occasion) (f : Fleet) (command : Command) (fs : FileSystem) : Execution Host :=
  command.execute f (Storage.services o.hooks) o.zone (o.host fs)

/-- The files that a command leaves, however it ends. -/
def filesAfter (o : Occasion) (f : Fleet) (command : Command) (fs : FileSystem) : FileSystem :=
  (o.execute f command fs).world.files

/-- What a command does to the world, it does to the files. -/
theorem filesAfter_within {o : Occasion} {f : Fleet} {command : Command}
    {R : FileSystem → FileSystem → Prop}
    (h : Run.WorldWithin (fun a b : Host => R a.files b.files)
      (command.run f (Storage.services o.hooks) o.zone)) (fs : FileSystem) :
    R fs (o.filesAfter f command fs) := by
  unfold filesAfter execute
  rw [Command.world_execute]
  exact h ⟨[], o.host fs⟩

end Occasion

end BackupFleet
