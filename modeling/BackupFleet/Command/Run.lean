import BackupFleet.Command.Basic
import BackupFleet.Command.Fleetwide
import BackupFleet.Command.SingleBackup

/-!
# `BackupFleet.Command.Run` — running a command

## Contents

* `Command.run` — what each command does;
* `Command.execute`, `Execution` — a run from its start, with all that came of it.
-/

namespace BackupFleet

/-- What a command does. Times without an offset are read on the clock of the zone. -/
def Command.run {σ : Type} (f : Fleet) (s : Services σ) (zone : Time.Zone) : Command → Run σ Unit
  | .listServer minimal => Run.listServer f minimal
  | .cron => Run.cron f s
  | .backup names overrides => Run.backup f s names overrides
  | .listBackup names minimal => Run.listBackup f s names minimal
  | .status names => Run.status f s names
  | .rebuildXlogdb names => Run.rebuildXlogdb f s names
  | .recover args => Run.recover f s zone args
  | .showServer names => Run.showServer f s names
  | .check names => Run.check f s names
  | .diagnose => Run.diagnose f s
  | .showBackup server id => Run.showBackup f s server id
  | .listFiles server id scope => Run.listFiles f s server id scope
  | .delete server id => Run.delete f s server id

/-- What came of a run: the messages, the world afterwards, and the fault that ended it, if one did. -/
structure Execution (σ : Type) where
  messages : List Message
  world : σ
  fault : Option Fault

/-- A command run in a world. -/
def Command.execute {σ : Type} (f : Fleet) (s : Services σ) (zone : Time.Zone) (c : Command)
    (world : σ) : Execution σ :=
  match c.run f s zone ⟨[], world⟩ with
  | .ok () session => ⟨session.messages, session.world, none⟩
  | .error fault session => ⟨session.messages, session.world, some fault⟩

end BackupFleet
