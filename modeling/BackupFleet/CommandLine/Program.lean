import BackupFleet.CommandLine.Invocation
import BackupFleet.Command.Run
import BackupFleet.Config.Load
import BackupFleet.Shell.Run
import BackupFleet.Storage.Services

/-!
# `BackupFleet.CommandLine.Program` — a whole run of the program

A run reads its configuration, performs its command and reports to one writer. A fault, of the
configuration or of the command, is reported last; the exit code is the verdict of the writer.

## Contents

* `Execution.report` — all that is reported of a command;
* `Invocation.run` — a run of what has been asked for;
* `runProgram` — a run from the words of the command line.
-/

namespace BackupFleet

/-- What a run leaves behind. -/
structure Outcome where
  exit : Nat
  written : Written
  host : Host

/-! ## What is asked for -/

/-- How a fault is reported. -/
def faultMessage (f : Fault) : Message := .error (f.chain ++ "\nSee log file for more details.")

/-- All that is reported of a command. -/
def Execution.report {σ : Type} (e : Execution σ) : List Message :=
  e.messages ++ (e.fault.map faultMessage).toList

/-- The log file is there from the start, if it can be opened at all. -/
def openLog (settings : Settings) (h : Host) : Host :=
  match settings.logFile with
  | none => h
  | some path =>
    match FileSystem.openAppend path h.files with
    | .ok _ files | .error _ files => { h with files }

namespace Invocation

/-- The fleet that the configuration describes. -/
def load (i : Invocation) (home : Option String) (h : Host) : Except Fault Fleet := do
  Fleet.load h.files (← findConfiguration i.config home h.files)

/-- The messages of a run, and the host afterwards. -/
def perform (i : Invocation) (hooks : HookRunner) (zone : Time.Zone) (home : Option String) (h : Host) :
    List Message × Host :=
  match i.load home h with
  | .error f => ([faultMessage f], h)
  | .ok fleet =>
    -- The log file is opened even if the command then has nothing to do.
    let e := i.command.execute fleet (Storage.services hooks) zone (openLog fleet.settings h)
    (e.report, e.world)

/-- A run of what has been asked for. -/
def run (i : Invocation) (hooks : HookRunner) (zone : Time.Zone) (home : Option String) (h : Host) :
    Outcome :=
  let (messages, host) := i.perform hooks zone home h
  let (exit, written) := (Writer.new i.format i.quiet).run messages
  ⟨exit, written, host⟩

end Invocation

/-! ## The program -/

/-- How the program is called. -/
def helpText : String :=
  "Usage: bman [OPTIONS] <COMMAND>\n\nCommands:" ++
    String.join (CommandLine.outerLevel.commands.map ("\n  " ++ ·))

/-- The name of the program and its version. -/
def versionText : String := "bman 0.1.0"

/-- Exit code after a command line that is not understood. -/
def usageCode : Nat := 2

/-- What is done where there is nothing to run. -/
def CommandLine.Stop.outcome (h : Host) : CommandLine.Stop → Outcome
  | mistake e => ⟨usageCode, .errorLine ("error: " ++ e.message), h⟩
  | noWords => ⟨usageCode, .errorLine helpText, h⟩
  | help => ⟨0, .line helpText, h⟩
  | version => ⟨0, .line versionText, h⟩

/-- The variable that names the configuration file. -/
def configVariable : String := "BMAN_CONFIG_FILE"

/-- A run with these words, in an environment that hooks inherit. -/
def runProgram (environment : List (String × String)) (words : List String) (h : Host) : Outcome :=
  match Invocation.read (environment.lookup configVariable) words with
  | .error stop => stop.outcome h
  | .ok i =>
    let zone := ((environment.lookup "TZ").map Time.Zone.ofPosix).getD .utc
    i.run (Shell.hooks environment) zone (environment.lookup "HOME") h

end BackupFleet
