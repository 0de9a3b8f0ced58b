import BackupFleet.FileSystem.Basic

/-!
# `BackupFleet.Hook.Outcome` — running a hook and how it ends

Copying and restoring are done by commands of the configuration, the hooks. A hook is a shell command
that gets its parameters in environment variables, may change files, and ends with a status and with
what it wrote. What such a command does is not the catalog's concern: a `HookRunner` is any function that
answers calls.

## Contents

* `ExitStatus`, `ExitStatus.text` — how a process ends;
* `HookCall`, `HookOutcome`, `HookRunner` — the interface;
* `HookRunner.idle` — hooks that do nothing.
-/

namespace BackupFleet

/-- A process ends with a code or by a signal. -/
inductive ExitStatus where
  | code (n : Nat)
  | signal (n : Nat)
deriving DecidableEq, Repr

namespace ExitStatus

/-- The names of the signals from 1 on. -/
def signalNames : List String :=
  ["SIGHUP", "SIGINT", "SIGQUIT", "SIGILL", "SIGTRAP", "SIGABRT", "SIGBUS", "SIGFPE", "SIGKILL",
    "SIGUSR1", "SIGSEGV", "SIGUSR2", "SIGPIPE", "SIGALRM", "SIGTERM", "SIGSTKFLT", "SIGCHLD", "SIGCONT",
    "SIGSTOP", "SIGTSTP", "SIGTTIN", "SIGTTOU", "SIGURG", "SIGXCPU", "SIGXFSZ", "SIGVTALRM", "SIGPROF",
    "SIGWINCH", "SIGIO", "SIGPWR", "SIGSYS"]

/-- The process succeeded. -/
def success : ExitStatus → Bool
  | code 0 => true
  | _ => false

/-- How an end is told. -/
def text : ExitStatus → String
  | code n => "exit status: " ++ toString n
  | signal n =>
    "signal: " ++ toString n ++ match signalNames[n - 1]? with
      | some name => " (" ++ name ++ ")"
      | none => ""

end ExitStatus

/-- A shell command, and environment variables that are set for it. -/
structure HookCall where
  command : String
  environment : List (String × String)
deriving DecidableEq, Repr

/-- How a hook ended, and what it wrote. -/
structure HookOutcome where
  status : ExitStatus
  out : Bytes
  err : Bytes
deriving DecidableEq

/-- What hooks do: the outcome of a call and the tree after it. Runs are numbered, since the same call need
    not end the same way again. -/
abbrev HookRunner := (run : Nat) → HookCall → FileSystem → HookOutcome × FileTree

/-- Hooks succeed, write nothing and change nothing. -/
def HookRunner.idle : HookRunner := fun _ _ fs => (⟨.code 0, [], []⟩, fs.tree)

end BackupFleet
