import BackupFleet.Report.Message
import BackupFleet.Server.Service
import BackupFleet.Target.Resolution

/-!
# `BackupFleet.Command.Session` — a command while it runs

A running command reports messages and uses services. Its state is what it has reported so far and the
world of the services; a fault ends it and leaves both as they are.

## Contents

* `Session`, `Run` — the state, and steps of a command;
* `say`, `perform`, `ask` — the three kinds of steps;
* `forEachAdmitted` — a step for each server that a policy admits.
-/

namespace BackupFleet

/-- What has been reported, and the world of the services. -/
structure Session (σ : Type) where
  messages : List Message
  world : σ

/-- A part of a command. -/
abbrev Run (σ α : Type) := EStateM Fault (Session σ) α

namespace Run

variable {σ α : Type}

/-- Report messages. -/
def say (ms : List Message) : Run σ Unit := fun s => .ok () { s with messages := s.messages ++ ms }

/-- Report what goes on. -/
def info (text : String) : Run σ Unit := say [.info text]

/-- Report a line of the answer. -/
def result (line : String) : Run σ Unit := say [.result line]

/-- Report a mistake of the user. -/
def report (e : UserError) : Run σ Unit := say [.error e.message]

/-- Have a service do something. -/
def perform (op : Operation σ α) : Run σ α := fun s =>
  match op s.world with
  | .ok a w => .ok a { s with world := w }
  | .error f w => .error f { s with world := w }

/-- Ask a service something. -/
def ask (q : Question σ α) : Run σ α := fun s =>
  match q s.world with
  | .ok a => .ok a s
  | .error f => .error f s

/-- `act`, for one server after the other. A name that is not configured is reported; a server that the
    policy does not admit ends the command. -/
def forEachAdmitted (policy : Policy) (act : ServerConfig → Run σ Unit) :
    List (String × Option ServerConfig) → Run σ Unit
  | [] => pure ()
  | (name, none) :: r => do
    report (.unknownServer name)
    forEachAdmitted policy act r
  | (_, some c) :: r => do
    let verdict := classify c policy
    say verdict.messages
    if verdict.admits then
      act c
      forEachAdmitted policy act r
    else pure ()

end Run

end BackupFleet
