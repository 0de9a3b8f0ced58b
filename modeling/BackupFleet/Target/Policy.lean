import BackupFleet.Config.Server
import BackupFleet.Diagnostic.UserError
import BackupFleet.Report.Message

/-!
# `BackupFleet.Target.Policy` — which servers a command may act on

A server can be disabled, by problems in its configuration, or inactive, by the choice of its owner. A
command has a policy: whether it minds an inactive server, and whether it stops at a server it minds or
only warns. A disabled server is minded always, and then it does not matter whether it is active.

## Contents

* `Policy` and the three policies of commands;
* `Verdict`, `classify` — what a policy says of a server;
* `Verdict.messages`, `Verdict.admits` — its effect.
-/

namespace BackupFleet

/-- Whether a minded server stops the command, and whether inactive servers are minded. -/
structure Policy where
  isError : Bool
  checkActive : Bool
deriving DecidableEq, Repr

namespace Policy

/-- Stop at a disabled or inactive server. -/
def blocking : Policy := ⟨true, true⟩

/-- Warn about a disabled or inactive server. -/
def warn : Policy := ⟨false, true⟩

/-- Warn about a disabled server. -/
def warnIgnoreActive : Policy := ⟨false, false⟩

end Policy

/-- The server is fine, or there are reasons to warn or to stop. -/
inductive Verdict where
  | proceed
  | caution (reasons : List String)
  | refusal (reasons : List String)
deriving DecidableEq, Repr

namespace Verdict

/-- What is reported. -/
def messages : Verdict → List Message
  | proceed => []
  | caution reasons => reasons.map .warning
  | refusal reasons => reasons.map .error

/-- The command goes on. -/
def admits : Verdict → Bool
  | refusal _ => false
  | _ => true

end Verdict

/-- Why a policy minds a server; empty if it does not. -/
def Policy.reasons (policy : Policy) (c : ServerConfig) : List String :=
  if c.disabled then c.problems
  else if policy.checkActive && !c.active then [(UserError.inactiveServer c.name).message]
  else []

/-- What a policy says of a server. -/
def classify (c : ServerConfig) (policy : Policy) : Verdict :=
  match policy.reasons c with
  | [] => .proceed
  | reasons => if policy.isError then .refusal reasons else .caution reasons

end BackupFleet
