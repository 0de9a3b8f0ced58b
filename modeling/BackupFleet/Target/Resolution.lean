import BackupFleet.Config.Fleet
import BackupFleet.Order
import BackupFleet.Target.Policy

/-!
# `BackupFleet.Target.Resolution` — from names to servers

A command is given server names; no name, or `all` as the first, means every server. `expand` turns them
into the servers to act on, in ascending order of names: a requested name that is not configured is kept
as unknown, and a request for all servers may leave out the inactive or the disabled ones. Conflicts in
the configuration come first; they are reported, and they end the resolution, unless the command says
otherwise.

Commands that act on one backup use `resolveOne`, which always minds conflicts and applies a policy.

## Contents

* `Request`, `Request.ofNames`, `ExpandOptions` — what is asked for;
* `Targets`, `expandAll`, `expandNamed`, `expand` — many servers;
* `Single`, `resolveOne` — one server.
-/

namespace BackupFleet

/-! ## Requests -/

/-- All servers, or those with the given names. -/
inductive Request where
  | all
  | named (names : List String)
deriving DecidableEq, Repr

/-- The request that a list of names makes. -/
def Request.ofNames : List String → Request
  | [] => .all
  | first :: r => if first = "all" then .all else .named (first :: r)

/-- How a request is expanded. The first two options concern a request for all servers only. -/
structure ExpandOptions where
  skipInactive : Bool := false
  skipDisabled : Bool := false
  stopOnConflict : Bool := true
  silent : Bool := false
deriving DecidableEq, Repr

/-! ## Many servers -/

/-- The servers to act on by name; `none` for a name that is not configured. -/
abbrev Targets := OrderedMap (Option ServerConfig)

/-- Why a request for all servers leaves one out. -/
def ExpandOptions.skipText (o : ExpandOptions) (c : ServerConfig) : Option String :=
  if o.skipInactive && !c.active then some ("Skipping inactive server '" ++ c.name ++ "'")
  else if o.skipDisabled && c.disabled then
    some ("Skipping temporarily disabled server '" ++ c.name ++ "'")
  else none

/-- Every server that is not left out, and a message for each that is. -/
def expandAll (o : ExpandOptions) (servers : List ServerConfig) : List Message × Targets :=
  (servers.filterMap fun c => (o.skipText c).map .info,
    .ofList ((servers.filter fun c => (o.skipText c).isNone).map fun c => (c.name, some c)))

/-- The servers with the given names. -/
def expandNamed (f : Fleet) (names : List String) : Targets :=
  .ofList (names.map fun name => (name, f.server? name))

/-- The messages about conflicts. -/
def Fleet.conflictMessages (f : Fleet) : List Message := f.conflicts.map .error

/-- The messages and the servers of a request; no servers if conflicts ended the resolution. -/
def expand (f : Fleet) (request : Request) (o : ExpandOptions) : List Message × Option Targets :=
  let reported := if o.silent then [] else f.conflictMessages
  -- Whether conflicts are told and whether they end the resolution are two questions.
  if f.conflicts ≠ [] ∧ o.stopOnConflict then (reported, none)
  else match request with
    | .all =>
      let (skipped, targets) := expandAll o f.servers
      (reported ++ skipped, some targets)
    | .named names => (reported, some (expandNamed f names))

/-! ## One server -/

/-- The server to act on, a name that is not configured, or nothing left to do. -/
inductive Single where
  | ready (c : ServerConfig)
  | unknown
  | aborted
deriving DecidableEq, Repr

/-- The messages and the outcome for one name under a policy. -/
def resolveOne (f : Fleet) (name : String) (policy : Policy) : List Message × Single :=
  if f.conflicts ≠ [] then (f.conflictMessages, .aborted)
  else match f.server? name with
    | none => ([], .unknown)
    | some c =>
      let verdict := classify c policy
      (verdict.messages, if verdict.admits then .ready c else .aborted)

end BackupFleet
