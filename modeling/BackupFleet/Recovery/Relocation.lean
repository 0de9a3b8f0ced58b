import BackupFleet.Diagnostic.UserError
import BackupFleet.Order

/-!
# `BackupFleet.Recovery.Relocation` — new places for tablespaces

A relocation rule `NAME:LOCATION` says where a recovery puts a tablespace. The first colon ends the name,
so a location may contain colons and a name may not. Of two rules for one name the later counts. Rules
are read before the backup is known; `checkNames` compares them with its tablespaces afterwards.

## Contents

* `splitRule`, `Relocations`, `readRules` — reading;
* `ruleText` — writing;
* `checkNames`, `checkDestination` — the checks.
-/

namespace BackupFleet.Recovery

/-! ## Rules -/

/-- What is before the first colon and what is after it. -/
def splitColon : List Char → Option (List Char × List Char)
  | [] => none
  | c :: r => if c = ':' then some ([], r) else (splitColon r).map fun (a, b) => (c :: a, b)

/-- The name and the location of a rule; neither may be empty. -/
def splitRule (rule : String) : Option (String × String) :=
  match splitColon rule.toList with
  | some (name, location) =>
    if name ≠ [] ∧ location ≠ [] then some (String.ofList name, String.ofList location) else none
  | none => none

/-- Locations by tablespace name. -/
abbrev Relocations := OrderedMap String

/-- The relocations of a list of rules, on top of those already read. -/
def readRulesInto (acc : Relocations) : List String → Except UserError Relocations
  | [] => .ok acc
  | rule :: r =>
    match splitRule rule with
    | some (name, location) => readRulesInto (acc.insert name location) r
    | none => .error (.malformedRule rule)

/-- The relocations of a list of rules, or the first malformed rule. -/
def readRules (rules : List String) : Except UserError Relocations := readRulesInto .empty rules

/-- A relocation as a rule. -/
def ruleText (r : String × String) : String := r.1 ++ ":" ++ r.2

theorem splitColon_append {a : List Char} (h : ':' ∉ a) (b : List Char) :
    splitColon (a ++ ':' :: b) = some (a, b) := by
  induction a with
  | nil => simp [splitColon]
  | cons c r ih =>
    rw [List.mem_cons, not_or] at h
    simp [splitColon, Ne.symm h.1, ih h.2]

/-! ## Checks -/

/-- Every relocated name must be known; the smallest that is not is reported. -/
def checkNames (rules : Relocations) (known : List String) : Except UserError Unit :=
  match rules.keys.find? (fun name => !known.contains name) with
  | some name => .error (.unknownTablespace name known)
  | none => .ok ()

/-- A destination is a local directory, and none with a colon in its name. -/
def checkDestination (destination : String) : Except UserError Unit :=
  if destination.toList.contains ':' then .error .remoteDestination else .ok ()

end BackupFleet.Recovery
