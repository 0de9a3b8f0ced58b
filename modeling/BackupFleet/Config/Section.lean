import BackupFleet.Config.Server
import BackupFleet.Text.Escaped
import BackupFleet.Toml.Value

/-!
# `BackupFleet.Config.Section` — the section of a server

A configuration file describes a server by a table of options, or by an array with a value for each
option in a fixed order. Options that are not known are passed over. A value of the wrong kind spoils the
whole section: the server then has its default configuration and one problem, which names the value that
was found and the kind that was expected. Of several such values the one under the smallest name counts.

## Contents

* `ServerOption` — the options;
* `Expected`, `Mismatch`, `SectionError` — values of the wrong kind;
* `ServerSection`, `ServerSection.read` — the options that are set;
* `ServerSection.configure`, `ServerConfig.ofValue` — the server they describe.
-/

namespace BackupFleet

open Toml (Value)

/-! ## Options -/

/-- An option of a server. -/
inductive ServerOption where
  | description
  | active
  | backupDirectory
  | basebackupsDirectory
  | walsDirectory
  | incomingWalsDirectory
  | backupCommand
  | recoveryCommand
  | sshCommand
  | reuseBackup
  | immediateCheckpoint
  | retryTimes
  | retrySleep
deriving DecidableEq, Repr

namespace ServerOption

/-- The name of an option. -/
def name : ServerOption → String
  | description => "description"
  | active => "active"
  | backupDirectory => "backup_directory"
  | basebackupsDirectory => "basebackups_directory"
  | walsDirectory => "wals_directory"
  | incomingWalsDirectory => "incoming_wals_directory"
  | backupCommand => "backup_command"
  | recoveryCommand => "recovery_command"
  | sshCommand => "ssh_command"
  | reuseBackup => "reuse_backup"
  | immediateCheckpoint => "immediate_checkpoint"
  | retryTimes => "basebackup_retry_times"
  | retrySleep => "basebackup_retry_sleep"

/-- All options, in the order of their values in an array. -/
def all : List ServerOption :=
  [description, active, backupDirectory, basebackupsDirectory, walsDirectory, incomingWalsDirectory,
    backupCommand, recoveryCommand, sshCommand, reuseBackup, immediateCheckpoint, retryTimes, retrySleep]

/-- The option with a name. -/
def ofName? (s : String) : Option ServerOption := all.find? (·.name = s)

@[simp] theorem ofName?_name (o : ServerOption) : ofName? o.name = some o := by cases o <;> rfl

end ServerOption

/-! ## Mismatches -/

/-- A kind of value. -/
inductive Expected where
  | text
  | flag
  | path
  | word32
  | word64
  | options
deriving DecidableEq, Repr

/-- How a kind is told. -/
def Expected.name : Expected → String
  | text => "a string"
  | flag => "a boolean"
  | path => "path string"
  | word32 => "u32"
  | word64 => "u64"
  | options => "struct ServerSection"

/-- How a value that was not expected is told. -/
def describeValue : Value → String
  | .text s | .time s => "string " ++ String.ofList (Text.quoteForMessage s.toList)
  | .integer n => "integer `" ++ toString n ++ "`"
  | .float x => "floating point `" ++ String.ofList x.positional ++ "`"
  | .boolean b => "boolean `" ++ (if b then "true" else "false") ++ "`"
  | .array _ => "sequence"
  | .table _ => "map"

/-- What is wrong with a value: its kind, its size, or the number of its items. -/
inductive Mismatch where
  | kind (found : Value) (expected : Expected)
  | size (found : Int) (expected : Expected)
  | tooFew (items : Nat)
  | tooMany (items : Nat)

/-- The wording of a mismatch. -/
def Mismatch.message : Mismatch → String
  | kind found expected => "invalid type: " ++ describeValue found ++ ", expected " ++ expected.name
  | size found expected =>
    "invalid value: " ++ describeValue (.integer found) ++ ", expected " ++ expected.name
  | tooFew items =>
    "invalid length " ++ toString items ++ ", expected " ++ Expected.options.name ++ " with " ++
      toString ServerOption.all.length ++ " elements"
  | tooMany items => "invalid length " ++ toString items ++ ", expected fewer elements in array"

/-- A mismatch, and the option in whose value it is, unless the value stands in an array. -/
structure SectionError where
  mismatch : Mismatch
  option : Option ServerOption

/-- The wording of an error: the mismatch on one line, the option on another. -/
def SectionError.message (e : SectionError) : String :=
  e.mismatch.message ++ "\n" ++ match e.option with
    | some o => "in `" ++ o.name ++ "`\n"
    | none => ""

/-! ## Values of one kind -/

/-- A text; a date or time counts as one. -/
def readTextAs (expected : Expected) : Value → Except Mismatch String
  | .text s | .time s => .ok s
  | v => .error (.kind v expected)

/-- A flag. -/
def readFlag : Value → Except Mismatch Bool
  | .boolean b => .ok b
  | v => .error (.kind v .flag)

/-- A number below a bound. -/
def readCountAs (expected : Expected) (bound : Nat) : Value → Except Mismatch Nat
  | .integer n => if 0 ≤ n ∧ n < bound then .ok n.toNat else .error (.size n expected)
  | v => .error (.kind v expected)

/-! ## Sections -/

/-- The options that a section sets. -/
structure ServerSection where
  description : Option String := none
  active : Option Bool := none
  backupDirectory : Option String := none
  basebackupsDirectory : Option String := none
  walsDirectory : Option String := none
  incomingWalsDirectory : Option String := none
  backupCommand : Option String := none
  recoveryCommand : Option String := none
  sshCommand : Option String := none
  reuseBackup : Option String := none
  immediateCheckpoint : Option Bool := none
  retryTimes : Option Nat := none
  retrySleep : Option Nat := none
deriving DecidableEq, Repr

namespace ServerSection

/-- The section with an option set. -/
def set (s : ServerSection) (v : Value) : ServerOption → Except Mismatch ServerSection
  | .description => do pure { s with description := ← readTextAs .text v }
  | .active => do pure { s with active := ← readFlag v }
  | .backupDirectory => do pure { s with backupDirectory := ← readTextAs .path v }
  | .basebackupsDirectory => do pure { s with basebackupsDirectory := ← readTextAs .path v }
  | .walsDirectory => do pure { s with walsDirectory := ← readTextAs .path v }
  | .incomingWalsDirectory => do pure { s with incomingWalsDirectory := ← readTextAs .path v }
  | .backupCommand => do pure { s with backupCommand := ← readTextAs .text v }
  | .recoveryCommand => do pure { s with recoveryCommand := ← readTextAs .text v }
  | .sshCommand => do pure { s with sshCommand := ← readTextAs .text v }
  | .reuseBackup => do pure { s with reuseBackup := ← readTextAs .text v }
  | .immediateCheckpoint => do pure { s with immediateCheckpoint := ← readFlag v }
  | .retryTimes => do pure { s with retryTimes := ← readCountAs .word32 Text.bound32 v }
  | .retrySleep => do pure { s with retrySleep := ← readCountAs .word64 Text.bound64 v }

/-- The section of a table, on top of what is set already. -/
def readFields (s : ServerSection) : List (String × Value) → Except SectionError ServerSection
  | [] => .ok s
  | (name, v) :: r =>
    match ServerOption.ofName? name with
    -- An option that is not known says nothing, whatever its value.
    | none => readFields s r
    | some o =>
      match s.set v o with
      | .ok s => readFields s r
      | .error m => .error ⟨m, some o⟩

/-- The section of an array, on top of what is set already; `length` is that of the whole array. -/
def readItems (s : ServerSection) (length : Nat) :
    List ServerOption → List Value → Except SectionError ServerSection
  | [], [] => .ok s
  | [], _ :: _ => .error ⟨.tooMany length, none⟩
  | _ :: _, [] => .error ⟨.tooFew length, none⟩
  | o :: os, v :: vs =>
    match s.set v o with
    | .ok s => readItems s length os vs
    | .error m => .error ⟨m, none⟩

/-- The section that a value describes. -/
def read : Value → Except SectionError ServerSection
  | .table fields => readFields {} fields
  | .array items => readItems {} items.length ServerOption.all items
  | v => .error ⟨.kind v .options, none⟩

/-! ## Servers -/

/-- The directories that a section sets. Setting the backup directory moves the other three with it,
    unless they are set too. -/
def placeFiles (s : ServerSection) (c : ServerConfig) : ServerConfig :=
  -- The order matters: the single directories override what the common one has set.
  let c := match s.backupDirectory with
    | some dir => c.storeAt dir
    | none => c
  { c with
    basebackupsDirectory := s.basebackupsDirectory.getD c.basebackupsDirectory
    walsDirectory := s.walsDirectory.getD c.walsDirectory
    incomingWalsDirectory := s.incomingWalsDirectory.getD c.incomingWalsDirectory }

/-- The choice for unchanged files; one that is not known is a problem. -/
def chooseReuse (s : ServerSection) (c : ServerConfig) : ServerConfig :=
  match s.reuseBackup with
  | none => c
  | some value =>
    match ReuseBackup.read value with
    | .ok r => { c with reuseBackup := r }
    | .error complaint => c.disable ("reuse_backup: " ++ complaint)

/-- The backup command; without one that is more than blanks the server has a problem. -/
def chooseBackupCommand (s : ServerSection) (c : ServerConfig) : ServerConfig :=
  match s.backupCommand.filter fun command => Text.trim command.toList ≠ [] with
  | some command => { c with backupCommand := some command }
  | none => c.disable "backup_command: option is required"

/-- The server with all that a section sets. -/
def configure (s : ServerSection) (c : ServerConfig) : ServerConfig :=
  s.chooseBackupCommand (s.chooseReuse (s.placeFiles
    { c with
      description := s.description.getD c.description
      active := s.active.getD c.active
      immediateCheckpoint := s.immediateCheckpoint.getD c.immediateCheckpoint
      retryTimes := s.retryTimes.getD c.retryTimes
      retrySleep := s.retrySleep.getD c.retrySleep
      recoveryCommand := s.recoveryCommand
      sshCommand := s.sshCommand }))

end ServerSection

/-- A name that means all servers and so cannot be that of one. -/
def reservedName : String := "all"

/-- The server that a value describes. -/
def ServerConfig.ofValue (name home : String) (v : Value) : ServerConfig :=
  let c := ServerConfig.new name home
  -- The reserved name is a problem besides those of the section, and the first one.
  let c :=
    if name = reservedName then
      c.disable ("'" ++ reservedName ++ "' is a reserved word and cannot be used as server name")
    else c
  match ServerSection.read v with
  | .ok s => s.configure c
  | .error e => c.disable ("invalid configuration for server '" ++ name ++ "': " ++ e.message)

end BackupFleet
