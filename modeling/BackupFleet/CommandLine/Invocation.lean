import BackupFleet.Command.Basic
import BackupFleet.CommandLine.Reading
import BackupFleet.Report.Writer
import BackupFleet.Text.Numeral

/-!
# `BackupFleet.CommandLine.Invocation` — what the program is called with

The common options may stand before the name of the command and after it; after it they count more. Where
neither level names a configuration file, the environment may.

## Contents

* `CommonOptions` — the options that every command has;
* `readCount`, `readTimeline` — numbers among the values;
* `CommandForm`, `commandForms` — how each command is written;
* `Invocation`, `Invocation.read` — a command line.
-/

namespace BackupFleet

open CommandLine

namespace CommandLine

/-! ## Kinds of options -/

variable {δ : Type}

/-- An option without a value. -/
def flag (long : String) (set : δ → δ) : Spec δ := { long, taking := .nothing set }

/-- An option with any text. -/
def textOption (long valueName : String) (set : String → δ → δ) : Spec δ :=
  { long, valueName, taking := .value fun v d => .ok (set v d) }

/-- A value that is read before it is taken. -/
def reading {α : Type} (read : String → Except String α) (set : α → δ → δ) (v : String) (d : δ) :
    Except Refusal δ :=
  match read v with
  | .ok a => .ok (set a d)
  | .error reason => .error (.invalid reason)

/-! ## Common options -/

/-- The options that every command has. -/
structure CommonOptions where
  config : Option String := none
  quiet : Bool := false
  debug : Bool := false
  format : Option Format := none

namespace CommonOptions

/-- The common options as they are written. -/
def specs : List (Spec CommonOptions) :=
  [{ long := "config", short := some 'c', valueName := "CONFIG"
     taking := .value fun v o => if v = "" then .error .empty else .ok { o with config := some v } },
    { flag "quiet" (fun o : CommonOptions => { o with quiet := true }) with short := some 'q' },
    { flag "debug" (fun o : CommonOptions => { o with debug := true }) with short := some 'd' },
    { long := "format", short := some 'f', valueName := "FORMAT"
      taking := .value (reading Format.read fun f o => { o with format := some f }) },
    { long := "help", short := some 'h', taking := .stop .help }]

/-- The options of a level that count more than those of another. -/
def merge (inner outer : CommonOptions) : CommonOptions where
  config := inner.config <|> outer.config
  quiet := inner.quiet || outer.quiet
  debug := inner.debug || outer.debug
  format := inner.format <|> outer.format

end CommonOptions

/-! ## Numbers -/

/-- A number of times or of seconds. -/
def readCount (bound : Nat) (s : String) : Except String Nat :=
  match Text.readUnsigned bound s.toList with
  | some n => .ok n
  | none => .error ("'" ++ s ++ "' is not a valid positive integer")

/-- The number that digits continue, unless it exceeds the limit. -/
def readUpTo (limit : Nat) (tooMuch : String) : Nat → List Char → Except String Nat
  | n, [] => .ok n
  | n, c :: cs =>
    if ¬c.isDigit then .error "invalid digit found in string"
    else
      let n := 10 * n + (c.toNat - '0'.toNat)
      if limit < n then .error tooMuch else readUpTo limit tooMuch n cs

/-- A number of 64 bits with a sign. -/
def readSigned (s : String) : Except String Int :=
  let magnitude (limit : Nat) (tooMuch : String) : List Char → Except String Nat
    | [] => .error "invalid digit found in string"
    | cs => readUpTo limit tooMuch 0 cs
  let tooLarge := "number too large to fit in target type"
  let tooSmall := "number too small to fit in target type"
  -- The least number has the larger magnitude.
  match s.toList with
  | [] => .error "cannot parse integer from empty string"
  | '-' :: cs => (magnitude Text.bound63 tooSmall cs).map fun n => -(n : Int)
  | '+' :: cs => (magnitude (Text.bound63 - 1) tooLarge cs).map Int.ofNat
  | cs => (magnitude (Text.bound63 - 1) tooLarge cs).map Int.ofNat

/-- The number of a timeline, of 32 bits. -/
def readTimeline (s : String) : Except String Nat := do
  let n ← readSigned s
  let last := Text.bound32 - 1
  if 0 ≤ n ∧ n ≤ last then pure n.toNat
  else .error (toString n ++ " is not in 0..=" ++ toString last)

/-! ## Commands -/

/-- How a command is written: its name, its options and arguments, and the command that they make. A
    command may insist on a format. -/
structure CommandForm where
  name : String
  Draft : Type
  blank : Draft
  options : List (Spec Draft) := []
  arguments : Arguments Draft := .each []
  command : Draft → Command
  format : Draft → Option Format := fun _ => none

/-- How often and with which pauses a copy is repeated. -/
def retrySpecs (setTimes setSleep : Nat → δ → δ) : List (Spec δ) :=
  [{ long := "retry-times", valueName := "RETRY_TIMES", negativeNumbers := true
     taking := .value (reading (readCount Text.bound32) setTimes) },
    { long := "retry-sleep", valueName := "RETRY_SLEEP", negativeNumbers := true
      taking := .value (reading (readCount Text.bound64) setSleep) },
    { flag "no-retry" (setTimes 0) with excludes := ["retry-times"] }]

/-- Names of servers, and whether the flag of the command is given. -/
structure NamesDraft where
  names : List String := []
  flagged : Bool := false

/-- A command on servers, with a flag perhaps. -/
def onServers (name : String) (flagName : Option String) (command : List String → Bool → Command)
    (format : Bool → Option Format) : CommandForm where
  name := name
  Draft := NamesDraft
  blank := {}
  options := flagName.toList.map fun long => flag long fun d => { d with flagged := true }
  arguments := .many false fun v d => { d with names := d.names ++ [v] }
  command d := command d.names d.flagged
  format d := format d.flagged

/-- A command on servers without a flag. -/
def onServersPlainly (name : String) (command : List String → Command) : CommandForm :=
  onServers name none (fun names _ => command names) fun _ => none

/-- A backup that is meant, and the scope of what is listed of it. -/
structure BackupDraft where
  server : String := ""
  backup : String := ""
  scope : FileScope := .standalone

/-- A command on one backup. -/
def onBackup (name : String) (options : List (Spec BackupDraft)) (command : BackupDraft → Command) :
    CommandForm where
  name := name
  Draft := BackupDraft
  blank := {}
  options := options
  arguments := .each [fun v d => { d with server := v }, fun v d => { d with backup := v }]
  command := command

/-- Names of servers, and how their backups are made. -/
structure BackupRunDraft where
  names : List String := []
  overrides : BackupOverrides := {}

/-- The command that takes backups. -/
def backupForm : CommandForm where
  name := "backup"
  Draft := BackupRunDraft
  blank := {}
  options :=
    ([{ flag "immediate-checkpoint" (fun o => { o with immediateCheckpoint := some true }) with
          excludes := ["no-immediate-checkpoint"] },
      flag "no-immediate-checkpoint" fun o => { o with immediateCheckpoint := some false },
      { long := "reuse-backup", valueName := "REUSE_BACKUP"
        taking := .perhaps "link" (reading ReuseBackup.read fun v o => { o with reuse := some v }) }] ++
      retrySpecs (fun n o => { o with retryTimes := some n }) (fun n o => { o with retrySleep := some n })
      : List (Spec BackupOverrides)).map
      (Spec.within BackupRunDraft.overrides fun o d => { d with overrides := o })
  arguments := .many false fun v d => { d with names := d.names ++ [v] }
  command d := .backup d.names d.overrides

/-- The command that recovers a server. -/
def recoverForm : CommandForm where
  name := "recover"
  Draft := RecoverArgs
  blank :=
    { server := "", backup := "", destination := "", target := ⟨none, none, none, none, false⟩
      rules := [], remoteCommand := none, retryTimes := none, retrySleep := none }
  options :=
    [{ long := "target-tli", valueName := "TARGET_TLI"
       taking := .value (reading readTimeline fun n a =>
         { a with target := { a.target with timeline := some n } }) },
      textOption "target-time" "TARGET_TIME" fun v a =>
        { a with target := { a.target with time := some v } },
      textOption "target-xid" "TARGET_XID" fun v a =>
        { a with target := { a.target with transaction := some v } },
      textOption "target-name" "TARGET_NAME" fun v a =>
        { a with target := { a.target with name := some v } },
      flag "exclusive" fun a => { a with target := { a.target with exclusive := true } },
      { textOption "tablespace" "NAME:LOCATION"
          (fun v (a : RecoverArgs) => { a with rules := a.rules ++ [v] }) with repeatable := true },
      textOption "remote-ssh-command" "SSH_COMMAND" fun v a => { a with remoteCommand := some v }] ++
    retrySpecs (fun n a => { a with retryTimes := some n }) (fun n a => { a with retrySleep := some n })
  arguments := .each
    [fun v a => { a with server := v }, fun v a => { a with backup := v },
      fun v a => { a with destination := v }]
  command := .recover

/-- The commands as they are written. -/
def commandForms : List CommandForm :=
  [{ name := "list-server", Draft := Bool, blank := false, options := [flag "minimal" fun _ => true]
     command := .listServer },
    { name := "cron", Draft := Unit, blank := (), command := fun _ => .cron },
    backupForm,
    onServers "list-backup" (some "minimal") .listBackup fun _ => none,
    onServersPlainly "status" .status,
    onServersPlainly "rebuild-xlogdb" .rebuildXlogdb,
    recoverForm,
    onServersPlainly "show-server" .showServer,
    onServers "check" (some "nagios") (fun names _ => .check names) fun nagios =>
      if nagios then some .nagios else none,
    { name := "diagnose", Draft := Unit, blank := (), command := fun _ => .diagnose },
    onBackup "show-backup" [] fun d => .showBackup d.server d.backup,
    onBackup "list-files"
      [{ long := "target", valueName := "TARGET"
         taking := .value (reading FileScope.read fun s d => { d with scope := s }) }]
      fun d => .listFiles d.server d.backup d.scope,
    onBackup "delete" [] fun d => .delete d.server d.backup]

/-- The command that explains the others. -/
def helpName : String := "help"

/-! ## Levels -/

/-- The draft of a level: the common options and the rest. -/
structure LevelDraft (δ : Type) where
  common : CommonOptions
  own : δ

/-- A level with the common options besides its own. -/
def level (options : List (Spec δ)) (arguments : Arguments δ) (commands : List String) :
    Grammar (LevelDraft δ) where
  options :=
    CommonOptions.specs.map (Spec.within LevelDraft.common fun c d => { d with common := c }) ++
      options.map (Spec.within LevelDraft.own fun o d => { d with own := o })
  arguments := arguments.within LevelDraft.own fun o d => { d with own := o }
  commands := commands

/-- The words before the name of the command. -/
def outerLevel : Grammar (LevelDraft Unit) :=
  level [{ long := "version", short := some 'V', taking := .stop .version }] (.each [])
    (helpName :: commandForms.map (·.name))

/-- A level at its end. An empty variable names no file, so it is a mistake where it counts. -/
def closeLevel (fallback : Option String) (r : Reading (LevelDraft δ)) :
    Except Stop (Reading (LevelDraft δ)) := do
  let r ← r.settle
  if fallback = some "" ∧ ¬r.has "config" then
    Reading.mistake (.missingValue "--config <CONFIG>")
  else pure r

/-- The words after the name of a command: the options, the command and the format it insists on. -/
def CommandForm.read (f : CommandForm) (fallback : Option String) (words : List String) :
    Except Stop (CommonOptions × Command × Option Format) := do
  let g := level f.options f.arguments []
  let (r, _) ← Reading.readWords g words (.start g ⟨{}, f.blank⟩)
  -- A pending value is looked at before exclusions and missing arguments are.
  let r ← closeLevel fallback r
  r.check
  pure (r.draft.common, f.command r.draft.own, f.format r.draft.own)

/-- The words after `help`, each of which must be a command of the one before it. -/
def readHelp : List String → Except Stop (CommonOptions × Command × Option Format)
  | [] => .error .help
  | name :: r =>
    if name ∈ outerLevel.commands then
      match r with
      | [] => .error .help
      | word :: _ => Reading.mistake (.unknownCommand word)
    else Reading.mistake (.unknownCommand name)

/-- The words from the name of a command on. -/
def readCommand (fallback : Option String) (name : String) (words : List String) :
    Except Stop (CommonOptions × Command × Option Format) :=
  match commandForms.find? (·.name = name) with
  | some f => f.read fallback words
  | none => readHelp words

end CommandLine

/-! ## Invocations -/

/-- What the program is called with. -/
structure Invocation where
  config : Option String
  quiet : Bool
  debug : Bool
  format : Format
  command : Command

namespace Invocation

/-- What words call the program with, where the environment may name the configuration file. The words of
    the command are read to their end before the last option in front of it is looked at. -/
def read (fallback : Option String) (words : List String) : Except Stop Invocation := do
  let (r, rest) ← Reading.readWords outerLevel words (.start outerLevel ⟨{}, ()⟩)
  -- What is wrong after the name of the command is told before a value that is still pending here.
  let inner ← rest.mapM fun (name, words) => readCommand fallback name words
  let r ← closeLevel fallback r
  match inner with
  | none =>
    if r.given.isEmpty ∧ fallback = none then .error .noWords else Reading.mistake .missingCommand
  | some (options, command, forced) =>
    -- The options behind the name count more; the environment counts least.
    let options := options.merge r.draft.common
    pure
      { config := options.config <|> fallback
        quiet := options.quiet
        debug := options.debug
        format := forced.getD (options.format.getD .console)
        command }

end Invocation

end BackupFleet
