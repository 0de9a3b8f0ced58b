import BackupFleet.FileSystem.Change
import BackupFleet.Shell.Arithmetic
import BackupFleet.Text.ByteText

/-!
# `BackupFleet.Shell.Machine` — a shell while it runs a script

A shell has files, variables and the status of its last command. What it writes goes to streams: each is
a buffer, a file, or nothing. The first two buffers are what the caller of the script sees; the others
catch the output of commands that other commands read. What it reads comes from inputs, which are used
up from the front.

## Contents

* `Sink`, `Streams` — where a command reads and writes;
* `Machine`, `Stop`, `Job` — the state, the ways a script ends early, and the steps of a run;
* `assign`, `unassign`, `restore` — steps on variables;
* `write`, `complain`, `openOutput`, `openInput` — steps on streams.
-/

namespace BackupFleet.Shell

/-! ## State -/

/-- Where output goes: a buffer with a number, a file, or nowhere. -/
inductive Sink where
  | buffer (index : Nat)
  | file (l : Location)
  | nowhere
deriving DecidableEq, Repr

/-- The input with a number, and the sinks of a command. -/
structure Streams where
  input : Nat
  out : Sink
  err : Sink
deriving DecidableEq, Repr

/-- The streams of a script: no input, and the first two buffers. -/
def Streams.initial : Streams := ⟨0, .buffer 0, .buffer 1⟩

/-- The state of a shell. `outputStatus` is the status of the commands whose output was last put into a
    word, if there were any since the present command began. -/
structure Machine where
  files : FileSystem
  values : Variables
  status : Nat
  outputStatus : Option Nat
  buffers : List Bytes
  inputs : List Bytes

/-- Why a script ends before its last command, or a repetition before its last round. -/
inductive Stop where
  | exited (status : Nat)
  | killed (signal : Nat)
  | broken (levels : Nat)
  | continued (levels : Nat)
deriving DecidableEq, Repr

/-- A step of a run. -/
abbrev Job (α : Type) := EStateM Stop Machine α

/-- The number of the process of a shell. -/
def processId : Nat := 4243

/-! ## Variables -/

/-- The value of a variable. -/
def Machine.valueOf? (m : Machine) (name : List Char) : Option (List Char) := m.values.lookup name

/-- Blanks and ends of lines. -/
def isBlankSeparator (c : Char) : Bool := c == ' ' || c == '\t' || c == '\n'

/-- The characters that texts are split at: those of the variable `IFS`, or blanks and ends of lines. -/
def Machine.separators (m : Machine) : List Char := (m.valueOf? "IFS".toList).getD " \t\n".toList

/-- A variable set. -/
def assign (name value : List Char) : Job Unit :=
  modify fun m => { m with values := Variables.assign m.values name value }

/-- A variable removed. -/
def unassign (name : List Char) : Job Unit :=
  modify fun m => { m with values := m.values.filter (·.1 ≠ name) }

/-- Variables as they were before they were assigned to for one command. -/
def restore (names : List (List Char)) (before : Variables) : Job Unit := do
  for name in names do
    match before.lookup name with
    | some value => assign name value
    | none => unassign name

/-! ## Output -/

/-- Text on a sink. -/
def write (sink : Sink) (cs : List Char) : Job Unit := do
  let m ← get
  let bytes := Text.toBytes cs
  match sink with
  | .nowhere => pure ()
  | .buffer k => set { m with buffers := m.buffers.modify k (· ++ bytes) }
  | .file l =>
    match m.files.tree.get? l with
    | some (.file content) =>
      set { m with files := m.files.withTree (m.files.tree.put l (.file (content ++ bytes))) }
    | _ => pure ()

/-- A complaint of the shell about a command. -/
def complain (s : Streams) (text : String) : Job Unit := write s.err (Text.bytesOf ("sh: 1: " ++ text ++ "\n"))

/-- A complaint, and the status of a command that was used in the wrong way. -/
def fail (s : Streams) (text : String) : Job Nat := do
  complain s text
  pure 2

/-- A complaint that ends the script. -/
def abort {α : Type} (s : Streams) (text : String) : Job α := do
  complain s text
  throw (.exited 2)

/-- An output buffer for `job`; what was written to it, as a byte text without the buffer. -/
def catching (job : Sink → Job Unit) : Job (List Char) := do
  let k := (← get).buffers.length
  modify fun m => { m with buffers := m.buffers ++ [[]] }
  job (.buffer k)
  let caught := (← get).buffers[k]?.getD []
  modify fun m => { m with buffers := m.buffers.take k }
  pure (Text.ofBytes caught)

/-! ## Files and inputs -/

/-- The file that takes all that is written and keeps nothing. -/
def nullDevice : String := "/dev/null"

/-- Why a file could not be opened. -/
def openComplaint (creating : Bool) (path : String) (e : FileError) : String :=
  let verb := if creating then "cannot create " else "cannot open "
  let reason := match e with
    | .notFound | .notDirectory => if creating then "Directory nonexistent" else "No such file"
    | .permissionDenied => "Permission denied"
    | .isDirectory => "Is a directory"
    | .nameTooLong => "File name too long"
    | _ => "Invalid argument"
  verb ++ path ++ ": " ++ reason

/-- A file opened for writing, from its start or at its end. -/
def openOutput (s : Streams) (append : Bool) (path : String) : Job (Option Sink) := do
  if path = nullDevice then pure (some .nowhere)
  else
    let m ← get
    -- A file that is not appended to is emptied when it is opened.
    let op : FileOp Location := do
      if append then pure () else FileSystem.writeFile path []
      pure (← FileSystem.openAppend path).location
    match op m.files with
    | .ok l files =>
      set { m with files }
      pure (some (.file l))
    | .error e _ =>
      complain s (openComplaint true path e)
      pure none

/-- A new input. -/
def addInput (bytes : Bytes) : Job Nat := do
  let m ← get
  set { m with inputs := m.inputs ++ [bytes] }
  pure m.inputs.length

/-- A file opened for reading. -/
def openInput (s : Streams) (path : String) : Job (Option Nat) := do
  if path = nullDevice then some <$> addInput []
  else
    let m ← get
    match m.files.entry path with
    | .ok (.file content) => some <$> addInput content
    -- A directory can be opened, but there is nothing to read in it.
    | .ok .directory => some <$> addInput []
    | .error e =>
      complain s (openComplaint false path e)
      pure none

/-- All that is left of an input. -/
def takeInput (k : Nat) : Job (List Char) := do
  let m ← get
  set { m with inputs := m.inputs.set k [] }
  pure (Text.ofBytes (m.inputs[k]?.getD []))

end BackupFleet.Shell
