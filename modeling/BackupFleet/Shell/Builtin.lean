import BackupFleet.Hook.Outcome
import BackupFleet.Shell.Condition
import BackupFleet.Shell.Format

/-!
# `BackupFleet.Shell.Builtin` — the commands that a hook may use

Each command takes its words and the streams, and answers with its status.

## Contents

* `echo`, `printfCommand` — output;
* `testNamed`, `bracket`, `wordCount` — questions;
* `exit`, `kill`, `leave` — ends;
* `readLine`, `export_`, `unset` — variables;
* `commandNamed?` — the command with a name.
-/

namespace BackupFleet.Shell

/-! ## Output -/

/-- Words with single blanks between them. -/
def joinWords (ws : List (List Char)) : List Char := (ws.intersperse [' ']).flatten

/-- The words, with their escapes expanded, on a line; `-n` leaves the line open. -/
def echo (s : Streams) (ws : List (List Char)) : Job Nat := do
  let (open_, ws) := match ws with
    | ['-', 'n'] :: r => (true, r)
    | _ => (false, ws)
  let (text, ends) := expandEscapes (joinWords ws)
  write s.out (if open_ || ends then text else text ++ ['\n'])
  pure 0

/-- A format with its arguments. -/
def printfCommand (s : Streams) (ws : List (List Char)) : Job Nat := do
  let ws := match ws with
    | ['-', '-'] :: r => r
    | _ => ws
  match ws with
  | [] => fail s "printf: usage: printf format [arg ...]"
  | format :: args =>
    match readFormat format with
    | none => fail s "printf: invalid directive"
    | some ds =>
      let formatted := printf ds args
      write s.out formatted.text
      for arg in formatted.bad do
        complain s ("printf: " ++ Text.textOf arg ++ ": expected numeric value")
      pure (if formatted.bad.isEmpty then 0 else 1)

/-! ## Questions -/

/-- The status of a flag. -/
def statusOf (b : Bool) : Nat := if b then 0 else 1

/-- Words as a condition, for the command with a name. -/
def testNamed (name : String) (s : Streams) (ws : List (List Char)) : Job Nat := do
  match condition (← get).files ws with
  | .ok b => pure (statusOf b)
  | .error e => fail s (name ++ ": " ++ e.message)

/-- A condition between brackets. -/
def bracket (s : Streams) (ws : List (List Char)) : Job Nat :=
  if ws.getLast? = some [']'] then testNamed "[" s ws.dropLast else fail s "[: missing ]"

/-- The counts of a text: lines, words and bytes. -/
def counts (cs : List Char) : List Nat :=
  let isSpace (c : Char) := c == ' ' || ('\t' ≤ c && c ≤ '\r')
  [cs.count '\n', ((Text.splitWhen isSpace cs).filter (· ≠ [])).length, cs.length]

/-- The counts that some options choose, all of them without an option. -/
def chosenCounts (options : List Char) (cs : List Char) : List Nat :=
  let all := [['l'], ['w'], ['c', 'm']].zip (counts cs)
  if options.isEmpty then counts cs
  else (all.filter fun (letters, _) => letters.any options.contains).map (·.2)

/-- Counts in columns that are wide enough for the last. -/
def countLine (ns : List Nat) : String :=
  match ns with
  | [n] => toString n
  | _ =>
    let width := (ns.map fun n => (Text.decimal n).length).foldl max 1
    " ".intercalate (ns.map fun n => String.ofList (List.leftpad width ' ' (Text.decimal n)))

/-- The counts of the input, or of files. -/
def wordCount (s : Streams) (ws : List (List Char)) : Job Nat := do
  let (options, paths) := (ws.filter (· ≠ "--".toList)).partition fun w => w.head? = some '-' && w ≠ ['-']
  let letters := options.flatMap List.tail
  match paths with
  | [] =>
    let cs ← takeInput s.input
    write s.out (Text.bytesOf (countLine (chosenCounts letters cs) ++ "\n"))
    pure 0
  | _ =>
    let mut status := 0
    for path in paths do
      let name := Text.textOf path
      match (← get).files.readFile name with
      | .ok content =>
        let line := countLine (chosenCounts letters (Text.ofBytes content)) ++ " " ++ name
        write s.out (Text.bytesOf (line ++ "\n"))
      | .error e =>
        let reason := match e with
          | .isDirectory => "Is a directory"
          | .notDirectory => "Not a directory"
          | _ => "No such file or directory"
        write s.err (Text.bytesOf ("wc: " ++ name ++ ": " ++ reason ++ "\n"))
        status := 1
    pure status

/-! ## Ends -/

/-- The status that a word means, a number of 31 bits of which the low byte counts. -/
def readStatus (w : List Char) : Option Nat := (Text.readUnsigned Text.bound31 (Text.trim w)).map (· % 256)

/-- The end of the script, with a status or with that of the last command. -/
def exit (s : Streams) (ws : List (List Char)) : Job Nat := do
  match ws with
  | [] => throw (.exited (← get).status)
  | w :: _ =>
    match readStatus w with
    | some n => throw (.exited n)
    | none => abort s ("exit: Illegal number: " ++ Text.textOf w)

/-- The end of repetitions, or of the present round of one. -/
def leave (stop : Nat → Stop) (_ : Streams) (ws : List (List Char)) : Job Nat := do
  let levels := ((ws.head?.bind Text.readDigits).getD 1)
  throw (stop levels)

/-- The number of a signal that is given by number or by name. -/
def signalNumber (w : List Char) : Option Nat :=
  match Text.readDigits w with
  | some n => if n ≤ ExitStatus.signalNames.length then some n else none
  | none =>
    let name := "SIG" ++ String.ofList (w.map Char.toUpper)
    (ExitStatus.signalNames.findIdx? (· = name)).map (· + 1)

/-- Signals that a process ignores unless it asks for them, and the one that only asks whether it runs. -/
def harmlessSignals : List Nat := [0, 17, 18, 23, 28]

/-- Signals that stop a process without ending it. -/
def stoppingSignals : List Nat := [19, 20, 21, 22]

/-- The signal and the processes that the words of a kill command name, or the complaint about them. -/
def killWords : List (List Char) → Except String (Nat × List (List Char))
  | [['-', 's']] => .error "No arg for -s option"
  | ['-', 's'] :: w :: r =>
    match signalNumber w with
    | some n => .ok (n, r)
    | none => .error ("invalid signal number or name: " ++ Text.textOf w)
  | ['-', '-'] :: r => .ok (15, r)
  | ('-' :: c :: w) :: r =>
    match signalNumber (c :: w) with
    | some n => .ok (n, r)
    | none => .error ("Illegal option -" ++ c.toString)
  | ws => .ok (15, ws)

/-- What is said of a kill command without a process. -/
def killUsage : String :=
  "Usage: kill [-s sigspec | -signum | -sigspec] [pid | job]... or\nkill -l [exitstatus]"

/-- A signal for processes, of which the shell knows itself only. -/
def kill (s : Streams) (ws : List (List Char)) : Job Nat := do
  match killWords ws with
  | .error reason => fail s ("kill: " ++ reason)
  | .ok (_, []) => fail s ("kill: " ++ killUsage)
  | .ok (n, pids) =>
    if pids.contains (Text.decimal processId) then
      if harmlessSignals.contains n || stoppingSignals.contains n then pure 0 else throw (.killed n)
    else
      complain s "kill: No such process\n"
      pure 1

/-! ## Variables -/

/-- The first word of a text, and the text after the separators that end it. -/
def splitFirst (separators cs : List Char) : List Char × List Char :=
  let isBlank (c : Char) := isBlankSeparator c && separators.contains c
  let rest := (cs.dropWhile (!separators.contains ·)).dropWhile isBlank
  let rest := match rest with
    | c :: r => if separators.contains c then r.dropWhile isBlank else rest
    | [] => []
  (cs.takeWhile (!separators.contains ·), rest)

/-- A line of the input in variables: a word for each, and the rest for the last. -/
def readLine (s : Streams) (ws : List (List Char)) : Job Nat := do
  let names := ws.filter fun w => w.head? ≠ some '-'
  let cs ← takeInput s.input
  let line := cs.takeWhile (· != '\n')
  let rest := cs.drop (line.length + 1)
  modify fun m => { m with inputs := m.inputs.set s.input (Text.toBytes rest) }
  let separators := (← get).separators
  let isBlank (c : Char) := isBlankSeparator c && separators.contains c
  let mut left := line.dropWhile isBlank
  for (name, last) in names.zipIdx.map fun (n, i) => (n, i + 1 == names.length) do
    if last then assign name (left.reverse.dropWhile isBlank).reverse
    else
      let (w, rest) := splitFirst separators left
      assign name w
      left := rest
  pure (statusOf (line.length < cs.length))

/-- Variables set for other programs, of which there are none; they are set for the script too. -/
def export_ (_ : Streams) (ws : List (List Char)) : Job Nat := do
  for w in ws do
    let name := w.takeWhile (· != '=')
    if name.length < w.length then assign name (w.drop (name.length + 1))
  pure 0

/-- Variables removed. -/
def unset (_ : Streams) (ws : List (List Char)) : Job Nat := do
  for w in ws do unassign w
  pure 0

/-! ## All commands -/

/-- The command with a name. -/
def commandNamed? (name : String) : Option (Streams → List (List Char) → Job Nat) :=
  match name with
  | ":" | "true" => some fun _ _ => pure 0
  | "false" => some fun _ _ => pure 1
  | "echo" => some echo
  | "printf" => some printfCommand
  | "test" => some (testNamed "test")
  | "[" => some bracket
  | "wc" => some wordCount
  | "exit" => some exit
  | "break" => some (leave .broken)
  | "continue" => some (leave .continued)
  | "kill" => some kill
  | "read" => some readLine
  | "export" | "readonly" => some export_
  | "unset" => some unset
  | _ => none

end BackupFleet.Shell
