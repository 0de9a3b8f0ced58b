import BackupFleet.Report.Console
import BackupFleet.Report.Nagios

/-!
# `BackupFleet.Report.Writer` — the two formats behind one interface

A run reports to one writer: it is given the messages one by one and is closed at the end, which yields
the exit code. The verdict does not depend on the format; only its number does.

## Contents

* `Format`, `Format.read` — the choice;
* `Writer`, `emit`, `errorOccurred`, `close` — the interface;
* `Writer.emitAll`, `Writer.run` — a whole run;
* `Writer.interrupt` — a run cut short.
-/

namespace BackupFleet

/-! ## Formats -/

/-- For a reader, or for a monitoring system. -/
inductive Format where
  | console
  | nagios
deriving DecidableEq, Repr

namespace Format

/-- The name of a format. -/
def name : Format → String
  | console => "console"
  | nagios => "nagios"

/-- The format with this name, or what to say about the name. -/
def read (s : String) : Except String Format :=
  if s = "console" then .ok console
  else if s = "nagios" then .ok nagios
  else .error ("unknown output format '" ++ s ++ "' (console, nagios)")

@[simp] theorem read_name (f : Format) : read f.name = .ok f := by cases f <;> rfl

end Format

/-! ## Writers -/

/-- A writer of either format. -/
inductive Writer where
  | console (c : Console)
  | nagios (n : Nagios)

namespace Writer

/-- A writer before the first message. -/
def new : Format → (quiet : Bool) → Writer
  | .console, quiet => .console (.new quiet)
  | .nagios, _ => .nagios .new

/-- The writer after a message, and what the message wrote. -/
def emit : Writer → Message → Writer × Written
  | .console c, m => (.console (c.accept m), c.text m)
  | .nagios n, m => (.nagios (n.accept m), .empty)

/-- A failure was reported. -/
def errorOccurred : Writer → Bool
  | .console c => c.errorOccurred
  | .nagios n => n.errorOccurred

/-- The exit code, and what is written last. -/
def close : Writer → Nat × Written
  | .console c => (c.exitCode, .empty)
  | .nagios n => (n.summary.1, .line n.summary.2)

/-- The writer after messages, and what they wrote. -/
def emitAll (w : Writer) : List Message → Writer × Written
  | [] => (w, .empty)
  | m :: ms =>
    let (w, first) := w.emit m
    let (w, rest) := w.emitAll ms
    (w, first ++ rest)

/-- The exit code of a run with these messages, and all it wrote. -/
def run (w : Writer) (messages : List Message) : Nat × Written :=
  let (w, body) := w.emitAll messages
  let (code, last) := w.close
  (code, body ++ last)

/-- What is reported when the user interrupts a run. -/
def interruptMessage : Message := .error "Process interrupted by user"

/-- A run that the user interrupts: the writer after that is reported, the exit code, and what was
    written. -/
def interrupt (w : Writer) : Writer × Nat × Written :=
  let (w, written) := w.emit interruptMessage
  (w, w.close.1, written ++ w.close.2)

end Writer

end BackupFleet
