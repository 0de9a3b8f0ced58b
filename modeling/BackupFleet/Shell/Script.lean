/-!
# `BackupFleet.Shell.Script` — the commands of a hook

Hooks are written in the language of the POSIX shell. This module has the part of it that hooks are made
of: simple commands with assignments and redirections, lists, pipelines, and the compound commands for
choice, repetition and grouping. Words are kept in parts, because expansion treats quoted and unquoted
parts differently.

The shell knows bytes only. Texts in this folder have one character for each byte, the character with
the number of the byte.

## Contents

* `ParameterUse` — what `${name…}` asks for;
* `Part`, `Command`, `Redirect` — words and commands.
-/

namespace BackupFleet.Shell

/-- What an expansion makes of a parameter: its value, another word if it is missing (`-`), that word
    also assigned to it (`=`), another word if it is there (`+`), or an end of the script if it is missing
    (`?`); with a colon an empty value counts as missing. Or its length, or its value without the shortest
    or the longest text at its start (`#`) or its end (`%`) that fits a pattern. -/
inductive ParameterUse where
  | value
  | orElse (colon : Bool)
  | orAssign (colon : Bool)
  | instead (colon : Bool)
  | orFail (colon : Bool)
  | size
  | trim (atEnd longest : Bool)
deriving DecidableEq, Repr

/-- What a redirection does with a stream: read a file, write a file from its start or at its end, or take
    the place of another stream. -/
inductive RedirectKind where
  | input
  | output
  | append
  | copy
deriving DecidableEq, Repr

mutual

/-- A part of a word: plain characters, a parameter, an arithmetic expression, or the output of commands.
    The result of an unquoted expansion is split into words. -/
inductive Part where
  | chars (quoted : Bool) (text : List Char)
  | parameter (quoted : Bool) (name : List Char) (use : ParameterUse) (operand : List Part)
  | arithmetic (quoted : Bool) (expression : List Part)
  | output (quoted : Bool) (body : Command)

/-- A redirection of the stream with a number. -/
inductive Redirect where
  | mk (stream : Nat) (kind : RedirectKind) (target : List Part)

/-- A command. -/
inductive Command where
  | simple (assignments : List (List Char × List Part)) (words : List (List Part))
      (redirects : List Redirect)
  | nothing
  | inOrder (first second : Command)
  | onSuccess (first second : Command)
  | onFailure (first second : Command)
  | negated (body : Command)
  | pipe (left right : Command)
  | group (body : Command) (redirects : List Redirect)
  | subshell (body : Command) (redirects : List Redirect)
  | choice (condition thenBody elseBody : Command)
  | repeated (while_ : Bool) (condition body : Command)
  | forEach (name : List Char) (words : List (List Part)) (body : Command)
  | cases (word : List Part) (arms : List (List (List Part) × Command))

end

end BackupFleet.Shell
