/-!
# `BackupFleet.Text.Reader` — taking a text apart from the front

A reader takes something off the front of a text or fails. The syntax of configuration files and of
shell commands is put together from a few readers: a character of some class, a fixed word, a run, an
alternative, a repetition. A repetition ends where its item fails or takes nothing, so it always ends.

## Contents

* `Reader`, `next`, `word`, `run`, `run1` — readers of characters;
* `maybe`, `many`, `separated`, `atEnd` — how readers are combined.
-/

namespace BackupFleet

/-- Takes something off the front of a text. -/
abbrev Reader (α : Type) := StateT (List Char) Option α

namespace Reader

variable {α : Type}

/-! ## Characters -/

/-- One character of a class. -/
def next (p : Char → Bool) : Reader Char
  | c :: r => if p c then some (c, r) else none
  | [] => none

/-- These characters. -/
def word (w : String) : Reader Unit := fun cs =>
  if w.toList.isPrefixOf cs then some ((), cs.drop w.length) else none

/-- The longest run of a class, which may be empty. -/
def run (p : Char → Bool) : Reader (List Char) := fun cs => some (cs.takeWhile p, cs.dropWhile p)

/-- The longest run of a class, which may not be empty. -/
def run1 (p : Char → Bool) : Reader (List Char) := do
  let cs ← run p
  if cs.isEmpty then failure else pure cs

/-! ## Combinations -/

/-- What `r` reads, if it reads anything. -/
def maybe (r : Reader α) : Reader (Option α) := (some <$> r) <|> pure none

/-- What `item` reads again and again, and the text after it. -/
def manyFrom (item : Reader α) (cs : List Char) : List α × List Char :=
  match item cs with
  | none => ([], cs)
  | some (a, rest) =>
    if rest.length < cs.length then
      let (as, rest) := manyFrom item rest
      (a :: as, rest)
    else ([], cs)
termination_by cs.length

/-- What `item` reads again and again. -/
def many (item : Reader α) : Reader (List α) := fun cs => some (manyFrom item cs)

/-- Items with a separator between any two; there may be none. -/
def separated (item : Reader α) (separator : Char) : Reader (List α) :=
  (do
    let first ← item
    let rest ← many (do
      let _ ← next (· == separator)
      item)
    pure (first :: rest)) <|> pure []

/-- The text is at its end. -/
def atEnd : Reader Unit
  | [] => some ((), [])
  | _ => none

end Reader

end BackupFleet
