import BackupFleet.Toml.Blank

/-!
# `BackupFleet.Toml.Quoted` — texts between quotes

A text stands between double quotes, where a backslash starts an escape, or between single quotes, where
every character is itself. Three quotes open a text over several lines: a line end right after them does
not count, one or two quotes inside are part of the text, and up to two may stand before the closing
three. A backslash at the end of a line joins it with what follows.

## Contents

* `digitValue` — a digit in a base up to 16;
* `Reader.escape` — what may follow a backslash;
* `Reader.basic`, `literal`, `longBasic`, `longLiteral` — the four forms;
* `Reader.quoted`, `Reader.quotedLine` — any form, and the forms on one line.
-/

namespace BackupFleet.Toml

/-- What a digit counts in a base. -/
def digitValue (base : Nat) (c : Char) : Option Nat :=
  let n :=
    if c.isDigit then c.toNat - '0'.toNat
    else if 'a' ≤ c ∧ c ≤ 'f' then c.toNat - 'a'.toNat + 10
    else if 'A' ≤ c ∧ c ≤ 'F' then c.toNat - 'A'.toNat + 10
    else base
  if n < base then some n else none

/-- The number that digits in a base denote. -/
def valueInBase (base : Nat) (digits : List Char) : Nat :=
  digits.foldl (fun n c => base * n + (digitValue base c).getD 0) 0

namespace Reader

open BackupFleet.Reader

/-! ## Escapes -/

/-- A character of this class. -/
def isBaseDigit (base : Nat) (c : Char) : Bool := (digitValue base c).isSome

/-- The character with a number of `width` hexadecimal digits. -/
def numbered (width : Nat) : Reader Char := do
  let digits ← StateT.mk fun cs => some (cs.take width, cs.drop width)
  let n := valueInBase 16 digits
  if digits.length = width ∧ digits.all (isBaseDigit 16) ∧ n.isValidChar then pure (Char.ofNat n)
  else failure

/-- The character that a letter after a backslash stands for. -/
def escapedLetter : Char → Option Char
  | 'b' => some '\x08'
  | 'f' => some '\x0c'
  | 'n' => some '\n'
  | 'r' => some '\r'
  | 't' => some '\t'
  | '"' => some '"'
  | '\\' => some '\\'
  | _ => none

/-- A backslash and what it makes of the characters after it. -/
def escape : Reader Char := do
  word "\\"
  match ← next fun _ => true with
  | 'u' => numbered 4
  | 'U' => numbered 8
  | c => StateT.lift (escapedLetter c)

/-! ## On one line -/

/-- A text between double quotes. -/
def basic : Reader (List Char) := do
  word "\""
  let cs ← many (next (fun c => isPlain c && c != '"' && c != '\\') <|> escape)
  word "\""
  pure cs

/-- A text between single quotes. -/
def literal : Reader (List Char) := do
  word "'"
  let cs ← run fun c => isPlain c && c != '\''
  word "'"
  pure cs

/-! ## Over several lines -/

/-- One or two quotes that no third one follows. -/
def innerQuotes (quote : Char) : Reader (List Char) := do
  let quotes ← run1 (· == quote)
  if quotes.length < 3 then pure quotes else failure

/-- The closing quotes; the answer is the quotes before them that belong to the text. -/
def closingQuotes (quote : Char) : Reader (List Char) := fun cs =>
  let n := (cs.takeWhile (· == quote)).length
  if n < 3 then none
  else
    let kept := min (n - 3) 2
    some (List.replicate kept quote, cs.drop (kept + 3))

/-- Opening quotes, the pieces of a text and the closing quotes. -/
def long (quote : Char) (piece : Reader (List Char)) : Reader (List Char) := do
  word (String.ofList [quote, quote, quote])
  let _ ← maybe newline
  let pieces ← many (piece <|> innerQuotes quote)
  let last ← closingQuotes quote
  pure (pieces.flatten ++ last)

/-- A line end in a text. -/
def innerNewline : Reader (List Char) := do
  newline
  pure ['\n']

/-- A backslash at the end of a line, and all blanks and line ends after it. -/
def joinedLines : Reader (List Char) := do
  word "\\"
  gap
  newline
  let _ ← many (newline <|> do let _ ← run1 isGap)
  pure []

/-- A text between three double quotes. -/
def longBasic : Reader (List Char) :=
  long '"' (run1 (fun c => isPlain c && c != '"' && c != '\\') <|> joinedLines <|>
    (do pure [← escape]) <|> innerNewline)

/-- A text between three single quotes. -/
def longLiteral : Reader (List Char) :=
  long '\'' (run1 (fun c => isPlain c && c != '\'') <|> innerNewline)

/-! ## Any form -/

/-- A text on one line. -/
def quotedLine : Reader String := String.ofList <$> (basic <|> literal)

/-- A text in any form. -/
def quoted : Reader String := String.ofList <$> (longBasic <|> longLiteral <|> basic <|> literal)

end Reader

end BackupFleet.Toml
