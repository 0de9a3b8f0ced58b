import BackupFleet.Text.Numeral
import BackupFleet.Text.Reader

/-!
# `BackupFleet.Toml.Blank` — what stands between the parts of a configuration file

## Contents

* `isGap`, `isPlain` — classes of characters;
* `gap`, `newline`, `comment`, `lineEnd`, `restOfLine`, `blanks` — blanks, comments and ends of lines.
-/

namespace BackupFleet.Toml.Reader

open BackupFleet.Reader

/-- A blank inside a line. -/
def isGap (c : Char) : Bool := c == ' ' || c == '\t'

/-- A character that may stand for itself: a tab, or no control character. -/
def isPlain (c : Char) : Bool := c == '\t' || (' ' ≤ c && c.toNat != 0x7F)

/-- Blanks inside a line. -/
def gap : Reader Unit := do let _ ← run isGap

/-- The end of a line. -/
def newline : Reader Unit := word "\n" <|> word "\r\n"

/-- A comment, up to the end of its line. -/
def comment : Reader Unit := do
  word "#"
  let _ ← run isPlain

/-- The end of a line or of the text. -/
def lineEnd : Reader Unit := newline <|> atEnd

/-- The rest of a line on which nothing more may stand. -/
def restOfLine : Reader Unit := do
  gap
  let _ ← maybe comment
  lineEnd

/-- Blanks, comments and ends of lines. -/
def blanks : Reader Unit := do
  gap
  let _ ← many (do
    let _ ← maybe comment
    newline
    gap)

end BackupFleet.Toml.Reader
