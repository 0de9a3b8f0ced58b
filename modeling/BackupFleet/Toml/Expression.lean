import BackupFleet.Toml.Number
import BackupFleet.Toml.Table
import BackupFleet.Toml.Time

/-!
# `BackupFleet.Toml.Expression` — names and values

A name is a plain word or quoted; a dotted name leads through tables. A value is told by its first
character. Arrays may go over several lines and may end with a comma; tables between braces stand on one
line and may not. Both may hold values of any kind, up to a limited depth.

## Contents

* `Reader.path` — a dotted name;
* `Reader.scalar`, `array`, `inlineTable`, `valueAt`, `value` — values;
* `Reader.assignment` — a dotted name and its value.
-/

namespace BackupFleet.Toml.Reader

open BackupFleet.Reader

/-! ## Names -/

/-- A letter of a plain name. -/
def isNameChar (c : Char) : Bool := c.isAlphanum || c == '_' || c == '-'

/-- A name. -/
def name : Reader String := quotedLine <|> (String.ofList <$> run1 isNameChar)

/-- How many names a dotted name has at most, and how deep values are nested at most. -/
def maxDepth : Nat := 79

/-- The names of a dotted name before the last one, and the last one. -/
def path : Reader (List String × String) := do
  let names ← separated (do gap; let n ← name; gap; pure n) '.'
  match names.getLast? with
  | some last => if names.length ≤ maxDepth then pure (names.dropLast, last) else failure
  | none => failure

/-! ## Values -/

/-- A value without parts. -/
def scalar : Reader Value :=
  (.text <$> quoted) <|> (do word "true"; pure (.boolean true)) <|>
    (do word "false"; pure (.boolean false)) <|> (.time <$> time) <|> (.float <$> float) <|>
    (.integer <$> integer)

/-- Values between brackets. -/
def array (item : Reader Value) : Reader Value := do
  word "["
  let items ← separated (do blanks; let v ← item; blanks; pure v) ','
  if items.isEmpty then pure () else do let _ ← maybe (word ",")
  blanks
  word "]"
  pure (.array items)

/-- A dotted name and a value that is read by `item`. -/
def assignment (item : Reader Value) : Reader ((List String × String) × Value) := do
  let p ← path
  word "="
  gap
  pure (p, ← item)

/-- Assignments between braces. -/
def inlineTable (item : Reader Value) : Reader Value := do
  word "\x7b"
  let assignments ← separated (do let a ← assignment item; gap; pure a) ','
  gap
  word "\x7d"
  let fields ← StateT.lift (assignments.foldlM (fun fields a => addValue a.1.1 a.1.2 a.2 fields) [])
  pure (Fields.toValue fields)

/-- A value with at most `depth` arrays and tables around its innermost parts. -/
def valueAt : (depth : Nat) → Reader Value
  | 0 => scalar
  | depth + 1 => scalar <|> array (valueAt depth) <|> inlineTable (valueAt depth)

/-- A value. -/
def value : Reader Value := valueAt maxDepth

end BackupFleet.Toml.Reader
