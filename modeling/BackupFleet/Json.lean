import BackupFleet.Order
import BackupFleet.Text.Numeral

/-!
# `BackupFleet.Json` — structured reports

The state of a fleet is reported as JSON: texts, counts, flags, lists and objects. An object lists its
fields in ascending order, so a report does not depend on the order in which it was put together.

## Contents

* `Json` — the values;
* `quote` — a text between quotes;
* `Json.render` — a value over several lines, two blanks deeper at each level.
-/

namespace BackupFleet

/-! ## Values -/

/-- A report. -/
inductive Json where
  | null
  | bool (b : Bool)
  | count (n : Nat)
  | text (s : String)
  | list (items : List Json)
  | object (fields : List (String × Json))

namespace Json

/-- An object with the fields of a map. -/
def ofMap {α : Type} (value : α → Json) (m : OrderedMap α) : Json :=
  .object (m.entries.map fun (k, v) => (k, value v))

/-- An object with the given fields. -/
def ofFields (fields : List (String × Json)) : Json := .object (sortOn (·.1) fields)

/-- A text, or `null`. -/
def ofOption : Option String → Json
  | some s => .text s
  | none => .null

/-! ## Rendering -/

/-- A hexadecimal digit in lower case. -/
def hexDigit (n : Nat) : Char := Nat.digitChar (n % 16)

/-- A character inside quotes. Control characters without a letter of their own are written by number. -/
def escape (c : Char) : List Char :=
  match c with
  | '"' => ['\\', '"']
  | '\\' => ['\\', '\\']
  | '\x08' => ['\\', 'b']
  | '\x0c' => ['\\', 'f']
  | '\n' => ['\\', 'n']
  | '\r' => ['\\', 'r']
  | '\t' => ['\\', 't']
  | c =>
    if c.toNat < 32 then ['\\', 'u', '0', '0', hexDigit (c.toNat / 16), hexDigit c.toNat]
    else [c]

/-- A text between quotes. -/
def quote (s : String) : List Char := '"' :: s.toList.flatMap escape ++ ['"']

/-- The start of a line at a depth. -/
def newline (depth : Nat) : List Char := '\n' :: List.replicate (2 * depth) ' '

/-- Items between brackets, each on a line of its own; nothing between the brackets of an empty list. -/
def bracketed (opening closing : Char) (depth : Nat) : List (List Char) → List Char
  | [] => [opening, closing]
  | items =>
    opening :: (newline (depth + 1) ++ (items.intersperse (',' :: newline (depth + 1))).flatten) ++
      newline depth ++ [closing]

mutual

/-- A value at a depth. -/
def renderAt (depth : Nat) : Json → List Char
  | .null => "null".toList
  | .bool true => "true".toList
  | .bool false => "false".toList
  | .count n => Text.decimal n
  | .text s => quote s
  | .list items => bracketed '[' ']' depth (renderItems (depth + 1) items)
  | .object fields => bracketed '\x7b' '\x7d' depth (renderFields (depth + 1) fields)

/-- The items of a list. -/
def renderItems (depth : Nat) : List Json → List (List Char)
  | [] => []
  | j :: r => renderAt depth j :: renderItems depth r

/-- The fields of an object, each as its name and its value. -/
def renderFields (depth : Nat) : List (String × Json) → List (List Char)
  | [] => []
  | (k, j) :: r => (quote k ++ ':' :: ' ' :: renderAt depth j) :: renderFields depth r

end

/-- A value over several lines. -/
def render (j : Json) : String := String.ofList (renderAt 0 j)

end Json

end BackupFleet
