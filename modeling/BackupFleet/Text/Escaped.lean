import BackupFleet.Text.Printable

/-!
# `BackupFleet.Text.Escaped` — a text as a message quotes it

## Contents

* `escapeForMessage`, `quoteForMessage` — a character, and a text between double quotes.
-/

namespace BackupFleet.Text

/-- A character inside quotes. -/
def escapeForMessage (c : Char) : List Char :=
  match c with
  | '"' => ['\\', '"']
  | '\\' => ['\\', '\\']
  | '\x00' => ['\\', '0']
  | '\t' => ['\\', 't']
  | '\n' => ['\\', 'n']
  | '\r' => ['\\', 'r']
  | c =>
    if isPrintable c then [c]
    else '\\' :: 'u' :: '\x7b' :: Nat.toDigits 16 c.toNat ++ ['\x7d']

/-- A text between double quotes. -/
def quoteForMessage (cs : List Char) : List Char := '"' :: cs.flatMap escapeForMessage ++ ['"']

end BackupFleet.Text
