import BackupFleet.Shell.Machine
import BackupFleet.Text.Blank
import BackupFleet.Text.Numeral

/-!
# `BackupFleet.Shell.Condition` — the conditions of `test`

A condition is about texts, numbers or files. Up to four words are understood by their number, as the
standard says, so a word that looks like an operator does no harm where an operand is expected; more
words are joined by `-a` and `-o`.

## Contents

* `ConditionError` — words that make no condition;
* `unaryTest`, `binaryTest` — conditions on one and on two operands;
* `condition` — words as a condition.
-/

namespace BackupFleet.Shell

/-- Why words make no condition. -/
inductive ConditionError where
  | notANumber (text : List Char)
  | unexpected (text : List Char)
deriving DecidableEq, Repr

/-- The complaint about words. -/
def ConditionError.message : ConditionError → String
  | notANumber text => "Illegal number: " ++ Text.textOf text
  | unexpected text => Text.textOf text ++ ": unexpected operator"

/-- A number, with blanks around it. -/
def testNumber (cs : List Char) : Except ConditionError Int :=
  let trimmed := Text.trim cs
  let value := match trimmed with
    | '-' :: r => (Text.readDigits r).map fun (n : Nat) => -(n : Int)
    | '+' :: r => (Text.readDigits r).map fun (n : Nat) => (n : Int)
    | _ => (Text.readDigits trimmed).map fun (n : Nat) => (n : Int)
  match value with
  | some n => .ok n
  | none => .error (.notANumber cs)

/-- The condition on one operand that an operator stands for. -/
def unaryTest (fs : FileSystem) (op : String) : Option (List Char → Bool) :=
  match op with
  | "-n" => some fun cs => cs ≠ []
  | "-z" => some fun cs => cs = []
  | "-e" => some fun cs => fs.exists_ (Text.textOf cs)
  | "-f" => some fun cs => fs.isFile (Text.textOf cs)
  | "-d" => some fun cs => fs.isDirectory (Text.textOf cs)
  | "-r" | "-w" => some fun cs => fs.exists_ (Text.textOf cs)
  | "-x" => some fun cs => fs.isDirectory (Text.textOf cs)
  | "-s" => some fun cs =>
    match fs.entry (Text.textOf cs) with
    | .ok (.file content) => content ≠ []
    | .ok .directory => true
    | .error _ => false
  | _ => none

/-- A comparison of numbers. -/
def compareNumbers (p : Int → Int → Bool) (a b : List Char) : Except ConditionError Bool := do
  let m ← testNumber a
  let n ← testNumber b
  pure (p m n)

/-- The condition on two operands that an operator stands for. -/
def binaryTest (op : String) : Option (List Char → List Char → Except ConditionError Bool) :=
  match op with
  | "=" => some fun a b => .ok (a == b)
  | "!=" => some fun a b => .ok (a != b)
  | "<" => some fun a b => .ok (decide (String.ofList a < String.ofList b))
  | ">" => some fun a b => .ok (decide (String.ofList b < String.ofList a))
  | "-eq" => some (compareNumbers fun m n => m == n)
  | "-ne" => some (compareNumbers fun m n => m != n)
  | "-lt" => some (compareNumbers fun m n => m < n)
  | "-le" => some (compareNumbers fun m n => m ≤ n)
  | "-gt" => some (compareNumbers fun m n => n < m)
  | "-ge" => some (compareNumbers fun m n => n ≤ m)
  | _ => none

/-- An operator as text. -/
def operatorText (cs : List Char) : String := String.ofList cs

/-- Words as a condition of up to four words. -/
def shortCondition (fs : FileSystem) : List (List Char) → Except ConditionError Bool
  | [] => .ok false
  | [a] => .ok (a ≠ [])
  | [op, a] =>
    if op = ['!'] then .ok (a = [])
    else match unaryTest fs (operatorText op) with
      | some p => .ok (p a)
      | none => .error (.unexpected op)
  | [a, op, b] =>
    match binaryTest (operatorText op) with
    | some p => p a b
    | none =>
      if op = "-a".toList then .ok (a ≠ [] && b ≠ [])
      else if op = "-o".toList then .ok (a ≠ [] || b ≠ [])
      else if a = ['!'] then (shortCondition fs [op, b]).map (!·)
      else if a = ['('] ∧ b = [')'] then .ok (op ≠ [])
      else .error (.unexpected op)
  | a :: r => if a = ['!'] then (shortCondition fs r).map (!·) else .error (.unexpected a)

/-- The pieces of a list between the elements that are equal to one. -/
def splitAt (x : List Char) : List (List Char) → List (List (List Char))
  | [] => [[]]
  | y :: r =>
    if y = x then [] :: splitAt x r
    else match splitAt x r with
      | [] => [[y]]
      | piece :: rest => (y :: piece) :: rest

/-- Words as a condition. -/
def condition (fs : FileSystem) (ws : List (List Char)) : Except ConditionError Bool :=
  if ws.length ≤ 4 then shortCondition fs ws
  else do
    let ors ← (splitAt "-o".toList ws).mapM fun alternative => do
      let ands ← (splitAt "-a".toList alternative).mapM (shortCondition fs)
      pure (ands.all id)
    pure (ors.any id)

end BackupFleet.Shell
