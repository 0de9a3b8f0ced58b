import BackupFleet.Text.Numeral
import BackupFleet.Text.Reader

/-!
# `BackupFleet.Shell.Arithmetic` — arithmetic expressions

Expressions are made of numbers and variables of 64 bits, the usual operators with their usual binding,
choices and assignments. Results wrap around.

## Contents

* `Expression`, `readExpression` — expressions;
* `Expression.value` — their values.
-/

namespace BackupFleet.Shell

open BackupFleet.Reader

/-! ## Expressions -/

/-- An expression; operators are kept as they are written. -/
inductive Expression where
  | number (n : Int)
  | named (name : List Char)
  | unary (op : String) (e : Expression)
  | binary (op : String) (left right : Expression)
  | choice (condition yes no : Expression)
  | assigned (name : List Char) (op : Option String) (e : Expression)
deriving Repr

/-- Operators between two expressions, level by level; those of later levels bind closer. -/
def operatorLevels : List (List String) :=
  [["||"], ["&&"], ["|"], ["^"], ["&"], ["==", "!="], ["<=", ">=", "<", ">"], ["<<", ">>"], ["+", "-"],
    ["*", "/", "%"]]

/-- All operators, the longer ones first. -/
def operators : List String :=
  let all := operatorLevels.flatten
  all.filter (·.length = 2) ++ all.filter (·.length = 1)

/-- Blanks in an expression. -/
def space : Reader Unit := do
  let _ ← run fun c => c == ' ' || c == '\t' || c == '\n'

/-- The longest operator that stands here, if it is on a level. -/
def operatorOf (level : List String) : Reader String := do
  space
  let cs ← get
  match operators.find? fun op => op.toList.isPrefixOf cs with
  | some op =>
    if level.contains op then
      word op
      pure op
    else failure
  | none => failure

/-- What a digit counts in a base up to 16. -/
def digitIn (base : Nat) (c : Char) : Option Nat :=
  let n :=
    if c.isDigit then c.toNat - '0'.toNat
    else if 'a' ≤ c.toLower ∧ c.toLower ≤ 'f' then c.toLower.toNat - 'a'.toNat + 10
    else base
  if n < base then some n else none

/-- The number that digits denote: hexadecimal after `0x`, octal after `0`, otherwise decimal. -/
def readConstant (cs : List Char) : Option Int :=
  let (base, digits) := match cs with
    | '0' :: 'x' :: r => (16, r)
    | '0' :: 'X' :: r => (16, r)
    | '0' :: d :: r => (8, d :: r)
    | _ => (10, cs)
  if digits.isEmpty then none
  else digits.foldlM (fun n c => (digitIn base c).map fun (d : Nat) => base * n + d) (0 : Int)

/-- An expression of which the operators are on some levels; `unit` reads the parts between them. -/
def expressionOf (unit : Reader Expression) : List (List String) → Reader Expression
  | [] => unit
  | level :: closer => do
    let first ← expressionOf unit closer
    let rest ← many (do
      let op ← operatorOf level
      pure (op, ← expressionOf unit closer))
    pure (rest.foldl (fun e (op, f) => .binary op e f) first)

/-- The operators with which an assignment may work on the old value, each before its equals sign. -/
def assigningOperators : List String := ["<<", ">>", "*", "/", "%", "+", "-", "&", "^", "|"]

/-- A name or a number. -/
def nameOrNumber : Reader Expression := do
  let cs ← run1 fun c => c.isAlphanum || c == '_'
  if (cs.head?.getD '0').isDigit then
    match readConstant cs with
    | some n => pure (.number n)
    | none => failure
  else pure (.named cs)

/-- A part between operators, from the readers for what lies inside it. -/
def unitOf (unit whole : Reader Expression) : Reader Expression := do
  space
  (do
    word "("
    let e ← whole
    space
    word ")"
    pure e) <|>
  (do
    let op ← next fun c => "+-!~".toList.contains c
    pure (.unary (String.ofList [op]) (← unit))) <|>
  nameOrNumber

/-- An equals sign, perhaps with an operator in front of it. -/
def assignSign : Reader (Option String) := do
  let op ← assigningOperators.foldr (fun op other => (do word op; pure (some op)) <|> other) (pure none)
  word "="
  if (← get).head? = some '=' then failure else pure op

/-- An assignment. -/
def assignmentOf (whole : Reader Expression) : Reader Expression := do
  space
  let .named name ← nameOrNumber | failure
  space
  let op ← assignSign
  pure (.assigned name op (← whole))

/-- An expression with operators, and the choice that it decides, if one follows. -/
def choiceOf (condition whole : Reader Expression) : Reader Expression := do
  let c ← condition
  (do
    space
    word "?"
    let yes ← whole
    space
    word ":"
    pure (.choice c yes (← whole))) <|> pure c

/-- The readers of a part between operators and of a whole expression, up to some depth. -/
def expressionAt : Nat → Reader Expression × Reader Expression
  | 0 => (failure, failure)
  | n + 1 =>
    let (unit, whole) := expressionAt n
    let unit := unitOf unit whole
    (unit, assignmentOf whole <|> choiceOf (expressionOf unit operatorLevels) whole)

/-- The expression that a text is; an empty text is zero. -/
def readExpression (cs : List Char) : Option Expression :=
  (do
    let e ← maybe (expressionAt (cs.length + 1)).2
    space
    atEnd
    pure (e.getD (.number 0)) : Reader Expression).run' cs

/-! ## Values -/

/-- Why an expression has no value. -/
inductive ArithmeticError where
  | malformed
  | divisionByZero
  | notANumber (text : List Char)
deriving DecidableEq, Repr

/-- The number of 64 bits with a sign that is congruent to a number. -/
def wrap (n : Int) : Int := n.bmod Text.bound64

/-- The number that a flag is. -/
def ofFlag (b : Bool) : Int := if b then 1 else 0

/-- The bits of a number, as a natural number. -/
def bitsOf (n : Int) : Nat := (n % (Text.bound64 : Int)).toNat

/-- The value of an operator on one number. -/
def unaryValue (op : String) (n : Int) : Int :=
  match op with
  | "-" => wrap (-n)
  | "!" => ofFlag (n == 0)
  | "~" => -n - 1
  | _ => n

/-- The value of an operator on two numbers. -/
def binaryValue (op : String) (a b : Int) : Except ArithmeticError Int :=
  match op with
  | "+" => .ok (wrap (a + b))
  | "-" => .ok (wrap (a - b))
  | "*" => .ok (wrap (a * b))
  | "/" => if b = 0 then .error .divisionByZero else .ok (wrap (a.tdiv b))
  | "%" => if b = 0 then .error .divisionByZero else .ok (a.tmod b)
  | "<<" => .ok (wrap (a * Nat.pow 2 (bitsOf b % 64)))
  | ">>" => .ok (a.fdiv (Nat.pow 2 (bitsOf b % 64)))
  | "==" => .ok (ofFlag (a == b))
  | "!=" => .ok (ofFlag (a != b))
  | "<=" => .ok (ofFlag (a ≤ b))
  | ">=" => .ok (ofFlag (b ≤ a))
  | "<" => .ok (ofFlag (a < b))
  | ">" => .ok (ofFlag (b < a))
  | "&" => .ok (wrap (bitsOf a &&& bitsOf b : Nat))
  | "|" => .ok (wrap (bitsOf a ||| bitsOf b : Nat))
  | "^" => .ok (wrap (bitsOf a ^^^ bitsOf b : Nat))
  | _ => .error .malformed

/-- The number that the value of a variable is; a sign may stand before the digits. -/
def variableValue (cs : List Char) : Except ArithmeticError Int :=
  let value := match cs with
    | [] => some 0
    | '-' :: r => (readConstant r).map fun n => -n
    | '+' :: r => readConstant r
    | _ => readConstant cs
  match value with
  | some n => .ok (wrap n)
  | none => .error (.notANumber cs)

/-- Variables with their values. -/
abbrev Variables := List (List Char × List Char)

/-- The variables with one of them set. -/
def Variables.assign (v : Variables) (name value : List Char) : Variables :=
  (name, value) :: v.filter (·.1 ≠ name)

/-- The value of an expression, and the variables after it; a variable without a value is zero. The right
    side of `&&` and `||` only counts if the left side leaves it open. -/
def Expression.value : Expression → Variables → Except ArithmeticError (Int × Variables)
  | .number n, v => .ok (wrap n, v)
  | .named name, v => do pure (← variableValue ((v.lookup name).getD []), v)
  | .unary op e, v => do
    let (n, v) ← e.value v
    pure (unaryValue op n, v)
  | .binary op left right, v => do
    let (a, v) ← left.value v
    if op = "&&" ∧ a = 0 then pure (0, v)
    else if op = "||" ∧ a ≠ 0 then pure (1, v)
    else
      let (b, v) ← right.value v
      if op = "&&" ∨ op = "||" then pure (ofFlag (b != 0), v) else pure (← binaryValue op a b, v)
  | .choice condition yes no, v => do
    let (c, v) ← condition.value v
    if c ≠ 0 then yes.value v else no.value v
  | .assigned name op e, v => do
    let (b, v) ← e.value v
    let n ← match op with
      | none => pure b
      | some op => binaryValue op (← variableValue ((v.lookup name).getD [])) b
    pure (n, v.assign name (toString n).toList)

end BackupFleet.Shell
