import BackupFleet.CommandLine.Grammar

/-!
# `BackupFleet.CommandLine.Reading` — reading a level word by word

A long option is `--name`, with a value `--name=value` or `--name value`. Short options may share a
hyphen; the first that takes a value takes the rest of the word, or else the next word. After `--` all
words are arguments.

A value in a word of its own is looked at when the next option or argument is accepted, or at the end of
the level: so of two mistakes, a word that does not belong there is told before the value in front of it.

## Contents

* `Reading`, `accept`, `settle` — what has been read, and options taken into it;
* `readLong`, `readCluster`, `readPlain` — one word;
* `readWords` — the words of a level;
* `Reading.check` — exclusions, and arguments that are missing.
-/

namespace BackupFleet.CommandLine

/-- What has been read of a level. An option is pending until its value has been looked at. -/
structure Reading (δ : Type) where
  draft : δ
  arguments : Arguments δ
  given : List (Spec δ)
  pending : Option (Spec δ × Option String)

namespace Reading

variable {δ : Type}

/-- Before the first word. -/
def start (g : Grammar δ) (draft : δ) : Reading δ := ⟨draft, g.arguments, [], none⟩

/-- The option has been given. -/
def has (r : Reading δ) (name : String) : Bool := r.given.any (·.long = name)

/-! ## Options -/

/-- A mistake. -/
def mistake {α : Type} (e : UsageError) : Except Stop α := .error (.mistake e)

/-- A value that an option takes. -/
def takeValue (o : Spec δ) (set : String → δ → Except Refusal δ) (v : String) (r : Reading δ) :
    Except Stop (Reading δ) :=
  match set v r.draft with
  | .ok draft => .ok { r with draft, given := r.given ++ [o] }
  | .error .empty => mistake (.missingValue o.display)
  | .error (.invalid reason) => mistake (.invalidValue v o.display reason)

/-- The option is new, or may be given again. -/
def once (o : Spec δ) (r : Reading δ) : Except Stop Unit :=
  if r.has o.long ∧ ¬o.repeatable then mistake (.repeated o.display) else .ok ()

/-- An option with its value, if there is one. -/
def accept (o : Spec δ) (v : Option String) (r : Reading δ) : Except Stop (Reading δ) :=
  match o.taking, v with
  | .stop why, _ => .error why
  | .nothing set, _ => do
    once o r
    pure { r with draft := set r.draft, given := r.given ++ [o] }
  -- A repetition is told before what is wrong with the value.
  | .value set, some v => do
    once o r
    takeValue o set v r
  | .value _, none => mistake (.missingValue o.display)
  | .perhaps default set, v => do
    once o r
    takeValue o set (v.getD default) r

/-- The pending option is accepted, if there is one. -/
def settle (r : Reading δ) : Except Stop (Reading δ) :=
  match r.pending with
  | none => .ok r
  | some (o, v) => accept o v { r with pending := none }

/-- The pending option, if it waits for the next word. -/
def waiting? (r : Reading δ) : Option (Spec δ) :=
  match r.pending with
  | some (o, none) => some o
  | _ => none

/-- An option whose value is known to be there or not. -/
def give (o : Spec δ) (v : Option String) (r : Reading δ) : Except Stop (Reading δ) := do
  accept o v (← r.settle)

/-- An option that waits for the next word. -/
def await (o : Spec δ) (r : Reading δ) : Except Stop (Reading δ) := do
  pure { ← r.settle with pending := some (o, none) }

/-! ## Words -/

/-- The characters before the first `=` and those after it. -/
def splitAssignment (cs : List Char) : List Char × Option (List Char) :=
  (cs.takeWhile (· ≠ '='), (cs.dropWhile (· ≠ '=')).tail?)

/-- A word after its two hyphens. -/
def readLong (g : Grammar δ) (cs : List Char) (r : Reading δ) : Except Stop (Reading δ) :=
  let (name, attached) := splitAssignment cs
  match g.long? (String.ofList name) with
  | none => mistake (.unexpectedWord ("--" ++ String.ofList name))
  | some o =>
    match o.takesValue, attached with
    | true, none => r.await o
    | true, some v => r.give o (some (String.ofList v))
    | false, none => r.give o none
    | false, some v => mistake (.unexpectedValue (String.ofList v) o.display)

/-- A word after its hyphen. -/
def readCluster (g : Grammar δ) : List Char → Reading δ → Except Stop (Reading δ)
  | [], r => .ok r
  | c :: cs, r =>
    match g.short? c with
    | none => mistake (.unexpectedWord ("-" ++ c.toString))
    | some o =>
      match o.takesValue, cs with
      | true, [] => r.await o
      -- A single `=` between the option and its value belongs to neither.
      | true, '=' :: v => r.give o (some (String.ofList v))
      | true, v => r.give o (some (String.ofList v))
      -- Options without a value leave the rest of the word to those after them.
      | false, _ => do readCluster g cs (← r.give o none)

/-- An argument. -/
def readArgument (g : Grammar δ) (afterHyphens : Bool) (w : String) (r : Reading δ) :
    Except Stop (Reading δ) :=
  match r.arguments.next? with
  | some (set, arguments) => do
    let r ← r.settle
    pure { r with draft := set w r.draft, arguments }
  | none =>
    -- After `--` even the name of a command is only a word too many.
    if g.commands.isEmpty ∨ (afterHyphens ∧ w ∈ g.commands) then mistake (.unexpectedWord w)
    else mistake (.unknownCommand w)

/-- A word that is no option: the value that an option waits for, or an argument. -/
def readPlain (g : Grammar δ) (w : String) (r : Reading δ) : Except Stop (Reading δ) :=
  match r.waiting? with
  | some o => .ok { r with pending := some (o, some w) }
  | none => readArgument g false w r

/-- Digits, with a point after the first one perhaps, and an exponent perhaps. -/
def isNumber (cs : List Char) : Bool :=
  let (whole, exponent) := (cs.takeWhile (· ≠ 'e'), (cs.dropWhile (· ≠ 'e')).tail?)
  let digits := whole.filter (· ≠ '.')
  !whole.isEmpty && whole.head? != some '.' && digits.length + 1 ≥ whole.length &&
    digits.all Char.isDigit && exponent.all fun e => !e.isEmpty && e.all Char.isDigit

/-- An option waits that takes negative numbers, and this is the number of one. -/
def isAwaitedNumber (cs : List Char) (r : Reading δ) : Bool :=
  r.waiting?.any (·.negativeNumbers) && isNumber cs

/-- A word before `--`. -/
def readWord (g : Grammar δ) (w : String) (r : Reading δ) : Except Stop (Reading δ) :=
  match w.toList with
  | '-' :: '-' :: cs => readLong g cs r
  | '-' :: c :: cs => if r.isAwaitedNumber (c :: cs) then readPlain g w r else readCluster g (c :: cs) r
  | _ => readPlain g w r

/-- Words after `--`. -/
def readArguments (g : Grammar δ) : List String → Reading δ → Except Stop (Reading δ)
  | [], r => .ok r
  | w :: ws, r => do readArguments g ws (← readArgument g true w r)

/-- Words up to the name of a command; that name and the words after it, if there is one. -/
def readWords (g : Grammar δ) :
    List String → Reading δ → Except Stop (Reading δ × Option (String × List String))
  | [], r => .ok (r, none)
  | w :: ws, r =>
    -- The value that an option waits for may look like the name of a command.
    if r.waiting?.isNone ∧ w ∈ g.commands then .ok (r, some (w, ws))
    else if w = "--" then do pure (← readArguments g ws r, none)
    else do readWords g ws (← readWord g w r)

/-! ## The end of a level -/

/-- The first option that excludes another one that was given, and that other one. -/
def exclusion? (r : Reading δ) : Option (Spec δ × Spec δ) :=
  r.given.findSome? fun o => (r.given.find? o.isExcludedBy).map (o, ·)

/-- No option excludes another one, and no argument is missing. -/
def check (r : Reading δ) : Except Stop Unit :=
  match r.exclusion? with
  | some (o, p) => mistake (.conflict o.display p.display)
  | none => if r.arguments.complete then .ok () else mistake .missingArguments

end Reading

end BackupFleet.CommandLine
