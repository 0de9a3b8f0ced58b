import BackupFleet.CommandLine.Usage

/-!
# `BackupFleet.CommandLine.Grammar` — the words that a level of a command line admits

A command line has levels: the words before the name of a command and those after it. Each level admits
options and arguments, and reading it fills in a draft. An option knows how it changes the draft, so the
draft can be the very value that the program works with.

## Contents

* `Refusal`, `Taking` — what an option takes, and values that it does not take;
* `Spec`, `Spec.display`, `Spec.within` — options;
* `Arguments` — the arguments that are still to come;
* `Grammar` — a level.
-/

namespace BackupFleet.CommandLine

/-! ## Options -/

/-- Why an option does not take a value. -/
inductive Refusal where
  | empty
  | invalid (reason : String)

/-- What an option takes, and how it changes the draft. One that takes a value perhaps has a value to go
    on with if there is none. -/
inductive Taking (δ : Type) where
  | nothing (set : δ → δ)
  | value (set : String → δ → Except Refusal δ)
  | perhaps (default : String) (set : String → δ → Except Refusal δ)
  | stop (why : Stop)

/-- An option. -/
structure Spec (δ : Type) where
  long : String
  short : Option Char := none
  valueName : String := ""
  taking : Taking δ
  negativeNumbers : Bool := false
  repeatable : Bool := false
  excludes : List String := []

namespace Spec

variable {δ ε : Type}

/-- The option as it is written, with the name of its value. -/
def display (o : Spec δ) : String :=
  match o.taking with
  | .nothing _ | .stop _ => "--" ++ o.long
  | .value _ => "--" ++ o.long ++ " <" ++ o.valueName ++ ">"
  | .perhaps _ _ => "--" ++ o.long ++ " [<" ++ o.valueName ++ ">]"

/-- The option takes a value, if only perhaps. -/
def takesValue (o : Spec δ) : Bool :=
  match o.taking with
  | .nothing _ | .stop _ => false
  | .value _ | .perhaps _ _ => true

/-- The two options exclude each other. -/
def isExcludedBy (o p : Spec δ) : Bool := o.excludes.contains p.long || p.excludes.contains o.long

/-- The option on a part of a larger draft. -/
def within (get : ε → δ) (put : δ → ε → ε) (o : Spec δ) : Spec ε :=
  let onPart (set : String → δ → Except Refusal δ) (v : String) (e : ε) : Except Refusal ε :=
    (set v (get e)).map (put · e)
  { long := o.long
    short := o.short
    valueName := o.valueName
    taking := match o.taking with
      | .nothing set => .nothing fun e => put (set (get e)) e
      | .value set => .value (onPart set)
      | .perhaps default set => .perhaps default (onPart set)
      | .stop why => .stop why
    negativeNumbers := o.negativeNumbers
    repeatable := o.repeatable
    excludes := o.excludes }

end Spec

/-! ## Arguments -/

/-- The arguments that are still to come: one for each of a list, or any number of a kind, at least one
    of them unless one has been given. -/
inductive Arguments (δ : Type) where
  | each (sets : List (String → δ → δ))
  | many (given : Bool) (add : String → δ → δ)

namespace Arguments

variable {δ ε : Type}

/-- No argument must come. -/
def complete : Arguments δ → Bool
  | each sets => sets.isEmpty
  | many given _ => given

/-- How the next argument changes the draft, and what is to come after it. -/
def next? : Arguments δ → Option ((String → δ → δ) × Arguments δ)
  | each [] => none
  | each (set :: r) => some (set, each r)
  | many _ add => some (add, many true add)

/-- The arguments on a part of a larger draft. -/
def within (get : ε → δ) (put : δ → ε → ε) : Arguments δ → Arguments ε
  | each sets => each (sets.map fun set v e => put (set v (get e)) e)
  | many given add => many given fun v e => put (add v (get e)) e

end Arguments

/-! ## Levels -/

/-- What a level admits: options, arguments, and the names of commands, which end it. -/
structure Grammar (δ : Type) where
  options : List (Spec δ)
  arguments : Arguments δ
  commands : List String := []

namespace Grammar

variable {δ : Type}

/-- The option with a long name. -/
def long? (g : Grammar δ) (name : String) : Option (Spec δ) := g.options.find? (·.long = name)

/-- The option with a short name. -/
def short? (g : Grammar δ) (name : Char) : Option (Spec δ) := g.options.find? (·.short = some name)

end Grammar

end BackupFleet.CommandLine
