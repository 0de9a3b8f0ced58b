import BackupFleet.Shell.Arithmetic

/-!
# `BackupFleet.Shell.Format` — the texts that `echo` and `printf` write

A backslash starts an escape. `echo`, and `printf` for the directive `%b`, take an octal number after
`\0` and end all output at `\c`; the format of `printf` takes an octal number of up to three digits right
after the backslash. `printf` goes through its format again as long as arguments are left.

## Contents

* `formatEscape`, `expandEscapes` — escapes;
* `Directive`, `printf` — formats.
-/

namespace BackupFleet.Shell

open BackupFleet.Reader

/-! ## Escapes -/

/-- The character with an octal number, of which a byte is taken. -/
def octalChar (digits : List Char) : Char :=
  Char.ofNat (digits.foldl (fun n d => (8 * n + (d.toNat - '0'.toNat)) % 256) 0)

/-- An octal digit. -/
def isOctal (c : Char) : Bool := '0' ≤ c && c ≤ '7'

/-- What a letter after a backslash stands for. -/
def letterEscape : Char → Option Char
  | '\\' => some '\\'
  | 'a' => some '\x07'
  | 'b' => some '\x08'
  | 'f' => some '\x0c'
  | 'n' => some '\n'
  | 'r' => some '\r'
  | 't' => some '\t'
  | 'v' => some '\x0b'
  | _ => none

/-- What follows a backslash in a format: the character it stands for, and the text after it. A backslash
    before anything else is itself. -/
def formatEscape (cs : List Char) : Char × List Char :=
  match cs with
  | [] => ('\\', [])
  | c :: r =>
    if isOctal c then
      let digits := (cs.take 3).takeWhile isOctal
      (octalChar digits, cs.drop digits.length)
    else match letterEscape c with
      | some e => (e, r)
      | none => ('\\', cs)

/-- A text with its escapes expanded; whether all output ends with it. -/
def expandEscapesIn : Nat → List Char → List Char × Bool
  | 0, _ => ([], false)
  | _, [] => ([], false)
  | n + 1, '\\' :: r =>
    match r with
    | 'c' :: _ => ([], true)
    | '0' :: r =>
      let digits := (r.take 3).takeWhile isOctal
      let (out, ends) := expandEscapesIn n (r.drop digits.length)
      (octalChar digits :: out, ends)
    | _ =>
      let (c, r) := formatEscape r
      let (out, ends) := expandEscapesIn n r
      (c :: out, ends)
  | n + 1, c :: r =>
    let (out, ends) := expandEscapesIn n r
    (c :: out, ends)

/-- A text with its escapes expanded; whether all output ends with it. -/
def expandEscapes (cs : List Char) : List Char × Bool := expandEscapesIn (cs.length + 1) cs

/-! ## Formats -/

/-- A piece of a format: characters, or a directive with its flags, width, precision and kind. -/
inductive Directive where
  | plain (c : Char)
  | convert (flags : List Char) (width : Nat) (precision : Option Nat) (kind : Char)

/-- A directive of a format. -/
def directive : Reader Directive :=
  (do word "%%"; pure (.plain '%')) <|>
  (do
    word "%"
    let flags ← run fun c => "-+ #0".toList.contains c
    let width ← run Char.isDigit
    let precision ← maybe (do
      word "."
      run Char.isDigit)
    let kind ← next fun c => "sbcdiouxX".toList.contains c
    let number (ds : List Char) := (Text.readDigits ds).getD 0
    pure (.convert flags (number width) (precision.map number) kind)) <|>
  (do
    word "\\"
    fun cs => let (c, r) := formatEscape cs; some (.plain c, r)) <|>
  (do pure (.plain (← next (· != '%'))))

/-- The directives of a format, if all of them are known. -/
def readFormat (cs : List Char) : Option (List Directive) :=
  (do
    let ds ← many directive
    atEnd
    pure ds : Reader (List Directive)).run' cs

/-- A text filled up to a width. -/
def fill (flags : List Char) (width : Nat) (zeros : Bool) (cs : List Char) : List Char :=
  if flags.contains '-' then cs ++ List.replicate (width - cs.length) ' '
  else if zeros && flags.contains '0' then
    match cs with
    | '-' :: r => '-' :: List.leftpad (width - 1) '0' r
    | _ => List.leftpad width '0' cs
  else List.leftpad width ' ' cs

/-- The number that an argument is: a constant, or the character after a quote. -/
def argumentValue (cs : List Char) : Option Int :=
  match cs with
  | [] => some 0
  | '\'' :: c :: _ => some c.toNat
  | '"' :: c :: _ => some c.toNat
  | '-' :: r => (readConstant r).map fun n => -n
  | '+' :: r => readConstant r
  | _ => readConstant cs

/-- A number as a directive writes it. -/
def numberText (flags : List Char) (precision : Option Nat) (kind : Char) (n : Int) : List Char :=
  let digits (base : Nat) (m : Nat) := List.leftpad (precision.getD 1) '0' (Nat.toDigits base m)
  match kind with
  | 'o' => digits 8 (bitsOf n)
  | 'u' => digits 10 (bitsOf n)
  | 'x' => digits 16 (bitsOf n)
  | 'X' => (digits 16 (bitsOf n)).map Char.toUpper
  | _ =>
    let mark := if n < 0 then ['-'] else if flags.contains '+' then ['+'] else
      if flags.contains ' ' then [' '] else []
    mark ++ digits 10 n.natAbs

/-- What came of a format: the text, whether all output ends, and the arguments that are no numbers. -/
structure Formatted where
  text : List Char
  ends : Bool
  bad : List (List Char)

/-- A directive with its argument. -/
def Directive.apply : Directive → List Char → Formatted
  | plain c, _ => ⟨[c], false, []⟩
  | convert flags width precision kind, arg =>
    match kind with
    | 's' => ⟨fill flags width false (arg.take (precision.getD arg.length)), false, []⟩
    | 'b' =>
      let (out, ends) := expandEscapes arg
      ⟨fill flags width false (out.take (precision.getD out.length)), ends, []⟩
    | 'c' => ⟨fill flags width false (arg.take 1), false, []⟩
    | _ =>
      let n := (argumentValue arg).getD 0
      let bad := if (argumentValue arg).isNone then [arg] else []
      ⟨fill flags width precision.isNone (numberText flags precision kind n), false, bad⟩

/-- Whether a directive takes an argument. -/
def Directive.takesArgument : Directive → Bool
  | plain _ => false
  | convert .. => true

/-- A format gone through once; the arguments that are left. -/
def formatOnce : List Directive → List (List Char) → Formatted × List (List Char)
  | [], args => (⟨[], false, []⟩, args)
  | d :: ds, args =>
    let first := d.apply (args.headD [])
    let args := if d.takesArgument then args.tail else args
    if first.ends then (first, args)
    else
      let (rest, args) := formatOnce ds args
      (⟨first.text ++ rest.text, rest.ends, first.bad ++ rest.bad⟩, args)

/-- A format gone through until no argument is left. -/
def printf (ds : List Directive) (args : List (List Char)) : Formatted :=
  let (first, rest) := formatOnce ds args
  if first.ends || rest.isEmpty then first
  else if rest.length < args.length then
    let more := printf ds rest
    ⟨first.text ++ more.text, more.ends, first.bad ++ more.bad⟩
  else first
termination_by args.length

end BackupFleet.Shell
