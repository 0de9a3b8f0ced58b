import BackupFleet.Shell.Script
import BackupFleet.Text.Numeral
import BackupFleet.Text.Reader

/-!
# `BackupFleet.Shell.Parser` — reading the commands of a hook

Commands and words contain each other, to any depth that the text has room for. `Nested` has the readers
for what lies inside a construct; the readers of one level are built from those of the level below, and
`nestedAt` ties them together by recursion on the number of levels.

## Contents

* `Nested` — the readers one level down;
* `part`, `wordOf` — words;
* `simple`, `compound`, `pipeline`, `andOr`, `list` — commands;
* `readScript` — a whole script.
-/

namespace BackupFleet.Shell

open BackupFleet.Reader

/-! ## Characters -/

/-- A blank inside a line. -/
def isGap (c : Char) : Bool := c == ' ' || c == '\t'

/-- A character that ends a word. -/
def isMeta (c : Char) : Bool := isGap c || "\n;&|<>()".toList.contains c

/-- A character that a name may start with. -/
def isNameStart (c : Char) : Bool := c.isAlpha || c == '_'

/-- A character of a name. -/
def isNameChar (c : Char) : Bool := isNameStart c || c.isDigit

/-- A name. -/
def name : Reader (List Char) := do
  let first ← next isNameStart
  pure (first :: (← run isNameChar))

/-- A backslash and the end of a line: the line goes on. -/
def joint : Reader Unit := word "\\\n"

/-- Blanks inside a line, and a comment at their end. -/
def gap : Reader Unit := do
  let _ ← many (joint <|> do let _ ← run1 isGap)
  let _ ← maybe (do
    word "#"
    run (· != '\n'))

/-- Blanks, comments and ends of lines. -/
def gaps : Reader Unit := do
  gap
  let _ ← many (do
    word "\n"
    gap)

/-- The text does not go on with this character. -/
def notBefore (c : Char) : Reader Unit := do
  if (← get).head? = some c then failure else pure ()

/-! ## Words -/

/-- The readers for what lies inside a construct: commands, the operand of a parameter, and an arithmetic
    expression. -/
structure Nested where
  list : Reader Command
  operand : (quoted : Bool) → Reader (List Part)
  arithmetic : Reader (List Part)

/-- A parameter without a name of its own. -/
def special : Reader (List Char) := do pure [← next fun c => c.isDigit || "?$#@*".toList.contains c]

/-- What is taken off the value of a parameter between braces, and the pattern for it. -/
def trimUse (inner : Nested) : Reader (ParameterUse × List Part) := do
  let use ← (do word "%%"; pure (ParameterUse.trim true true)) <|>
    (do word "%"; pure (.trim true false)) <|> (do word "##"; pure (.trim false true)) <|>
    (do word "#"; pure (.trim false false))
  pure (use, ← inner.operand false)

/-- What a parameter between braces is used for, and the operand. -/
def parameterUse (inner : Nested) (quoted : Bool) : Reader (ParameterUse × List Part) := do
  let colon := (← maybe (word ":")).isSome
  let use ← (do word "-"; pure (ParameterUse.orElse colon)) <|>
    (do word "="; pure (.orAssign colon)) <|> (do word "+"; pure (.instead colon)) <|>
    (do word "?"; pure (.orFail colon))
  pure (use, ← inner.operand quoted)

/-- What follows a dollar sign. -/
def dollar (inner : Nested) (quoted : Bool) : Reader Part :=
  (do
    word "(("
    let e ← inner.arithmetic
    word "))"
    pure (.arithmetic quoted e)) <|>
  (do
    word "("
    let body ← inner.list
    word ")"
    pure (.output quoted body)) <|>
  (do
    word "\x7b#"
    let n ← name
    word "\x7d"
    pure (.parameter quoted n .size [])) <|>
  (do
    word "\x7b"
    let n ← name <|> special
    let (use, operand) ← trimUse inner <|> parameterUse inner quoted <|> pure (.value, [])
    word "\x7d"
    pure (.parameter quoted n use operand)) <|>
  (do pure (.parameter quoted (← name <|> special) .value []))

/-- A dollar sign and what follows it; alone, it is itself. -/
def expansion (inner : Nested) (quoted : Bool) : Reader Part := do
  word "$"
  dollar inner quoted <|> pure (.chars quoted ['$'])

/-- Commands between backquotes. -/
def backquoted (inner : Nested) (quoted : Bool) : Reader Part := do
  word "`"
  let body ← inner.list
  word "`"
  pure (.output quoted body)

/-- A text between single quotes. -/
def single : Reader Part := do
  word "'"
  let cs ← run (· != '\'')
  word "'"
  pure (.chars true cs)

/-- A backslash between double quotes: it only takes the meaning from a few characters. -/
def quotedEscape : Reader Part := do
  word "\\"
  (do let c ← next fun c => "$`\"\\".toList.contains c; pure (.chars true [c])) <|>
    (do word "\n"; pure (.chars true [])) <|> pure (.chars true ['\\'])

/-- A part of a text between double quotes, up to a character that `stop` picks. -/
def quotedPart (inner : Nested) (stop : Char → Bool) : Reader Part :=
  quotedEscape <|> expansion inner true <|> backquoted inner true <|>
    (do pure (.chars true (← run1 fun c => !"\"\\$`".toList.contains c && !stop c)))

/-- The parts between double quotes. An empty text counts as one. -/
def double (inner : Nested) : Reader (List Part) := do
  word "\""
  let parts ← many (quotedPart inner fun _ => false)
  word "\""
  pure (.chars true [] :: parts)

/-- A backslash outside quotes: the next character is itself. -/
def escape : Reader Part := do
  word "\\"
  (do word "\n"; pure (.chars false [])) <|> (do pure (.chars true [← next fun _ => true]))

/-- Parts of a word outside quotes, up to a character that `stop` picks. -/
def part (inner : Nested) (stop : Char → Bool) : Reader (List Part) :=
  (do pure [← single]) <|> double inner <|> (do pure [← escape]) <|>
    (do pure [← expansion inner false]) <|> (do pure [← backquoted inner false]) <|>
    (do pure [.chars false (← run1 fun c => !"'\"\\$`".toList.contains c && !stop c)])

/-- The parts of the operand of a parameter, up to the closing brace. -/
def operandParts (inner : Nested) (quoted : Bool) : Reader (List Part) := do
  let stop (c : Char) := c == '\x7d'
  if quoted then many (quotedPart inner stop) else pure (← many (part inner stop)).flatten

/-- The parts of an arithmetic expression, up to the two brackets that close it. -/
def arithmeticParts (inner : Nested) : Reader (List Part) := do
  let pieces ← many (
    (do pure [← expansion inner true]) <|> (do pure [← backquoted inner true]) <|>
    (do
      word "("
      let parts ← inner.arithmetic
      word ")"
      pure (.chars true ['('] :: parts ++ [.chars true [')']])) <|>
    (do pure [.chars true (← run1 fun c => !"()$`".toList.contains c)]))
  pure pieces.flatten

/-- A word. -/
def wordOf (inner : Nested) : Reader (List Part) := do
  let pieces ← many (part inner isMeta)
  if pieces.isEmpty then failure else pure pieces.flatten

/-! ## Simple commands -/

/-- The words with a meaning of their own where a command may begin. -/
def reservedWords : List (List Char) :=
  ["if", "then", "else", "elif", "fi", "do", "done", "case", "esac", "while", "until", "for", "in",
    "\x7b", "\x7d", "!"].map String.toList

/-- A reserved word. -/
def reserved (w : String) : Reader Unit := do
  let cs ← run1 fun c => !isMeta c && !"'\"\\$`".toList.contains c
  if cs = w.toList then gap else failure

/-- Redirections and the streams they concern if none is given. -/
def redirectKinds : List (String × Nat × RedirectKind) :=
  [(">>", 1, .append), (">&", 1, .copy), (">|", 1, .output), (">", 1, .output), ("<&", 0, .copy),
    ("<", 0, .input)]

/-- A redirection. -/
def redirect (inner : Nested) : Reader Redirect := do
  let stream ← maybe (next Char.isDigit)
  let (default, kind) ← redirectKinds.foldr
    (fun (w, default, kind) other => (do word w; pure (default, kind)) <|> other) failure
  gap
  let target ← wordOf inner
  gap
  pure (.mk ((stream.map fun c => c.toNat - '0'.toNat).getD default) kind target)

/-- An assignment. -/
def assignment (inner : Nested) : Reader (List Char × List Part) := do
  let n ← name
  word "="
  let value ← (wordOf inner) <|> pure []
  gap
  pure (n, value)

/-- What a simple command consists of. -/
inductive Piece where
  | assigned (a : List Char × List Part)
  | redirected (r : Redirect)
  | plain (w : List Part)

/-- Whether a word is a reserved word, unquoted. -/
def isReserved : List Part → Bool
  | [.chars false cs] => reservedWords.contains cs
  | _ => false

/-- A word of a simple command. -/
def plainWord (inner : Nested) : Reader (List Part) := do
  let w ← wordOf inner
  gap
  pure w

/-- A simple command. Assignments stand before its first word. -/
def simple (inner : Nested) : Reader Command := do
  let start ← many ((Piece.redirected <$> redirect inner) <|> (Piece.assigned <$> assignment inner))
  let first ← maybe (do
    let w ← plainWord inner
    if isReserved w then failure else pure w)
  let rest ← match first with
    | none => pure []
    | some w => do
      let more ← many ((Piece.redirected <$> redirect inner) <|> (Piece.plain <$> plainWord inner))
      pure (.plain w :: more)
  let pieces := start ++ rest
  if pieces.isEmpty then failure
  else
    pure (.simple
      (pieces.filterMap fun | .assigned a => some a | _ => none)
      (pieces.filterMap fun | .plain w => some w | _ => none)
      (pieces.filterMap fun | .redirected r => some r | _ => none))

/-! ## Compound commands -/

/-- The end of a command in a list: an end of line or a semicolon that does not end an arm. -/
def terminator : Reader Unit :=
  (do
    word ";"
    notBefore ';'
    gaps) <|> (do
    word "\n"
    gaps)

/-- The commands of a choice after its first word. -/
def choiceAfter (inner : Nested) : Nat → Reader Command
  | 0 => failure
  | n + 1 => do
    let condition ← inner.list
    reserved "then"
    let thenBody ← inner.list
    let elseBody ← (do reserved "elif"; choiceAfter inner n) <|>
      (do reserved "else"; let c ← inner.list; reserved "fi"; pure c) <|>
      (do reserved "fi"; pure .nothing)
    pure (.choice condition thenBody elseBody)

/-- The body of a repetition. -/
def body (inner : Nested) : Reader Command := do
  reserved "do"
  let c ← inner.list
  reserved "done"
  pure c

/-- A repetition as long as, or until, commands succeed. -/
def repetition (inner : Nested) : Reader Command := do
  let while_ ← (do reserved "while"; pure true) <|> (do reserved "until"; pure false)
  let condition ← inner.list
  pure (.repeated while_ condition (← body inner))

/-- A repetition for each of some words. -/
def forLoop (inner : Nested) : Reader Command := do
  reserved "for"
  let n ← name
  gaps
  let words ← (do
    reserved "in"
    let ws ← many (plainWord inner)
    terminator
    pure ws) <|> (do let _ ← maybe terminator; pure [])
  pure (.forEach n words (← body inner))

/-- An arm of a case command: patterns and the commands for them. -/
def arm (inner : Nested) : Reader (List (List Part) × Command) := do
  gaps
  let _ ← maybe (word "(")
  let patterns ← separated (do gap; let w ← plainWord inner; pure w) '|'
  word ")"
  let c ← inner.list
  let _ ← maybe (word ";;")
  gaps
  if patterns.isEmpty || patterns.any isReserved then failure else pure (patterns, c)

/-- A case command. -/
def caseCommand (inner : Nested) : Reader Command := do
  reserved "case"
  let w ← plainWord inner
  gaps
  reserved "in"
  let arms ← many (arm inner)
  gaps
  reserved "esac"
  pure (.cases w arms)

/-- A command between brackets. -/
def bracketed (inner : Nested) : Reader Command :=
  (do
    reserved "\x7b"
    let c ← inner.list
    reserved "\x7d"
    pure (.group c (← many (redirect inner)))) <|>
  (do
    word "("
    let c ← inner.list
    word ")"
    gap
    pure (.subshell c (← many (redirect inner))))

/-- A choice. -/
def ifCommand (inner : Nested) : Reader Command := do
  reserved "if"
  choiceAfter inner (← get).length

/-- A compound command, perhaps with redirections. -/
def compound (inner : Nested) : Reader Command :=
  bracketed inner <|> do
    let c ← ifCommand inner <|> repetition inner <|> forLoop inner <|> caseCommand inner
    match ← many (redirect inner) with
    | [] => pure c
    | redirects => pure (.group c redirects)

/-! ## Lists -/

/-- Commands of which each reads what the one before it writes. -/
def pipeline (inner : Nested) : Reader Command := do
  let negations ← many (reserved "!")
  let command := do
    gaps
    compound inner <|> simple inner
  let first ← compound inner <|> simple inner
  let rest ← many (do
    word "|"
    notBefore '|'
    command)
  let all := rest.foldl .pipe first
  pure (if negations.length % 2 = 1 then .negated all else all)

/-- Pipelines of which each depends on how the one before it ended. -/
def andOr (inner : Nested) : Reader Command := do
  let first ← pipeline inner
  let rest ← many (do
    let join ← (do word "&&"; pure Command.onSuccess) <|> (do word "||"; pure Command.onFailure)
    gaps
    pure (join, ← pipeline inner))
  pure (rest.foldl (fun c (join, d) => join c d) first)

/-- Commands one after the other; there may be none. -/
def list (inner : Nested) : Reader Command := do
  gaps
  let first ← maybe (andOr inner)
  match first with
  | none => pure .nothing
  | some first =>
    let rest ← many (do
      terminator
      andOr inner)
    let _ ← maybe terminator
    pure (rest.foldl .inOrder first)

/-- The readers for what lies inside a construct, for a number of levels. -/
def nestedAt : Nat → Nested
  | 0 => ⟨failure, fun _ => failure, failure⟩
  | n + 1 =>
    let inner := nestedAt n
    ⟨list inner, operandParts inner, arithmeticParts inner⟩

/-- The commands of a script, if it is well-formed. -/
def readScript (cs : List Char) : Option Command :=
  (do
    let c ← list (nestedAt cs.length)
    gaps
    atEnd
    pure c : Reader Command).run' cs

end BackupFleet.Shell
