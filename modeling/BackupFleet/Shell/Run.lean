import BackupFleet.Shell.Builtin
import BackupFleet.Shell.Parser
import BackupFleet.Shell.Pattern

/-!
# `BackupFleet.Shell.Run` — running scripts

A command is run with its streams; it changes the machine and leaves its status there. Words are expanded
first: parameters, arithmetic and the output of commands take the place of what names them, unquoted
results are split, and what is left are the words of the command.

A script may repeat commands, so a run has a budget, which every level of nesting and every round of a
repetition takes from. A script that uses it up is killed.

## Contents

* `Glyph`, `fields` — characters of an expanded word, and the words they make;
* `expandWords`, `runCommand` — expansion and commands;
* `runScript`, `Shell.hooks` — scripts, and the shell as the runner of hooks.
-/

namespace BackupFleet.Shell

/-! ## Expanded words -/

/-- A character of an expanded word, or the mark that a word stands here even if it is empty. -/
inductive Glyph where
  | char (c : Char) (quoted splits : Bool)
  | mark
deriving Repr

/-- The glyphs of a text. -/
def glyphs (quoted splits : Bool) (cs : List Char) : List Glyph :=
  (if quoted then [.mark] else []) ++ cs.map fun c => .char c quoted splits

/-- The text of glyphs. -/
def textOfGlyphs (gs : List Glyph) : List Char :=
  gs.filterMap fun
    | .char c _ _ => some c
    | .mark => none

/-- The characters of glyphs, each with whether it is quoted. -/
def patternOfGlyphs (gs : List Glyph) : List (Char × Bool) :=
  gs.filterMap fun
    | .char c quoted _ => some (c, quoted)
    | .mark => none

/-- Where splitting stands: in a word, or between words; then blanks may have ended the last one, so that
    a separator of another kind belongs to its end. -/
inductive Splitting where
  | within (w : List Char)
  | between (afterBlank : Bool)

/-- The word that goes on, or a new one. -/
def Splitting.word : Splitting → List Char
  | within w => w
  | between _ => []

/-- The words that glyphs make from some place on. Blanks separate in any number; any other separator ends
    a word of its own. -/
def fieldsFrom (separators : List Char) : Splitting → List Glyph → List (List Char)
  | .within w, [] => [w]
  | .between _, [] => []
  | at_, .mark :: r => fieldsFrom separators (.within at_.word) r
  | at_, .char c _ splits :: r =>
    if splits && separators.contains c then
      match at_, isBlankSeparator c with
      | .within w, blank => w :: fieldsFrom separators (.between blank) r
      | .between afterBlank, true => fieldsFrom separators (.between afterBlank) r
      | .between true, false => fieldsFrom separators (.between false) r
      | .between false, false => [] :: fieldsFrom separators (.between false) r
    else fieldsFrom separators (.within (at_.word ++ [c])) r

/-- The words that glyphs make. -/
def fields (separators : List Char) (gs : List Glyph) : List (List Char) :=
  fieldsFrom separators (.between false) gs

/-! ## Parameters -/

/-- The value of a parameter. Scripts have no arguments. -/
def parameterValue (m : Machine) (name : List Char) : Option (List Char) :=
  match name with
  | ['?'] => some (Text.decimal m.status)
  | ['$'] => some (Text.decimal processId)
  | ['#'] => some ['0']
  | ['@'] | ['*'] => none
  | ['0'] => some "sh".toList
  | _ => m.valueOf? name

/-- Output without the ends of lines at its end. -/
def trimNewlines (cs : List Char) : List Char := (cs.reverse.dropWhile (· == '\n')).reverse

/-- The wording of an error in an expression. -/
def ArithmeticError.text (expression : List Char) : ArithmeticError → String
  | malformed => "arithmetic expression: expecting primary: \"" ++ Text.textOf expression ++ "\""
  | divisionByZero => "arithmetic expression: division by zero: \"" ++ Text.textOf expression ++ "\""
  | notANumber text => "Illegal number: " ++ Text.textOf text

/-- The value of an expression, as text. -/
def arithmeticValue (s : Streams) (expression : List Char) : Job (List Char) := do
  let m ← get
  let value := match readExpression expression with
    | some e => e.value m.values
    | none => .error .malformed
  match value with
  | .ok (n, values) =>
    modify fun m => { m with values }
    pure (toString n).toList
  | .error e => abort s (e.text expression)

/-! ## Ends of parts -/

/-- A part that runs in a shell of its own: variables are as before afterwards, and its end is only an end
    of the part. -/
def isolated (job : Job Unit) : Job Unit := do
  let values := (← get).values
  try job
  catch
    | .exited status => modify fun m => { m with status }
    | .killed signal => throw (.killed signal)
    | .broken _ | .continued _ => pure ()
  modify fun m => { m with values }

/-- A round of a repetition; whether more may follow. -/
def round (body : Job Unit) : Job Bool :=
  try
    body
    pure true
  catch
    | .broken levels => if 1 < levels then throw (.broken (levels - 1)) else pure false
    | .continued levels => if 1 < levels then throw (.continued (levels - 1)) else pure true
    | stop => throw stop

/-- A status left for the next command. -/
def leaveStatus (status : Nat) : Job Unit := modify fun m => { m with status }

/-! ## Running -/

mutual

/-- The glyphs of a part of a word. -/
def expandPart : Nat → Streams → Part → Job (List Glyph)
  | 0, _, _ => throw (.killed 9)
  | n + 1, s, p => do
    match p with
    | .chars quoted text => pure (glyphs quoted false text)
    | .arithmetic quoted e =>
      let value ← arithmeticValue s (textOfGlyphs (← expandParts n s e))
      pure (glyphs quoted (!quoted) value)
    | .output quoted body =>
      -- In the rest of the word `$?` is what it was before.
      let status := (← get).status
      let caught ← catching fun sink => isolated (runCommand n { s with out := sink } body)
      modify fun m => { m with outputStatus := some m.status, status }
      pure (glyphs quoted (!quoted) (trimNewlines caught))
    | .parameter quoted name use operand =>
      let value := parameterValue (← get) name
      let found (colon : Bool) : Option (List Char) := if colon then value.filter (· ≠ []) else value
      let result (cs : List Char) : List Glyph := glyphs quoted (!quoted) cs
      match use with
      | .value => pure (result (value.getD []))
      | .size => pure (result (Text.decimal (value.getD []).length))
      | .orElse colon =>
        match found colon with
        | some cs => pure (result cs)
        | none => expandParts n s operand
      | .orAssign colon =>
        match found colon with
        | some cs => pure (result cs)
        | none =>
          let gs ← expandParts n s operand
          assign name (textOfGlyphs gs)
          pure gs
      | .instead colon =>
        match found colon with
        | some _ => expandParts n s operand
        | none => pure (if quoted then [.mark] else [])
      | .orFail colon =>
        match found colon with
        | some cs => pure (result cs)
        | none =>
          let text := Text.textOf (textOfGlyphs (← expandParts n s operand))
          let missing := if colon then "parameter not set or null" else "parameter not set"
          abort s (Text.textOf name ++ ": " ++ if text = "" then missing else text)
      | .trim atEnd longest =>
        -- Quoted characters of the pattern stand for themselves.
        let pattern := readPattern (patternOfGlyphs (← expandParts n s operand))
        pure (result (trim pattern atEnd longest (value.getD [])))

/-- The glyphs of parts. -/
def expandParts : Nat → Streams → List Part → Job (List Glyph)
  | 0, _, _ => throw (.killed 9)
  | _, _, [] => pure []
  | n + 1, s, p :: r => do
    let first ← expandPart n s p
    let rest ← expandParts n s r
    pure (first ++ rest)

/-- The words that words become. -/
def expandWords : Nat → Streams → List (List Part) → Job (List (List Char))
  | 0, _, _ => throw (.killed 9)
  | _, _, [] => pure []
  | n + 1, s, w :: r => do
    let first ← expandParts n s w
    let ws := fields (← get).separators first
    let rest ← expandWords n s r
    pure (ws ++ rest)

/-- The streams after redirections; none if one of them failed. -/
def redirectAll : Nat → Streams → List Redirect → Job (Option Streams)
  | 0, _, _ => throw (.killed 9)
  | _, s, [] => pure (some s)
  | n + 1, s, .mk stream kind target :: r => do
    let path := Text.textOf (textOfGlyphs (← expandParts n s target))
    -- Redirections take effect from left to right, so a copy sees those before it.
    let moved : Option Streams ← match kind with
      | .input => do pure ((← openInput s path).map fun input => { s with input })
      | .output | .append => do
        let sink ← openOutput s (kind = .append) path
        pure (sink.map fun sink => if stream = 2 then { s with err := sink } else { s with out := sink })
      | .copy =>
        let source := if path = "1" then s.out else if path = "2" then s.err else .nowhere
        pure (some (if stream = 2 then { s with err := source }
          else if stream = 1 then { s with out := source } else s))
    match moved with
    | some s => redirectAll n s r
    | none => pure none

/-- Assignments made one after the other. -/
def assignAll : Nat → Streams → List (List Char × List Part) → Job Unit
  | 0, _, _ => throw (.killed 9)
  | _, _, [] => pure ()
  | n + 1, s, (name, value) :: r => do
    assign name (textOfGlyphs (← expandParts n s value))
    assignAll n s r

/-- A command with its words. -/
def runWords : Nat → Streams → List Char → List (List Char) → Job Unit
  | 0, _, _, _ => throw (.killed 9)
  | n + 1, s, name, args => do
    let text := Text.textOf name
    if text = "eval" then
      match readScript (joinWords args) with
      | some c =>
        leaveStatus 0
        runCommand n s c
      | none => abort s "eval: Syntax error"
    else match commandNamed? text with
      | some command => leaveStatus (← command s args)
      | none =>
        if name.contains '/' && (← get).files.exists_ text then
          complain s (text ++ ": Permission denied")
          leaveStatus 126
        else
          complain s (text ++ ": not found")
          leaveStatus 127

/-- A simple command. -/
def runSimple : Nat → Streams → List (List Char × List Part) → List (List Part) → List Redirect → Job Unit
  | 0, _, _, _, _ => throw (.killed 9)
  | n + 1, s, assignments, words, redirects => do
    modify fun m => { m with outputStatus := none }
    let ws ← expandWords n s words
    match ← redirectAll n s redirects with
    | none => leaveStatus 2
    | some s =>
      match ws with
      -- Without a name, the assignments last and the status is that of the output put into them.
      | [] =>
        assignAll n s assignments
        leaveStatus ((← get).outputStatus.getD 0)
      | name :: args =>
        -- With a name, they last as long as the command.
        let values := (← get).values
        assignAll n s assignments
        runWords n s name args
        restore (assignments.map (·.1)) values

/-- Rounds of a repetition. -/
def runRounds : Nat → Streams → Bool → Command → Command → Job Unit
  | 0, _, _, _, _ => throw (.killed 9)
  | n + 1, s, while_, condition, body => do
    -- A repetition ends with the status of its last body, not of its condition.
    let before := (← get).status
    runCommand n s condition
    if ((← get).status = 0) = (while_ = true) then
      if ← round (runCommand n s body) then runRounds n s while_ condition body
    else leaveStatus before

/-- A round for each of some words. -/
def runEach : Nat → Streams → List Char → List (List Char) → Command → Job Unit
  | 0, _, _, _, _ => throw (.killed 9)
  | _, _, _, [], _ => pure ()
  | n + 1, s, name, w :: r, body => do
    assign name w
    if ← round (runCommand n s body) then runEach n s name r body

/-- The first arm that has a pattern for a text. -/
def runArms : Nat → Streams → List Char → List (List (List Part) × Command) → Job Unit
  | 0, _, _, _ => throw (.killed 9)
  | _, _, _, [] => leaveStatus 0
  | n + 1, s, text, (patterns, body) :: r => do
    if ← anyPattern n s text patterns then
      leaveStatus 0
      runCommand n s body
    else runArms n s text r

/-- Whether a text fits one of some patterns. -/
def anyPattern : Nat → Streams → List Char → List (List Part) → Job Bool
  | 0, _, _, _ => throw (.killed 9)
  | _, _, _, [] => pure false
  | n + 1, s, text, p :: r => do
    let gs ← expandParts n s p
    if accepts (readPattern (patternOfGlyphs gs)) text then pure true else anyPattern n s text r

/-- A command. -/
def runCommand : Nat → Streams → Command → Job Unit
  | 0, _, _ => throw (.killed 9)
  | n + 1, s, c => do
    match c with
    | .nothing => pure ()
    | .simple assignments words redirects => runSimple n s assignments words redirects
    | .inOrder first second =>
      runCommand n s first
      runCommand n s second
    | .onSuccess first second =>
      runCommand n s first
      if (← get).status = 0 then runCommand n s second
    | .onFailure first second =>
      runCommand n s first
      if (← get).status ≠ 0 then runCommand n s second
    | .negated body =>
      runCommand n s body
      leaveStatus (if (← get).status = 0 then 1 else 0)
    | .pipe left right =>
      -- The left side runs to its end first; what it wrote is the input of the right side.
      let caught ← catching fun sink => isolated (runCommand n { s with out := sink } left)
      let input ← addInput (Text.toBytes caught)
      isolated (runCommand n { s with input } right)
    | .group body redirects =>
      match ← redirectAll n s redirects with
      | some s => runCommand n s body
      | none => leaveStatus 2
    | .subshell body redirects =>
      match ← redirectAll n s redirects with
      | some s => isolated (runCommand n s body)
      | none => leaveStatus 2
    | .choice condition thenBody elseBody =>
      runCommand n s condition
      if (← get).status = 0 then runCommand n s thenBody
      else
        -- A choice of which no branch runs succeeds.
        leaveStatus 0
        runCommand n s elseBody
    | .repeated while_ condition body =>
      leaveStatus 0
      runRounds n s while_ condition body
    | .forEach name words body =>
      let ws ← expandWords n s words
      leaveStatus 0
      runEach n s name ws body
    | .cases word arms =>
      let text := textOfGlyphs (← expandParts n s word)
      runArms n s text arms

end

/-! ## Scripts -/

/-- The budget of a script. -/
def budget : Nat := 100000

/-- The machine that a script starts on. -/
def Machine.initial (files : FileSystem) (environment : List (String × String)) : Machine where
  files := files
  values := (environment.map fun (k, v) => (Text.bytesOf k, Text.bytesOf v)).reverse
  status := 0
  outputStatus := none
  buffers := [[], []]
  inputs := [[]]

/-- How a script ended, and the machine after it. -/
def runScript (script : List Char) (m : Machine) : ExitStatus × Machine :=
  let job : Job Unit := match readScript script with
    | some c => runCommand budget .initial c
    | none => abort .initial "Syntax error"
  match job m with
  | .ok () m => (.code m.status, m)
  | .error (.exited status) m => (.code status, m)
  | .error (.killed signal) m => (.signal signal, m)
  | .error (.broken _) m | .error (.continued _) m => (.code m.status, m)

/-- A shell, with variables of its surroundings, as the runner of hooks. -/
def hooks (surroundings : List (String × String)) : HookRunner := fun _ call files =>
  let start := Machine.initial files (surroundings ++ call.environment)
  let (status, m) := runScript (Text.bytesOf call.command) start
  (⟨status, m.buffers[0]?.getD [], m.buffers[1]?.getD []⟩, m.files.tree)

end BackupFleet.Shell
