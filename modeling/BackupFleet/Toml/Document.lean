import BackupFleet.Toml.Expression

/-!
# `BackupFleet.Toml.Document` — configuration files

A file is a sequence of lines: assignments, headers of tables, headers of elements of arrays of tables,
comments. An assignment belongs to the table of the header before it, the first ones to the file as a
whole. `Statement` is what a line says, `Draft` what the lines so far have said.

## Contents

* `Statement`, `Reader.statements` — the lines of a file;
* `Draft` — tables while the lines are gone through;
* `readDocument` — the table that a file is.
-/

namespace BackupFleet.Toml

/-! ## Lines -/

/-- What a line says: a name has a value, or a table or an element of an array of tables begins. -/
inductive Statement where
  | assign (path : List String) (name : String) (v : Value)
  | table (path : List String) (name : String)
  | element (path : List String) (name : String)

namespace Reader

open BackupFleet.Reader

/-- A header between brackets. -/
def header (opening closing : String) : Reader (List String × String) := do
  word opening
  let p ← path
  word closing
  restOfLine
  pure p

/-- A line; a comment or an empty line says nothing. -/
def statement : Reader (Option Statement) :=
  (do newline; pure none) <|> (do comment; lineEnd; pure none) <|>
    (do let (path, name) ← header "[[" "]]"; pure (some (.element path name))) <|>
    (do let (path, name) ← header "[" "]"; pure (some (.table path name))) <|>
    (do
      let ((path, name), v) ← assignment value
      restOfLine
      pure (some (.assign path name v)))

/-- All lines of a file, with a byte order mark or without. -/
def statements : Reader (List Statement) := do
  let _ ← maybe (word "\uFEFF")
  gap
  let all ← many (do let s ← statement; gap; pure s)
  atEnd
  pure (all.filterMap id)

end Reader

/-! ## Tables -/

/-- Where the table belongs that is being filled: it is the file, a table or an element. -/
inductive Target where
  | root
  | table (path : List String) (name : String)
  | element (path : List String) (name : String)

/-- The table of the file without the table that is being filled, that table, and its place. -/
structure Draft where
  root : Fields
  current : Fields
  target : Target

namespace Draft

/-- Before the first line. -/
def empty : Draft := ⟨[], [], .root⟩

/-- The table of the file with the table that is being filled. -/
def close (d : Draft) : Option Fields :=
  match d.target with
  | .root => some d.current
  | .table path name => closeTable path name d.current d.root
  | .element path name => closeElement path name d.current d.root

/-- The draft after a line. -/
def step (d : Draft) : Statement → Option Draft
  | .assign path name v => do
    let current ← addValue path name v d.current
    pure { d with current }
  | .table path name => do
    -- The table before must be in its place before the path can lead through it.
    let (current, root) ← openTable path name (← d.close)
    pure ⟨root, current, .table path name⟩
  | .element path name => do
    let root ← openElement path name (← d.close)
    pure ⟨root, [], .element path name⟩

end Draft

/-- The table that a file is, if it is well-formed and defines nothing twice. -/
def readDocument (cs : List Char) : Option Value := do
  let (statements, _) ← Reader.statements cs
  let draft ← statements.foldlM Draft.step .empty
  pure (Fields.toValue (← draft.close))

end BackupFleet.Toml
