import BackupFleet.Toml.Value

/-!
# `BackupFleet.Toml.Table` — tables while they are written

The lines of a file fill tables. A table comes into being by a header of its own, because the header of
a table below it names it, or because a dotted name leads through it; how it came into being decides what
may be done with it later. A table with a header is not opened again, and a dotted name leads only
through tables that came from dotted names. Nothing is ever defined twice.

## Contents

* `Origin`, `Node`, `Fields` — tables under construction;
* `change` — a change of the table at the end of a path;
* `addValue` — a value under a dotted name;
* `openTable`, `openElement`, `closeTable`, `closeElement` — headers;
* `Node.toValue`, `Fields.toValue` — the finished tables.
-/

namespace BackupFleet.Toml

/-! ## Tables under construction -/

/-- How a table came into being: by its own header, through the header of a table below it, or through a
    dotted name. -/
inductive Origin where
  | header
  | outer
  | dotted
deriving DecidableEq, Repr

/-- A value, a table, or the elements of an array of tables. -/
inductive Node where
  | leaf (v : Value)
  | table (origin : Origin) (fields : List (String × Node))
  | tables (elements : List (List (String × Node)))

/-- The fields of a table, each name once. -/
abbrev Fields := List (String × Node)

/-- The fields with a name given to a node. -/
def put (name : String) (node : Node) : Fields → Fields
  | [] => [(name, node)]
  | f :: r => if f.1 = name then (name, node) :: r else f :: put name node r

/-- The fields without a name. -/
def erase (name : String) (fields : Fields) : Fields := fields.filter (·.1 ≠ name)

/-! ## Following a path -/

/-- Whether a path is a dotted name or the path of a header. -/
inductive PathKind where
  | name
  | header
deriving DecidableEq, Repr

/-- How a table comes into being that a path leads through. -/
def PathKind.origin : PathKind → Origin
  | name => .dotted
  | header => .outer

/-- A change of the table at the end of a path, with an answer. Missing tables on the path come into
    being; a path leads into the last element of an array of tables. -/
def change {α : Type} (kind : PathKind) (act : Origin → Fields → Option (α × Fields)) :
    List String → Origin → Fields → Option (α × Fields)
  | [], origin, fields => act origin fields
  | name :: path, _, fields =>
    match fields.lookup name with
    | none => do
      let (a, inner) ← change kind act path kind.origin []
      pure (a, put name (.table kind.origin inner) fields)
    | some (.leaf _) => none
    | some (.table origin inner) =>
      -- A table with a header of its own is complete but for tables below it.
      if kind = .name ∧ origin = .header then none
      else do
        let (a, inner) ← change kind act path origin inner
        pure (a, put name (.table origin inner) fields)
    | some (.tables elements) => do
      let (a, last) ← change kind act path .header (elements.getLast?.getD [])
      pure (a, put name (.tables (elements.dropLast ++ [last])) fields)

/-! ## Values -/

/-- A new value under a dotted name. A plain name adds to any table; a dotted one ends in a table that
    came from dotted names. -/
def addValue (path : List String) (name : String) (v : Value) (fields : Fields) : Option Fields :=
  (change .name (fun origin fields =>
    -- Tables from headers are not added to by dotted names, however they were reached.
    if path ≠ [] ∧ origin ≠ .dotted then none
    else if (fields.lookup name).isSome then none
    else some ((), put name (.leaf v) fields)) path .header fields).map (·.2)

/-! ## Headers -/

/-- The header of a table takes out what headers of tables below it have put there already; that is what
    the table starts with. -/
def openTable (path : List String) (name : String) (root : Fields) : Option (Fields × Fields) :=
  change .header (fun _ fields =>
    match fields.lookup name with
    | none => some ([], fields)
    -- Only headers further down have named the table so far; its own header may still come.
    | some (.table .outer inner) => some (inner, erase name fields)
    | some _ => none) path .header root

/-- The table of a header, put in its place when it is complete. -/
def closeTable (path : List String) (name : String) (table : Fields) (root : Fields) : Option Fields :=
  (change .header (fun _ fields => some ((), put name (.table .header table) fields))
    path .header root).map (·.2)

/-- The header of an element of an array of tables: from now on the array is there. -/
def openElement (path : List String) (name : String) (root : Fields) : Option Fields :=
  (change .header (fun _ fields =>
    match fields.lookup name with
    | none => some ((), put name (.tables []) fields)
    | some (.tables _) => some ((), fields)
    | some _ => none) path .header root).map (·.2)

/-- The element of a header, put at the end of its array when it is complete. -/
def closeElement (path : List String) (name : String) (table : Fields) (root : Fields) :
    Option Fields :=
  (change .header (fun _ fields =>
    match fields.lookup name with
    | some (.tables elements) => some ((), put name (.tables (elements ++ [table])) fields)
    | _ => none) path .header root).map (·.2)

/-! ## Finished tables -/

mutual

/-- The value of a node. -/
def Node.toValue : Node → Value
  | .leaf v => v
  | .table _ fields => .ofFields (fieldValues fields)
  | .tables elements => .array (elementValues elements)

/-- The values of fields. -/
def fieldValues : List (String × Node) → List (String × Value)
  | [] => []
  | (name, node) :: r => (name, node.toValue) :: fieldValues r

/-- The values of elements. -/
def elementValues : List (List (String × Node)) → List Value
  | [] => []
  | fields :: r => .ofFields (fieldValues fields) :: elementValues r

end

/-- A finished table. -/
def Fields.toValue (fields : Fields) : Value := .ofFields (fieldValues fields)

end BackupFleet.Toml
