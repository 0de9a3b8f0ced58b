import BackupFleet.FileSystem.Basic

/-!
# `BackupFleet.FileSystem.Change` — operations that change files

An operation either succeeds or fails with a `FileError`; a failing one may have changed something
before, so the file system is part of both outcomes. Each operation comes down to `put` and `prune` of
the tree.

Disks are never full, and a file that is there may be written: what fails is the way to a file, or the
making and taking away of entries. No operation seals a directory or opens it again.

## Contents

* `FileOp` — operations;
* `makeDirectories`, `makeParents`, `writeFile`, `rename`, `removeAll` — the operations on paths;
* `AppendHandle`, `openAppend`, `append` — a file held open for appending.
-/

namespace BackupFleet

/-- An operation on the file system. -/
abbrev FileOp (α : Type) := EStateM FileError FileSystem α

namespace FileSystem

/-- A look-up as an operation. -/
def look {α : Type} (f : FileSystem → Except FileError α) : FileOp α := fun fs =>
  match f fs with
  | .ok a => .ok a fs
  | .error e => .error e fs

/-- The location is in a sealed directory. -/
def isSealed (fs : FileSystem) (l : Location) : Bool :=
  fs.sealedDirs.any fun s => FileTree.AtOrBelow s l.tail

/-- `fs` with another tree. -/
def withTree (fs : FileSystem) (t : FileTree) : FileSystem := { fs with tree := t }

/-! ## Directories -/

/-- A new directory at the end of names from a location. -/
def makeAt (from_ : Location) (names : List String) : FileOp Unit := do
  let l ← look fun fs => walk fs.tree from_ names
  let fs ← get
  if fs.tree.get? l ≠ none then throw .alreadyExists
  else if fs.isSealed l then throw .permissionDenied
  else set (fs.withTree (fs.tree.put l .directory))

/-- Whether names from a location lead to a directory. -/
def leadsToDirectory (from_ : Location) (names : List String) : FileOp Bool := do
  let fs ← get
  match walk fs.tree from_ names with
  | .ok l => pure (fs.tree.get? l = some .directory)
  | .error _ => pure false

/-- A directory at the end of names. If it cannot be made because something above it is missing,
    `parents` is done first; one that is there already is left alone. -/
def makeAfter (from_ : Location) (names : List String) (parents : FileOp Unit) : FileOp Unit := do
  let unlessThere (e : FileError) : FileOp Unit := do
    if ← leadsToDirectory from_ names then pure () else throw e
  try makeAt from_ names
  catch e =>
    if e = .notFound then
      parents
      try makeAt from_ names
      catch e => unlessThere e
    else unlessThere e

/-- The directory at the end of names, the last name first, and the directories above it. A `.` at the
    end does not count. -/
def makeChain (from_ : Location) : List String → FileOp Unit
  | [] => pure ()
  | name :: outer =>
    if name = "." then makeChain from_ outer
    else makeAfter from_ (name :: outer).reverse (makeChain from_ outer)

/-- The names above the end of a path, the last name first. -/
def namesAbove (p : String) : List String := ((Path.segments p).reverse.dropWhile (· = ".")).tail

/-- The directory of a path, with the directories above it. -/
def makeDirectories (p : String) : FileOp Unit := do
  if p = "" then pure ()
  else match pathError p with
    | some e => throw e
    | none =>
      let from_ := (← get).start p
      makeAfter from_ (Path.segments p) (makeChain from_ (namesAbove p))

/-- The directory that the end of a path is in, with the directories above it. -/
def makeParents (p : String) : FileOp Unit := do
  match pathError p with
  | some e => throw e
  | none => makeChain ((← get).start p) (namesAbove p)

/-! ## Files -/

/-- The file at the end of a path gets this content; it is created if there is none. -/
def writeFile (p : String) (content : Bytes) : FileOp Unit := do
  let l ← look (locate · p)
  let fs ← get
  match fs.tree.get? l with
  | some .directory => throw .isDirectory
  | some (.file _) => set (fs.withTree (fs.tree.put l (.file content)))
  | none =>
    if fs.isSealed l then throw .permissionDenied
    else set (fs.withTree (fs.tree.put l (.file content)))

/-- The file at the end of one path moves to the end of another and takes the place of a file there. An
    entry goes from one directory and comes to the other, so neither may be sealed. -/
def rename (source target : String) : FileOp Unit := do
  let l ← look (locate · source)
  let k ← look (locate · target)
  let fs ← get
  match fs.tree.get? l with
  | none => throw .notFound
  | some .directory => throw .isDirectory
  | some (.file content) =>
    -- Two paths of one file: there is nothing to move.
    if l = k then pure ()
    else if fs.isSealed l || fs.isSealed k then throw .permissionDenied
    else if fs.tree.get? k = some .directory then throw .isDirectory
    else set (fs.withTree ((fs.tree.prune l).put k (.file content)))

/-- The tree without what is below a location. -/
def pruneBelow (t : FileTree) (l : Location) : FileTree :=
  (t.childNames l).foldl (fun t name => t.prune (name :: l)) t

/-- A directory is removed with everything below it. A path that ends in `.` names a directory that
    cannot be removed, so only what is below it goes; with `..` at its end, the path leads nowhere once
    everything below is gone.

    Only the seal on the way to the directory is looked at. Nothing below it is sealed: a hook gives back a
    tree and seals nothing, and the directories that a machine seals hold no backups. So a removal that is
    let begin is not stopped half way. -/
def removeAll (p : String) : FileOp Unit := do
  let l ← look (locate · p)
  let fs ← get
  match fs.tree.get? l with
  | none => throw .notFound
  | some (.file _) => throw .notDirectory
  | some .directory =>
    if fs.isSealed l then throw .permissionDenied
    else match (Path.segments p).getLast? with
      | some "." =>
        set (fs.withTree (pruneBelow fs.tree l))
        throw .invalidArgument
      | some ".." => set (fs.withTree (pruneBelow fs.tree l))
      | _ => set (fs.withTree (fs.tree.prune l))

/-! ## Appending -/

/-- A file held open for appending. Another file that takes its place does not end the holding, but what
    is appended from then on is in no directory any more (`attached` is false). -/
structure AppendHandle where
  location : Location
  attached : Bool

/-- The file at the end of a path, held open; it is created if there is none. -/
def openAppend (p : String) : FileOp AppendHandle := do
  let l ← look (locate · p)
  let fs ← get
  match fs.tree.get? l with
  | some .directory => throw .isDirectory
  | some (.file _) => pure ⟨l, true⟩
  | none =>
    if fs.isSealed l then throw .permissionDenied
    else
      set (fs.withTree (fs.tree.put l (.file [])))
      pure ⟨l, true⟩

/-- The handle after a file was moved from one location to another. -/
def AppendHandle.afterMove (h : AppendHandle) (source target : Except FileError Location) :
    AppendHandle :=
  match source, target with
  | .ok l, .ok k => if l ≠ k ∧ k = h.location then { h with attached := false } else h
  | _, _ => h

/-- Bytes at the end of a held file. There is always room for them, so this does not fail. -/
def append (h : AppendHandle) (bytes : Bytes) : FileOp Unit := do
  let fs ← get
  if h.attached then
    match fs.tree.get? h.location with
    | some (.file content) => set (fs.withTree (fs.tree.put h.location (.file (content ++ bytes))))
    | _ => pure ()
  else pure ()

end FileSystem

end BackupFleet
