import BackupFleet.FileSystem.Error
import BackupFleet.FileTree.Basic
import BackupFleet.Path

/-!
# `BackupFleet.FileSystem.Basic` — files by path

A file system is a file tree together with the directory that relative paths start from, and the
directories in which nothing may be created. A path is followed name by name: each step needs a directory
to stand in, `.` stays there and `..` goes up. Everything the program reads of its surroundings goes
through the look-ups of this module.

## Contents

* `FileSystem` — the type;
* `walk`, `locate` — from a path to a location;
* `entry`, `isFile`, `isDirectory`, `exists_` — what is there;
* `readFile`, `readText`, `listDirectory`, `filesUnder` — contents.
-/

namespace BackupFleet

/-! ## Following a path -/

/-- A tree, the directory that relative paths start from, and the directories that are sealed: nothing
    may be created or removed in them. -/
structure FileSystem where
  tree : FileTree
  workDir : Location
  sealedDirs : List Location

namespace FileSystem

instance : Inhabited FileSystem := ⟨⟨default, [], []⟩⟩

/-- The first number of bytes that is too many for a path. -/
def pathLimit : Nat := 4096

/-- Where names lead from a location. Only what is passed through must exist. -/
def walk (t : FileTree) (at_ : Location) : List String → Except FileError Location
  | [] => .ok at_
  | name :: r =>
    match t.get? at_ with
    | none => .error .notFound
    | some (.file _) => .error .notDirectory
    | some .directory =>
      -- Even a `.` or a `..` needs a directory to stand in.
      if name = "." then walk t at_ r
      else if name = ".." then walk t at_.tail r
      else if Path.maxNameBytes < name.utf8ByteSize then .error .nameTooLong
      else walk t (name :: at_) r

/-- Where a path starts. -/
def start (fs : FileSystem) (p : String) : Location := if Path.isAbsolute p then [] else fs.workDir

/-- Why no system call takes the path, if none does. -/
def pathError (p : String) : Option FileError :=
  if p.toList.contains '\x00' then some .nulInName
  else if p = "" then some .notFound
  else if pathLimit ≤ p.utf8ByteSize then some .nameTooLong
  else none

/-- The location that a path leads to. -/
def locate (fs : FileSystem) (p : String) : Except FileError Location :=
  match pathError p with
  | some e => .error e
  | none => walk fs.tree (fs.start p) (Path.lookupNames p)

/-! ## Looking -/

/-- What is at the end of a path. -/
def entry (fs : FileSystem) (p : String) : Except FileError Entry := do
  match fs.tree.get? (← fs.locate p) with
  | some e => pure e
  | none => .error .notFound

/-- There is a file at the end of the path. -/
def isFile (fs : FileSystem) (p : String) : Bool :=
  match fs.entry p with
  | .ok (.file _) => true
  | _ => false

/-- There is a directory at the end of the path. -/
def isDirectory (fs : FileSystem) (p : String) : Bool :=
  match fs.entry p with
  | .ok .directory => true
  | _ => false

/-- There is something at the end of the path. -/
def exists_ (fs : FileSystem) (p : String) : Bool := (fs.entry p).toBool

/-- The content of a file. -/
def readFile (fs : FileSystem) (p : String) : Except FileError Bytes := do
  match ← fs.entry p with
  | .file content => pure content
  | .directory => .error .isDirectory

/-- The content of a file as text. -/
def readText (fs : FileSystem) (p : String) : Except FileError (List Char) := do
  match Text.decode (← fs.readFile p) with
  | .ok cs => pure cs
  | .error _ => .error .notText

/-- The names in a directory, ascending. -/
def listDirectory (fs : FileSystem) (p : String) : Except FileError (List String) := do
  let l ← fs.locate p
  match fs.tree.get? l with
  | some .directory => pure (fs.tree.childNames l)
  | some (.file _) => .error .notDirectory
  | none => .error .notFound

/-- A directory below the one at `p` can be gone into: the system takes the path built on the way. -/
def canEnter (p : String) (names : List String) : Bool := (pathError (names.foldl Path.join p)).isNone

/-- The paths of all files at any depth below a directory, ascending; of a file, its own path; nothing
    if there is nothing. A directory that cannot be gone into is passed over. -/
def filesUnder (fs : FileSystem) (p : String) : List String :=
  match fs.locate p with
  | .error _ => []
  | .ok l =>
    match fs.tree.get? l with
    | none => []
    | some (.file _) => [p]
    | some .directory =>
      let within := (fs.tree.filesBelow l).filter fun names => canEnter p names.dropLast
      sortOn id (within.map fun names => names.foldl Path.join p)

end FileSystem

end BackupFleet
