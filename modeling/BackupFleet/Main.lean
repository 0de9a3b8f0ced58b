import BackupFleet.CommandLine.Program
import BackupFleet.FileTree.Difference
import Std.Time.DateTime.Timestamp

/-!
# `BackupFleet.Main` — the program on a disk

The files below the working directory are taken into a file system, and with them the configuration files
at their default places. The program runs on that file system, and what changed below the working
directory is put back on the disk. Other files are not seen.

## Contents

* `Disk.take`, `Disk.putBack` — files from the disk, and changes back to it;
* `Disk.host` — the machine that the program runs on;
* `Disk.run`, `main` — the program.
-/

namespace BackupFleet.Disk

/-! ## From the disk -/

/-- The location that a path from the root names. -/
def locationOf (path : String) : Location := (Path.segments path).reverse

/-- A directory and the directories above it, in a tree. -/
def withDirectories (t : FileTree) : Location → FileTree
  | [] => t
  | name :: above => (withDirectories t above).put (name :: above) .directory

/-- The entries of a directory, with everything below them, in a tree. -/
partial def take (at_ : Location) (entries : List IO.FS.DirEntry) (t : FileTree) : IO FileTree :=
  match entries with
  | [] => pure t
  | e :: r => do
    let l := e.fileName :: at_
    let t ←
      if ← e.path.isDir then take l (← e.path.readDir).toList (t.put l .directory)
      else do
        let content ← IO.FS.readBinFile e.path
        pure (t.put l (.file content.toList))
    take at_ r t

/-- A single file, in a tree, if it can be read. -/
def takeFile (path : String) (t : FileTree) : IO FileTree := do
  let l := locationOf path
  try
    let content ← IO.FS.readBinFile path
    pure ((withDirectories t l.tail).put l (.file content.toList))
  catch _ => pure t

/-! ## Back to the disk -/

/-- A change made on the disk. -/
def putBackOne (path : String) : Change → IO Unit
  | .removed => try IO.FS.removeFile path catch _ => IO.FS.removeDir path
  | .added .directory => IO.FS.createDir path
  | .modified .directory => do
    IO.FS.removeFile path
    IO.FS.createDir path
  | .added (.file content) | .modified (.file content) =>
    IO.FS.writeBinFile path ⟨content.toArray⟩

/-- Changes made on the disk: what is removed goes first, files before their directories. -/
def putBack (changes : List (String × Change)) : IO Unit := do
  let (removed, others) := changes.partition (·.2 = .removed)
  for (path, c) in removed.reverse ++ others do
    putBackOne path c

/-! ## The machine -/

/-- The number of the running process. -/
def processId : IO Nat := do
  try
    let stat ← IO.FS.readFile "/proc/self/stat"
    pure ((Text.readDigits (stat.toList.takeWhile Char.isDigit)).getD 0)
  catch _ => pure 0

/-- The machine that the program runs on. -/
def host (home : String) : IO Host := do
  let here ← IO.currentDir
  let workDir := locationOf here.toString
  let mut tree ← take workDir (← here.readDir).toList (withDirectories .empty workDir)
  for place in defaultPlaces.map (expandHome home) do
    tree ← takeFile place tree
  let now ← Std.Time.Timestamp.now
  let moment := Time.Moment.ofUnix now.toSecondsSinceUnixEpoch.val 0
  pure
    { files := ⟨tree, workDir, []⟩, clock := fun _ => moment, readings := 0, heldLocks := []
      processId := ← processId }

/-- The variables of the environment that the program and its hooks look at. -/
def environment : IO (List (String × String)) := do
  let found ← [configVariable, "HOME", "TZ", "PATH"].mapM fun name => do
    pure ((← IO.getEnv name).map (name, ·))
  pure (found.filterMap id)

/-- A run of the program on the disk. -/
def run (words : List String) : IO UInt32 := do
  let environment ← environment
  let before ← host ((environment.lookup "HOME").getD "")
  let outcome := runProgram environment words before
  let files := outcome.host.files
  putBack (FileTree.changesBelow before.files.tree files.tree files.workDir)
  IO.print outcome.written.out
  IO.eprint outcome.written.err
  pure (UInt32.ofNat outcome.exit)

end BackupFleet.Disk

def main (words : List String) : IO UInt32 := BackupFleet.Disk.run words
