import BackupFleet.FileTree.Basic

/-!
# `BackupFleet.FileTree.Difference` — what changed between two trees

Two states of a tree are compared location by location below some directory. A location is removed,
added, or has another content; what is the same in both is not listed.

## Contents

* `Change` — what happened at a location;
* `Change.between`, `changesBelow` — one location, and all of them in ascending order of paths.
-/

namespace BackupFleet

/-- What happened at a location. -/
inductive Change where
  | removed
  | added (now : Entry)
  | modified (now : Entry)
deriving DecidableEq

/-- What happened between two states of a location, if anything. -/
def Change.between : Option Entry → Option Entry → Option Change
  | none, none => none
  | some _, none => some .removed
  | none, some e => some (.added e)
  | some a, some b => if a = b then none else some (.modified b)

namespace FileTree

/-- The locations of both trees below `l`, each once. -/
def locationsBelow (a b : FileTree) (l : Location) : List Location :=
  let inA := a.entries.map (·.1)
  let onlyB := (b.entries.map (·.1)).filter fun k => !inA.contains k
  (inA ++ onlyB).filter fun k => AtOrBelow l k ∧ k ≠ l

/-- The path of a location seen from one above it. -/
def pathFrom (l k : Location) : String :=
  "/".intercalate (k.take (k.length - l.length)).reverse

/-- What changed below `l`, with paths seen from there, in ascending order of paths. -/
def changesBelow (before after : FileTree) (l : Location) : List (String × Change) :=
  sortOn (·.1) ((locationsBelow before after l).filterMap fun k =>
    (Change.between (before.get? k) (after.get? k)).map fun c => (pathFrom l k, c))

end FileTree

end BackupFleet
