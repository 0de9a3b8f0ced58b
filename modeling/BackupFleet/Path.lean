import BackupFleet.Text.Blank

/-!
# `BackupFleet.Path` — file names as text

Paths are kept as they were written, because messages show them that way. This module takes them apart:
into the segments that a walk through the file tree follows, and into the components by which two
spellings of a path are compared. Repeated slashes separate like one, and a `.` counts only at the start.

## Contents

* `Path.IsName` — what an entry of a directory can be called;
* `Path.join` — a name put below a directory;
* `Path.isAbsolute`, `Path.segments`, `Path.lookupNames` — the way a path describes;
* `Path.components`, `Path.SameComponents` — comparison;
* `Path.hasExtension` — what the name ends in.
-/

namespace BackupFleet.Path

/-! ## Names -/

/-- The most bytes a name may have. -/
def maxNameBytes : Nat := 255

/-- An entry of a directory can be called this: no step in a walk but a name, without a slash and a NUL
    byte, and not too long. -/
def IsName (name : String) : Prop :=
  name ≠ "" ∧ name ≠ "." ∧ name ≠ ".." ∧ '/' ∉ name.toList ∧ '\x00' ∉ name.toList ∧
    name.utf8ByteSize ≤ maxNameBytes

instance (name : String) : Decidable (IsName name) :=
  inferInstanceAs (Decidable (_ ∧ _ ∧ _ ∧ _ ∧ _ ∧ _))

/-! ## Joining -/

/-- `name` seen from `dir`; an absolute `name` stands for itself. -/
def join (dir name : String) : String :=
  match name.toList with
  | '/' :: _ => name
  | cs =>
    match dir.toList.getLast? with
    | none | some '/' => String.ofList (dir.toList ++ cs)
    | some _ => String.ofList (dir.toList ++ '/' :: cs)

/-! ## Taking apart -/

/-- Whether the path starts at the root. -/
def isAbsolute (p : String) : Bool := p.toList.head? == some '/'

/-- The names between the slashes. -/
def segments (p : String) : List String :=
  ((Text.splitWhen (· == '/') p.toList).filter (· ≠ [])).map String.ofList

/-- The names that a lookup follows: a slash at the end asks for a directory, as a final `.` does. -/
def lookupNames (p : String) : List String :=
  segments p ++ if p.toList.getLast? = some '/' then ["."] else []

/-- The parts by which paths are compared: the root, a `.` at the start, and the names. -/
def components (p : String) : List String :=
  let names := segments p
  if isAbsolute p then "/" :: names.filter (· ≠ ".")
  else match names with
    | "." :: r => "." :: r.filter (· ≠ ".")
    | r => r.filter (· ≠ ".")

/-- Two spellings have the same components. -/
def SameComponents (p q : String) : Prop := components p = components q

instance (p q : String) : Decidable (SameComponents p q) := inferInstanceAs (Decidable (_ = _))

/-- Whether a file name has something before a final point and `extension` after it. -/
def hasExtension (extension name : String) : Bool :=
  let ending := '.' :: extension.toList
  ending.isSuffixOf name.toList && ending.length < name.toList.length

example : join "srv/main" "base" = "srv/main/base" ∧ join "srv/" "base" = "srv/base" := by decide
example : join "" "base" = "base" ∧ join "srv" "/base" = "/base" ∧ join "srv" "" = "srv/" := by decide
example : components "./a//b/./c/" = [".", "a", "b", "c"] ∧ components "//w/." = ["/", "w"] := by decide

end BackupFleet.Path
