/-!
# `BackupFleet.Catalog.Identifier` — the names of backups

A user names a backup by its id, or as the latest or the oldest one. An alias is looked up twice: the
catalog says which id it means now, and the backup with that id is read. What reading costs and how it
can fail is left open: any look-up of ids and backups will do.

## Contents

* `Identifier`, `Identifier.read`, `Identifier.text`;
* `Lookup`, `Identifier.resolve`.
-/

namespace BackupFleet.Catalog

/-- The latest backup, the oldest, or the one with an id. -/
inductive Identifier where
  | latest
  | oldest
  | literal (id : String)
deriving DecidableEq, Repr

/-- What is read from a catalog, with failures `ε` and backups `α`. -/
structure Lookup (ε α : Type) where
  firstId : Except ε (Option String)
  lastId : Except ε (Option String)
  get : String → Except ε (Option α)

namespace Identifier

/-- What a user means. -/
def read (s : String) : Identifier :=
  if s = "latest" ∨ s = "last" then .latest
  else if s = "oldest" ∨ s = "first" then .oldest
  else .literal s

/-- The id, or the name of the alias. -/
def text : Identifier → String
  | latest => "latest"
  | oldest => "oldest"
  | literal id => id

/-- The id that is meant, if any. -/
def id? {ε α : Type} (l : Lookup ε α) : Identifier → Except ε (Option String)
  | latest => l.lastId
  | oldest => l.firstId
  | literal id => .ok (some id)

/-- The backup that is meant, if any. -/
def resolve {ε α : Type} (l : Lookup ε α) (i : Identifier) : Except ε (Option α) := do
  match ← i.id? l with
  | some id => l.get id
  | none => pure none

end Identifier

end BackupFleet.Catalog
