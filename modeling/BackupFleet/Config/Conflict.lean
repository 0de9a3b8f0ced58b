import BackupFleet.Config.Server

/-!
# `BackupFleet.Config.Conflict` — directories that are configured twice

Two servers must not store their files in one directory, and neither may two options of one server.
Paths are compared by their components. A conflict is found at the later of two places, going through
the servers in order and through the four options of each.

## Contents

* `Place`, `places` — where directories are configured;
* `Conflict`, `Conflict.message` — a place and the first place with the same path;
* `conflictsAfter`, `findConflicts` — the search.
-/

namespace BackupFleet

/-- A directory as an option of a server configures it. -/
structure Place where
  server : String
  option : StorageOption
  path : String
deriving DecidableEq, Repr

/-- The four places of a server. -/
def ServerConfig.places (c : ServerConfig) : List Place := c.paths.map fun (o, p) => ⟨c.name, o, p⟩

/-- A place, and an earlier one with the same path. -/
structure Conflict where
  later : Place
  earlier : Place
deriving DecidableEq, Repr

/-- Both places, each with the path as the later one spells it. -/
def Conflict.message (c : Conflict) : String :=
  "Conflicting path: " ++ c.later.option.name ++ "=" ++ c.later.path ++ " for server '" ++
    c.later.server ++ "': " ++ c.earlier.option.name ++ "=" ++ c.later.path ++ " for server '" ++
    c.earlier.server ++ "'"

/-- The conflicts of places after the places `seen`, no two of which have the same path. -/
def conflictsAfter (seen : List Place) : List Place → List Conflict
  | [] => []
  | p :: r =>
    match seen.find? (fun q => Path.SameComponents q.path p.path) with
    | some q => ⟨p, q⟩ :: conflictsAfter seen r
    | none => conflictsAfter (seen ++ [p]) r

/-- The conflicts among servers. -/
def findConflicts (servers : List ServerConfig) : List Conflict :=
  conflictsAfter [] (servers.flatMap ServerConfig.places)

end BackupFleet
