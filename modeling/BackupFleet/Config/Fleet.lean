import BackupFleet.Config.Conflict

/-!
# `BackupFleet.Config.Fleet` — all configured servers

A fleet is a configuration that has been read: the settings, the servers, and the conflicts among them as
they are told to the user. It does not change while a command runs.

## Contents

* `Fleet`, `Fleet.server?`, `Fleet.lockDirectory`.
-/

namespace BackupFleet

/-- A configuration that has been read. -/
structure Fleet where
  settings : Settings
  servers : List ServerConfig
  conflicts : List String
deriving DecidableEq, Repr

namespace Fleet

/-- The first server with a name. -/
def server? (f : Fleet) (name : String) : Option ServerConfig := f.servers.find? (·.name = name)

/-- Where the maintenance lock is. -/
def lockDirectory (f : Fleet) : String := f.settings.lockDirectory

theorem name_of_server? {f : Fleet} {name : String} {c : ServerConfig} (h : f.server? name = some c) :
    c.name = name := by
  simpa using List.find?_some h

end Fleet

end BackupFleet
