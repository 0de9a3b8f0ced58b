import BackupFleet.Storage.Reading

/-!
# `BackupFleet.Storage.Wal` — archiving WAL files

WAL files arrive in one directory and are archived in another. `cron` moves every file that has arrived
and appends its name to the catalog, file by file, so a failure leaves the files before it archived and
catalogued. `rebuildWalCatalog` writes the catalog anew from the names that are in the archive.

## Contents

* `rebuildWalCatalog` — the catalog written anew;
* `archiveAll`, `cron` — arrivals archived.
-/

namespace BackupFleet.Storage

/-! ## Rebuilding -/

/-- The text of a catalog with these names. -/
def walCatalogText (names : List String) : List Char := names.flatMap fun n => n.toList ++ ['\n']

/-- The names of the archived files, ascending. -/
def archivedNames (c : ServerConfig) (fs : FileSystem) (names : List String) : List String :=
  sortOn id (names.filter fun n => fs.isFile (Path.join c.walsDirectory n) && n ≠ walCatalogName)

/-- The catalog, written anew; the answer is the number of its names. -/
def rebuildWalCatalog (c : ServerConfig) : Operation Host Nat := do
  let dir := c.walsDirectory
  Host.onFiles .createDirectory dir (FileSystem.makeDirectories dir)
  let names ← Host.ask fun fs => attemptTo .readDirectory dir (fs.listDirectory dir)
  let archived := archivedNames c (← get).files names
  let path := walCatalogPath c
  Host.onFiles .writeWalCatalog path (FileSystem.writeFile path (Text.encode (walCatalogText archived)))
  pure archived.length

/-! ## Archiving -/

/-- The files among some names in the directory of arrivals, ascending. -/
def pendingNames (c : ServerConfig) (fs : FileSystem) (names : List String) : List String :=
  sortOn id (names.filter fun n => fs.isFile (Path.join c.incomingWalsDirectory n))

/-- A file moved into the archive, and its name appended to the catalog. -/
def archiveOne (c : ServerConfig) (catalog : FileSystem.AppendHandle) (name : String) :
    Operation Host FileSystem.AppendHandle := do
  let source := Path.join c.incomingWalsDirectory name
  let target := Path.join c.walsDirectory name
  let before := (← get).files
  Host.onFiles .archiveWal source (FileSystem.rename source target)
  -- An arrival with the name of the catalog takes its place, and what is appended then is lost.
  let catalog := catalog.afterMove (before.locate source) (before.locate target)
  Host.onFiles .writeWalCatalog (walCatalogPath c)
    (FileSystem.append catalog (Text.encode (name.toList ++ ['\n'])))
  pure catalog

/-- Files archived one after the other. -/
def archiveAll (c : ServerConfig) (catalog : FileSystem.AppendHandle) :
    List String → Operation Host Unit
  | [] => pure ()
  | name :: r => do archiveAll c (← archiveOne c catalog name) r

/-- A directory that is there afterwards. -/
def ensureDirectory (dir : String) : Operation Host Unit :=
  Host.onFiles .createDirectory dir (FileSystem.makeDirectories dir)

/-- All arrivals archived; the answer is their number. -/
def cron (c : ServerConfig) : Operation Host Nat := do
  ensureDirectory c.basebackupsDirectory
  ensureDirectory c.walsDirectory
  ensureDirectory c.incomingWalsDirectory
  let incoming := c.incomingWalsDirectory
  let names ← Host.ask fun fs => attemptTo .readDirectory incoming (fs.listDirectory incoming)
  let pending := pendingNames c (← get).files names
  let path := walCatalogPath c
  let catalog ← Host.onFiles .openWalCatalog path (FileSystem.openAppend path)
  archiveAll c catalog pending
  pure pending.length

end BackupFleet.Storage
