import BackupFleet.Storage.Backup
import BackupFleet.Storage.Lock
import BackupFleet.Storage.Wal

/-!
# `BackupFleet.Storage.Services` — the services of a host

## Contents

* `Storage.services` — all that servers can do, on a host and with given hooks.
-/

namespace BackupFleet.Storage

/-- A question about files as a question about the host. -/
def onHost {α : Type} (q : Question FileSystem α) : Question Host α := fun h => q h.files

/-- What servers can do whose files are on a host. -/
def services (hooks : HookRunner) : Services Host where
  backup := backup hooks
  recover := recover hooks
  deleteBackup := deleteBackup
  rebuildWalCatalog := rebuildWalCatalog
  cron := cron
  listBackups c := onHost (listBackups c)
  getBackup c id := onHost (getBackup c id)
  firstId c := onHost (firstId c)
  lastId c := onHost (lastId c)
  status c := onHost (status c)
  describe c _ := .ok (describe c)
  check c := onHost fun fs => .ok (check c fs)
  listFiles c r scope := onHost (listFiles c r scope)
  diagnose c := onHost (diagnose c)
  acquireLock := Lock.acquire
  releaseLock := Lock.release

end BackupFleet.Storage
