import BackupFleet.Server.Service

/-!
# `BackupFleet.Proofs.Server.Trace` — services that note what is asked of them

Claims about which work a command hands over, and how often, are claims about the calls of a service.
`Services.traced` puts a list of calls beside the world of any services: every operation notes its call,
whether it succeeds or not, and a question notes nothing, since it cannot change anything.

## Contents

* `ServiceCall` — the work that can be asked for;
* `Operation.noting`, `Services.traced` — the services with their list of calls.
-/

namespace BackupFleet

variable {σ α : Type}

/-- A piece of work that is asked of a service. -/
inductive ServiceCall where
  | backup (c : ServerConfig) (o : BackupOptions)
  | recover (c : ServerConfig) (r : Catalog.Record) (q : RecoveryRequest)
  | deleteBackup (c : ServerConfig) (r : Catalog.Record)
  | rebuildWalCatalog (c : ServerConfig)
  | cron (c : ServerConfig)
  | acquireLock (directory : String)
  | releaseLock (l : Location)

/-- An operation that notes its call beside the world. -/
def Operation.noting (call : ServiceCall) (op : Operation σ α) :
    Operation (σ × List ServiceCall) α := fun w =>
  match op w.1 with
  | .ok a w' => .ok a (w', w.2 ++ [call])
  | .error e w' => .error e (w', w.2 ++ [call])

/-- Services that keep, beside their world, the calls of their operations in order. -/
def Services.traced (s : Services σ) : Services (σ × List ServiceCall) where
  backup c o := Operation.noting (.backup c o) (s.backup c o)
  recover c r q := Operation.noting (.recover c r q) (s.recover c r q)
  deleteBackup c r := Operation.noting (.deleteBackup c r) (s.deleteBackup c r)
  rebuildWalCatalog c := Operation.noting (.rebuildWalCatalog c) (s.rebuildWalCatalog c)
  cron c := Operation.noting (.cron c) (s.cron c)
  listBackups c w := s.listBackups c w.1
  getBackup c id w := s.getBackup c id w.1
  firstId c w := s.firstId c w.1
  lastId c w := s.lastId c w.1
  status c w := s.status c w.1
  describe c w := s.describe c w.1
  check c w := s.check c w.1
  listFiles c r scope w := s.listFiles c r scope w.1
  diagnose c w := s.diagnose c w.1
  acquireLock d := Operation.noting (.acquireLock d) (s.acquireLock d)
  releaseLock l w := (s.releaseLock l w.1, w.2 ++ [.releaseLock l])

/-- **Every operation notes exactly its call**, and changes the world as it does without a list. -/
theorem Operation.noting_apply (call : ServiceCall) (op : Operation σ α) (w : σ)
    (calls : List ServiceCall) :
    Operation.noting call op (w, calls) = match op w with
      | .ok a w' => .ok a (w', calls ++ [call])
      | .error e w' => .error e (w', calls ++ [call]) := rfl

theorem Services.traced_acquireLock (s : Services σ) (directory : String) :
    s.traced.acquireLock directory
      = Operation.noting (.acquireLock directory) (s.acquireLock directory) := rfl

end BackupFleet
