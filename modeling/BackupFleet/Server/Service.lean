import BackupFleet.Catalog.Identifier
import BackupFleet.Diagnostic.Fault
import BackupFleet.Server.Request

/-!
# `BackupFleet.Server.Service` — what servers can do

Commands decide which servers to act on and what to report; the work is done by services. This module is
the interface between the two. The services act on some world `σ`: operations may change it, also when
they fail, and questions cannot. The theory of the commands holds for any services over any world.

## Contents

* `Operation`, `Question` — the two kinds of services;
* `Acquisition` — what comes of asking for the maintenance lock;
* `Services`, `Services.lookup` — the interface.
-/

namespace BackupFleet

/-- Something that may change the world and may fail. -/
abbrev Operation (σ α : Type) := EStateM Fault σ α

/-- Something that is read off the world and may fail. -/
abbrev Question (σ α : Type) := σ → Except Fault α

/-- The lock is held now, somebody holds it, or its file may not be created. -/
inductive Acquisition where
  | held (l : Location)
  | busy
  | denied (path : String)
deriving DecidableEq, Repr

/-- What servers can do. -/
structure Services (σ : Type) where
  backup : ServerConfig → BackupOptions → Operation σ Catalog.Record
  recover : ServerConfig → Catalog.Record → RecoveryRequest → Operation σ Unit
  deleteBackup : ServerConfig → Catalog.Record → Operation σ Unit
  rebuildWalCatalog : ServerConfig → Operation σ Nat
  cron : ServerConfig → Operation σ Nat
  listBackups : ServerConfig → Question σ (List Catalog.Record)
  getBackup : ServerConfig → String → Question σ (Option Catalog.Record)
  firstId : ServerConfig → Question σ (Option String)
  lastId : ServerConfig → Question σ (Option String)
  status : ServerConfig → Question σ (List (String × String))
  describe : ServerConfig → Question σ (List (String × String))
  check : ServerConfig → Question σ (List CheckResult)
  listFiles : ServerConfig → Catalog.Record → FileScope → Question σ (List String)
  diagnose : ServerConfig → Question σ Json
  acquireLock : (directory : String) → Operation σ Acquisition
  releaseLock : Location → σ → σ

/-- The catalog of a server as the world has it now. -/
def Services.lookup {σ : Type} (s : Services σ) (c : ServerConfig) (world : σ) :
    Catalog.Lookup Fault Catalog.Record where
  firstId := s.firstId c world
  lastId := s.lastId c world
  get id := s.getBackup c id world

end BackupFleet
