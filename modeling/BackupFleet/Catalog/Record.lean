import BackupFleet.Time.Moment

/-!
# `BackupFleet.Catalog.Record` — what the catalog knows of a backup

Every backup has a record: its id, the server, how far it got, when it began and ended, which WAL files
it needs, and where its tablespaces were.

## Contents

* `Status`, `Tablespace`, `Record`, `Record.new`;
* `Record.tablespaceNames`.
-/

namespace BackupFleet.Catalog

/-- How far a backup got: nothing copied yet, copying, given up, or complete. -/
inductive Status where
  | empty
  | started
  | failed
  | done
deriving DecidableEq, Repr

/-- The name of a status. -/
def Status.name : Status → String
  | empty => "EMPTY"
  | started => "STARTED"
  | failed => "FAILED"
  | done => "DONE"

/-- A tablespace and its location on the server that was backed up. -/
structure Tablespace where
  name : String
  oid : UInt32
  location : String
deriving DecidableEq, Repr

/-- The record of a backup. -/
structure Record where
  id : String
  server : String
  status : Status
  beginTime : Time.Moment
  endTime : Option Time.Moment
  beginWal : Option String
  endWal : Option String
  tablespaces : List Tablespace
  error : Option String
deriving DecidableEq

namespace Record

/-- The record of a backup that begins. -/
def new (server id : String) (beginTime : Time.Moment) : Record :=
  { id, server, status := .empty, beginTime, endTime := none, beginWal := none, endWal := none
    tablespaces := [], error := none }

/-- The names of the tablespaces, in order. -/
def tablespaceNames (r : Record) : List String := r.tablespaces.map (·.name)

end Record

end BackupFleet.Catalog
