import BackupFleet.Catalog.Record
import BackupFleet.Text.Blank
import BackupFleet.Text.Numeral

/-!
# `BackupFleet.Hook.Output` — what a backup hook says about its backup

A backup hook writes lines of words. Three kinds of lines are understood: `begin_wal WAL`, `end_wal WAL`
and `tablespace NAME OID LOCATION`; the words of a location are joined by single blanks. Of several lines
for one end of the WAL range the last counts, tablespaces add up, and any other line means nothing.

## Contents

* `HookLine`, `HookLine.read` — one line;
* `HookLine.apply`, `readHookOutput` — their effect on a record.
-/

namespace BackupFleet

/-- A line that is understood. -/
inductive HookLine where
  | beginWal (wal : String)
  | endWal (wal : String)
  | tablespace (t : Catalog.Tablespace)
deriving DecidableEq, Repr

namespace HookLine

/-- Words with single blanks between them. -/
def joinWords (words : List (List Char)) : String :=
  String.ofList (words.intersperse [' ']).flatten

@[simp] theorem toList_joinWords_singleton (w : List Char) : (joinWords [w]).toList = w := by
  simp [joinWords]

theorem toList_joinWords_cons (w : List Char) {ws : List (List Char)} (h : ws ≠ []) :
    (joinWords (w :: ws)).toList = w ++ ' ' :: (joinWords ws).toList := by
  obtain ⟨v, rest, rfl⟩ := List.exists_cons_of_ne_nil h
  simp [joinWords, List.intersperse_cons_cons]

/-- The meaning of the words of a line. -/
def ofWords : List (List Char) → Option HookLine
  | key :: value :: r =>
    if key = "begin_wal".toList then some (.beginWal (String.ofList value))
    else if key = "end_wal".toList then some (.endWal (String.ofList value))
    else if key = "tablespace".toList then
      match r with
      | oid :: first :: more =>
        (Text.readUnsigned Text.bound32 oid).map fun n =>
          .tablespace ⟨String.ofList value, UInt32.ofNat n, joinWords (first :: more)⟩
      | _ => none
    else none
  | _ => none

/-- The meaning of a line. -/
def read (line : List Char) : Option HookLine := ofWords (Text.words line)

/-- What a line adds to a record. -/
def apply (r : Catalog.Record) : HookLine → Catalog.Record
  | beginWal wal => { r with beginWal := some wal }
  | endWal wal => { r with endWal := some wal }
  | tablespace t => { r with tablespaces := r.tablespaces ++ [t] }

end HookLine

/-- The record with all that a hook wrote. -/
def readHookOutput (out : List Char) (r : Catalog.Record) : Catalog.Record :=
  ((Text.lines out).filterMap HookLine.read).foldl HookLine.apply r

end BackupFleet
