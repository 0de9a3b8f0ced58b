import BackupFleet.Proofs.Catalog.Cut
import BackupFleet.Proofs.FileSystem.Effect
import BackupFleet.Storage.Backup

/-!
# `BackupFleet.Proofs.Storage.RecordFile` — the file that a record is stored in

What was stored is loaded again, also if something else follows it in the file. A file that was not
written to its end is noticed: it is never taken for another record.

## Contents

* `loadRecord_of_decode` — a file with readable bytes, and one with others;
* `readFile_of_saveRecord` — the file after a record was stored;
* `record_read_back_and_cut_noticed` — all of a record, and less than all of it.
-/

namespace BackupFleet.Storage

open Catalog FileSystem

/-! ## Records loaded and stored -/

theorem loadRecord_of_decode {fs : FileSystem} {path : String} {bytes : Bytes} {r : Record}
    (hread : fs.readFile path = .ok bytes) (h : Record.decode bytes = .ok r) :
    loadRecord fs path = .ok r := by
  unfold loadRecord attemptTo
  simp only [hread, h, bind, Except.bind, pure, Except.pure]

theorem loadRecord_of_decode_error {fs : FileSystem} {path : String} {bytes : Bytes} {e : DecodeError}
    (hread : fs.readFile path = .ok bytes) (h : Record.decode bytes = .error e) :
    loadRecord fs path = .error (.undecodable path e) := by
  unfold loadRecord attemptTo
  simp only [hread, h, bind, Except.bind]

/-- A record that was stored without an error is what is in its file. -/
theorem readFile_of_saveRecord {c : ServerConfig} {r : Record} {h h' : Host}
    (hsave : saveRecord c r h = .ok () h') : h'.files.readFile (recordPath c r.id) = .ok r.encode := by
  unfold saveRecord at hsave
  simp only [Effect.bind_apply, Host.onFiles] at hsave
  cases hmake : makeDirectories (backupDir c r.id) h.files with
  | error e fs =>
    rw [hmake] at hsave
    cases hsave
  | ok u fs =>
    rw [hmake] at hsave
    dsimp only at hsave
    cases hwrite : writeFile (recordPath c r.id) r.encode fs with
    | error e fs' =>
      rw [hwrite] at hsave
      cases hsave
    | ok u fs' =>
      rw [hwrite] at hsave
      obtain ⟨-, rfl⟩ := EStateM.Result.ok.inj hsave
      exact readFile_eq_ok_iff.2 (entry_of_writeFile hwrite)

/-- **A record is read back exactly, whatever follows it, and a record that was cut off anywhere is not
    read.** The same for its file: once it is stored it is loaded again, and where the file holds less than
    all of it, loading fails. -/
theorem record_read_back_and_cut_noticed (r : Record) (hr : r.Fits) :
    (∀ rest, Record.decode (r.encode ++ rest) = .ok r) ∧
    (∀ front, front <+: r.encode → front ≠ r.encode → Record.decode front = .error .truncated) ∧
    (∀ c h h', saveRecord c r h = .ok () h' → loadRecord h'.files (recordPath c r.id) = .ok r) ∧
    ∀ fs path,
      (∀ rest, fs.readFile path = .ok (r.encode ++ rest) → loadRecord fs path = .ok r) ∧
      (∀ front, front <+: r.encode → front ≠ r.encode → fs.readFile path = .ok front →
        loadRecord fs path = .error (.undecodable path .truncated)) := by
  have hcut : ∀ front, front <+: r.encode → front ≠ r.encode →
      Record.decode front = .error .truncated := by
    rintro front ⟨back, hback⟩ hne
    refine Record.decode_of_cut hr hback.symm ?_
    rintro rfl
    rw [List.append_nil] at hback
    exact hne hback
  refine ⟨Record.decode_append hr, hcut, ?_, fun fs path => ⟨?_, ?_⟩⟩
  · intro c h h' hsave
    exact loadRecord_of_decode (readFile_of_saveRecord hsave) (Record.decode_encode hr)
  · intro rest hread
    exact loadRecord_of_decode hread (Record.decode_append hr rest)
  · intro front hfront hne hread
    exact loadRecord_of_decode_error hread (hcut front hfront hne)

/-! ### A record in a leap second -/

namespace LeapSecond

/-- A failed backup that began in a leap second of the year 12016, with a tablespace. -/
def record : Record :=
  { id := "b1", server := "main", status := .failed
    beginTime := ⟨317042726399, 1500000000, by decide⟩, endTime := some .epoch
    beginWal := none, endWal := some "0001", tablespaces := [⟨"fast", 16384, "/mnt/fast"⟩]
    error := some "no space left" }

/-- One server, stored in `srv`. -/
def server : ServerConfig := ServerConfig.new "main" "srv"

/-- Nothing is there yet. -/
def host : Host := default

theorem fits : record.Fits where
  id := storable_of_length_le (by decide)
  server := storable_of_length_le (by decide)
  beginWal := by simp [record]
  endWal := by
    intro s hs
    obtain rfl := Option.some.inj hs
    exact storable_of_length_le (by decide)
  count := by decide
  tablespaces := by
    intro t ht
    obtain rfl := List.mem_singleton.1 ht
    exact ⟨storable_of_length_le (by decide), storable_of_length_le (by decide)⟩
  error := by
    intro s hs
    obtain rfl := Option.some.inj hs
    exact storable_of_length_le (by decide)

/-- The host after the record was stored. -/
def stored : Host := Effect.after (saveRecord server record) host

end LeapSecond

open LeapSecond in
/-- The record is read back with a byte behind it, without its last byte it is not, and it is loaded from
    the file that it was stored in. -/
theorem leap_second_record_read_back :
    record.Fits ∧ Record.decode (record.encode ++ [7]) = .ok record ∧
      Record.decode record.encode.dropLast = .error .truncated ∧
      loadRecord stored.files (recordPath server "b1") = .ok record := by
  obtain ⟨happend, hcut, hload, -⟩ := record_read_back_and_cut_noticed record fits
  refine ⟨fits, happend [7], hcut _ (List.dropLast_prefix _) (by decide +kernel), ?_⟩
  refine hload server host stored ?_
  obtain ⟨u, hsave⟩ := Effect.exists_of_succeeds
    (show Effect.succeeds (saveRecord server record) host = true by decide +kernel)
  exact hsave

end BackupFleet.Storage
