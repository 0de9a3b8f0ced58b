import BackupFleet.Proofs.Catalog.Codec
import BackupFleet.Proofs.Hook.Lines

/-!
# `BackupFleet.Proofs.Hook.Output` — what hook output does to a record

Whatever a hook writes, it only adds WAL files and tablespaces to the record of its backup, and they are no
longer and no more than what it wrote. So the record can be stored if the output is not beyond all bounds.

## Contents

* `total_words_le`, `length_joinWords_le` — the words of a line;
* `readHookOutput_keeps` — what is left alone;
* `fits_readHookOutput` — what is added can be stored.
-/

namespace BackupFleet

open Text Catalog Catalog.Codec

/-! ## Words and their lengths -/

/-- The lengths of all pieces, with one for what separates a piece from the next one. -/
def total (pieces : List (List Char)) : Nat := (pieces.map (·.length + 1)).sum

@[simp] theorem total_nil : total [] = 0 := rfl

@[simp] theorem total_cons (piece : List Char) (r : List (List Char)) :
    total (piece :: r) = piece.length + 1 + total r := by
  simp [total]

/-- Fewer pieces are no longer. -/
theorem total_le_of_sublist {a b : List (List Char)} (h : a.Sublist b) : total a ≤ total b := by
  induction h with
  | slnil => exact Nat.le_refl _
  | cons piece h ih =>
    rw [total_cons]
    omega
  | cons_cons piece h ih =>
    rw [total_cons, total_cons]
    omega

theorem length_le_total {piece : List Char} {l : List (List Char)} (h : piece ∈ l) :
    piece.length < total l := by
  have hle := total_le_of_sublist (List.singleton_sublist.2 h)
  rw [total_cons] at hle
  simp only [total_nil] at hle
  omega

/-- The pieces of a text have the characters that separate nothing. -/
theorem total_splitWhen (q : Char → Bool) (cs : List Char) : total (splitWhen q cs) = cs.length + 1 := by
  induction cs with
  | nil => rfl
  | cons c r ih =>
    rw [splitWhen]
    split
    · rw [total_cons, ih, List.length_nil, List.length_cons]
      omega
    · cases hr : splitWhen q r with
      | nil => exact absurd hr (splitWhen_ne_nil q r)
      | cons piece rest =>
        rw [hr, total_cons] at ih
        rw [total_cons, List.length_cons, List.length_cons]
        omega

theorem total_words_le (cs : List Char) : total (words cs) ≤ cs.length + 1 := by
  rw [← total_splitWhen isBlank cs]
  exact total_le_of_sublist List.filter_sublist

/-- Joining words makes nothing longer than what they were taken from. -/
theorem length_joinWords_le (ws : List (List Char)) :
    (HookLine.joinWords ws).toList.length ≤ total ws := by
  induction ws with
  | nil => exact Nat.le_refl _
  | cons word r ih =>
    by_cases hr : r = []
    · subst hr
      rw [HookLine.toList_joinWords_singleton, total_cons]
      omega
    · rw [HookLine.toList_joinWords_cons word hr, List.length_append, List.length_cons, total_cons]
      omega

/-! ## Lines and their lengths -/

theorem length_of_mem_lines {cs line : List Char} (h : line ∈ lines cs) : line.length ≤ cs.length := by
  induction cs generalizing line with
  | nil => cases h
  | cons c r ih =>
    rw [lines] at h
    rw [List.length_cons]
    split at h
    · rcases List.mem_cons.1 h with rfl | h
      · exact Nat.zero_le _
      · exact Nat.le_succ_of_le (ih h)
    · cases hl : lines r with
      | nil =>
        rw [hl] at h
        obtain rfl := List.mem_singleton.1 h
        simp
      | cons first rest =>
        rw [hl] at h ih
        rcases List.mem_cons.1 h with rfl | h
        · exact Nat.succ_le_succ (ih List.mem_cons_self)
        · exact Nat.le_succ_of_le (ih (List.mem_cons_of_mem _ h))

theorem length_lines_le (cs : List Char) : (lines cs).length ≤ cs.length := by
  induction cs with
  | nil => exact Nat.le_refl _
  | cons c r ih =>
    rw [lines]
    split
    · exact Nat.succ_le_succ ih
    · cases hl : lines r with
      | nil => simp
      | cons first rest =>
        rw [hl] at ih
        exact Nat.le_succ_of_le ih

namespace HookLine

/-- The texts of a line can be stored. -/
def Fits : HookLine → Prop
  | beginWal wal => Storable wal
  | endWal wal => Storable wal
  | tablespace t => t.Fits

/-- **What a line says can be stored** if the line is not beyond all bounds. -/
theorem fits_of_read {line : List Char} (hline : line.length < textLimit) {l : HookLine}
    (h : read line = some l) : l.Fits := by
  have htotal := total_words_le line
  have hword : ∀ w ∈ words line, Storable (String.ofList w) := by
    intro w hw
    have hlt := length_le_total hw
    refine storable_of_length_le ?_
    rw [String.toList_ofList]
    omega
  cases means_of_read h with
  | beginWal hwords => exact hword _ (by simp [hwords])
  | endWal hwords => exact hword _ (by simp [hwords])
  | tablespace hwords =>
    refine ⟨hword _ (by simp [hwords]), ?_⟩
    refine storable_of_length_le (Nat.le_trans (length_joinWords_le _) ?_)
    rw [hwords] at htotal
    simp only [total_cons] at htotal ⊢
    omega

end HookLine

/-! ## Output -/

/-- A hook does not change what the record says of the backup itself. -/
structure SameBackup (r r' : Record) : Prop where
  id : r'.id = r.id
  server : r'.server = r.server
  beginTime : r'.beginTime = r.beginTime
  error : r'.error = r.error

/-- **Hook output leaves id, server, time and error of a record alone.** -/
theorem readHookOutput_keeps (out : List Char) (r : Record) : SameBackup r (readHookOutput out r) := by
  have hrest := (HookLine.reads_foldl (lines out) r).rest
  rw [← readHookOutput_eq_foldl] at hrest
  rw [hrest]
  exact ⟨rfl, rfl, rfl, rfl⟩

/-- What is added line by line can be stored if the lines can and if there are not too many of them. -/
theorem fits_foldl_apply {ls : List HookLine} (hls : ∀ l ∈ ls, l.Fits) {r : Record} (hr : r.Fits)
    (hcount : r.tablespaces.length + ls.length < 256 ^ 8) : (ls.foldl HookLine.apply r).Fits := by
  induction ls generalizing r with
  | nil => exact hr
  | cons l rest ih =>
    obtain ⟨hl, hrest⟩ := List.forall_mem_cons.1 hls
    rw [List.length_cons] at hcount
    rw [List.foldl_cons]
    cases l with
    | beginWal wal =>
      refine ih hrest { hr with beginWal := fun s hs => ?_ } (by show r.tablespaces.length + _ < _; omega)
      obtain rfl := Option.some.inj hs
      exact hl
    | endWal wal =>
      refine ih hrest { hr with endWal := fun s hs => ?_ } (by show r.tablespaces.length + _ < _; omega)
      obtain rfl := Option.some.inj hs
      exact hl
    | tablespace t =>
      have hlength : (r.tablespaces ++ [t]).length = r.tablespaces.length + 1 := by simp
      refine ih hrest { hr with count := ?_, tablespaces := fun u hu => ?_ } ?_
      · show (r.tablespaces ++ [t]).length < _
        omega
      · rcases List.mem_append.1 hu with hu | hu
        · exact hr.tablespaces u hu
        · rw [List.mem_singleton.1 hu]
          exact hl
      · show (r.tablespaces ++ [t]).length + _ < _
        omega

/-- **The record of a backup can be stored with all that its hook wrote.** -/
theorem fits_readHookOutput {out : List Char} (hout : out.length < textLimit) {r : Record} (hr : r.Fits)
    (hnone : r.tablespaces = []) : (readHookOutput out r).Fits := by
  unfold readHookOutput
  refine fits_foldl_apply (fun l hl => ?_) hr ?_
  · obtain ⟨line, hline, hread⟩ := List.mem_filterMap.1 hl
    exact HookLine.fits_of_read (Nat.lt_of_le_of_lt (length_of_mem_lines hline) hout) hread
  · have hle := List.length_filterMap_le HookLine.read (lines out)
    have hlines := length_lines_le out
    rw [hnone]
    unfold textLimit at hout
    simp only [List.length_nil]
    omega

end BackupFleet
