import BackupFleet.Hook.Output
import BackupFleet.Proofs.Text.Numeral
import BackupFleet.Proofs.Text.Pieces

/-!
# `BackupFleet.Proofs.Hook.Lines` — hook output line by line

Whatever a hook writes, each of its lines either means one of three things or nothing at all. So the record
of its backup is told by the lines that mean something: the last word on each end of the WAL range, and a
tablespace for every line that names one, in the order of the lines.

Main statement: `hook_output_read_by_meaning`.

## Contents

* `Means`, `read_eq_some_iff`, `Means.unique` — what a line means;
* `Says`, `LastSays`, `Tells` — one end of the WAL range, and the tablespaces;
* `addLine`, `Reads`, `Reads.cons`, `reads_foldl` — a line more, and all lines;
* `readHookOutput_congr`, `readHookOutput_insert` — lines without a meaning.
-/

namespace BackupFleet

open Text Catalog

namespace HookLine

/-! ## What a line means -/

/-- The meaning of a line, told by its words. -/
inductive Means (line : List Char) : HookLine → Prop where
  | beginWal {wal : List Char} {rest : List (List Char)}
      (h : words line = "begin_wal".toList :: wal :: rest) : Means line (.beginWal (String.ofList wal))
  | endWal {wal : List Char} {rest : List (List Char)}
      (h : words line = "end_wal".toList :: wal :: rest) : Means line (.endWal (String.ofList wal))
  | tablespace {name oid first : List Char} {more : List (List Char)} {n : Nat}
      (h : words line = "tablespace".toList :: name :: oid :: first :: more) (hoid : IsNumeral oid n)
      (hbound : n < bound32) :
      Means line (.tablespace ⟨String.ofList name, UInt32.ofNat n, joinWords (first :: more)⟩)

theorem means_of_read {line : List Char} {l : HookLine} (h : read line = some l) : Means line l := by
  unfold read at h
  generalize hwords : words line = ws at h
  unfold ofWords at h
  split at h
  · split at h
    · rename_i key value r hkey
      obtain rfl := Option.some.inj h
      exact .beginWal (hkey ▸ hwords)
    split at h
    · rename_i key value r _ hkey
      obtain rfl := Option.some.inj h
      exact .endWal (hkey ▸ hwords)
    split at h
    · rename_i key value r _ _ hkey
      split at h
      · rename_i oid first more
        obtain ⟨n, hn, rfl⟩ := Option.map_eq_some_iff.1 h
        obtain ⟨hoid, hbound⟩ := readUnsigned_eq_some_iff.1 hn
        exact .tablespace (hkey ▸ hwords) hoid hbound
      · cases h
    · cases h
  · cases h

theorem Means.read {line : List Char} {l : HookLine} (h : Means line l) : read line = some l := by
  unfold HookLine.read ofWords
  cases h with
  | beginWal h =>
    rw [h]
    exact if_pos rfl
  | endWal h =>
    rw [h]
    exact (if_neg (by decide)).trans (if_pos rfl)
  | @tablespace _ oid _ _ n h hoid hbound =>
    have hread : readUnsigned bound32 oid = some n := readUnsigned_eq_some_iff.2 ⟨hoid, hbound⟩
    rw [h]
    refine (if_neg (by decide)).trans ((if_neg (by decide)).trans ((if_pos rfl).trans ?_))
    simp only [hread, Option.map_some]

/-- **A line is read as what it means.** -/
theorem read_eq_some_iff {line : List Char} {l : HookLine} : read line = some l ↔ Means line l :=
  ⟨means_of_read, Means.read⟩

theorem Means.unique {line : List Char} {a b : HookLine} (ha : Means line a) (hb : Means line b) : a = b := by
  have h := ha.read
  rw [hb.read] at h
  exact (Option.some.inj h).symm

/-- A line of one of the three forms. -/
def Understood (line : List Char) : Prop := ∃ l, Means line l

theorem understood_iff {line : List Char} : Understood line ↔ (read line).isSome := by
  rw [Option.isSome_iff_exists]
  exact exists_congr fun l => read_eq_some_iff.symm

instance (line : List Char) : Decidable (Understood line) := decidable_of_iff _ understood_iff.symm

/-! ## What lines say of a record -/

/-- What a line of some form says, where it is of that form; else what was said before. -/
def Says (form : String → HookLine) (line : List Char) (old new : Option String) : Prop :=
  (∃ wal, Means line (form wal) ∧ new = some wal) ∨ (∀ wal, ¬Means line (form wal)) ∧ new = old

/-- What the last line of some form says; what was said before, if there is no such line. -/
def LastSays (form : String → HookLine) (ls : List (List Char)) (old new : Option String) : Prop :=
  (∃ before line after wal, ls = before ++ line :: after ∧ Means line (form wal) ∧
    (∀ later ∈ after, ∀ other, ¬Means later (form other)) ∧ new = some wal) ∨
  (∀ line ∈ ls, ∀ wal, ¬Means line (form wal)) ∧ new = old

theorem LastSays.cons {form : String → HookLine} {line : List Char} {ls : List (List Char)}
    {old mid new : Option String} (hline : Says form line old mid) (h : LastSays form ls mid new) :
    LastSays form (line :: ls) old new := by
  rcases h with ⟨before, last, after, wal, rfl, hmeans, hafter, hnew⟩ | ⟨hnone, hnew⟩
  · exact .inl ⟨line :: before, last, after, wal, rfl, hmeans, hafter, hnew⟩
  · rcases hline with ⟨wal, hmeans, hmid⟩ | ⟨hnot, hmid⟩
    · exact .inl ⟨[], line, ls, wal, rfl, hmeans, hnone, hnew.trans hmid⟩
    · exact .inr ⟨List.forall_mem_cons.2 ⟨hnot, hnone⟩, hnew.trans hmid⟩

/-- The tablespaces of lines: one for each line that names one, in the order of the lines. -/
inductive Tells : List (List Char) → List Tablespace → Prop where
  | nil : Tells [] []
  | entry {line : List Char} {t : Tablespace} {ls : List (List Char)} {ts : List Tablespace}
      (h : Means line (.tablespace t)) (rest : Tells ls ts) : Tells (line :: ls) (t :: ts)
  | other {line : List Char} {ls : List (List Char)} {ts : List Tablespace}
      (h : ∀ t, ¬Means line (.tablespace t)) (rest : Tells ls ts) : Tells (line :: ls) ts

/-! ## One line more -/

/-- A record with what a line says. -/
def addLine (r : Record) (line : List Char) : Record := ((read line).map (apply r)).getD r

theorem addLine_of_means {line : List Char} {l : HookLine} (h : Means line l) (r : Record) :
    addLine r line = apply r l := by
  rw [addLine, h.read]
  rfl

theorem addLine_of_not_understood {line : List Char} (h : ¬Understood line) (r : Record) :
    addLine r line = r := by
  rw [understood_iff, Option.not_isSome_iff_eq_none] at h
  rw [addLine, h]
  rfl

/-- The record `r'` is `r` with what the lines say. -/
structure Reads (ls : List (List Char)) (r r' : Record) : Prop where
  beginWal : LastSays .beginWal ls r.beginWal r'.beginWal
  endWal : LastSays .endWal ls r.endWal r'.endWal
  tablespaces : ∃ added, r'.tablespaces = r.tablespaces ++ added ∧ Tells ls added
  rest : r' = { r with beginWal := r'.beginWal, endWal := r'.endWal, tablespaces := r'.tablespaces }

theorem Means.not_other {line : List Char} {l other : HookLine} (h : Means line l) (hne : other ≠ l) :
    ¬Means line other := by
  intro hother
  exact hne (hother.unique h)

/-- A line says nothing of a form that it does not have. -/
theorem Means.says_nothing {line : List Char} {l : HookLine} (h : Means line l) {form : String → HookLine}
    (hform : ∀ wal, form wal ≠ l) (old : Option String) : Says form line old old := by
  refine .inr ⟨fun wal => ?_, rfl⟩
  apply h.not_other
  exact hform wal

/-- **One line more.** -/
theorem Reads.cons {line : List Char} {ls : List (List Char)} {r r' : Record}
    (h : Reads ls (addLine r line) r') : Reads (line :: ls) r r' := by
  obtain ⟨hbegin, hend, ⟨added, hadded, htells⟩, hrest⟩ := h
  by_cases hline : Understood line
  · obtain ⟨l, hl⟩ := hline
    rw [addLine_of_means hl] at hbegin hend hadded hrest
    cases l with
    | beginWal wal =>
      have hother : Tells (line :: ls) added := .other (fun t => hl.not_other (by simp)) htells
      exact ⟨hbegin.cons (.inl ⟨wal, hl, rfl⟩), hend.cons (hl.says_nothing (by simp) _),
        ⟨added, hadded, hother⟩, hrest⟩
    | endWal wal =>
      have hother : Tells (line :: ls) added := .other (fun t => hl.not_other (by simp)) htells
      exact ⟨hbegin.cons (hl.says_nothing (by simp) _), hend.cons (.inl ⟨wal, hl, rfl⟩),
        ⟨added, hadded, hother⟩, hrest⟩
    | tablespace t =>
      have happend : r'.tablespaces = r.tablespaces ++ t :: added := by
        rw [hadded]
        exact List.append_assoc _ _ _
      exact ⟨hbegin.cons (hl.says_nothing (by simp) _), hend.cons (hl.says_nothing (by simp) _),
        ⟨t :: added, happend, .entry hl htells⟩, hrest⟩
  · rw [addLine_of_not_understood hline] at hbegin hend hadded hrest
    have hnot : ∀ l, ¬Means line l := fun l hl => hline ⟨l, hl⟩
    exact ⟨hbegin.cons (.inr ⟨fun _ => hnot _, rfl⟩), hend.cons (.inr ⟨fun _ => hnot _, rfl⟩),
      ⟨added, hadded, .other (fun _ => hnot _) htells⟩, hrest⟩

/-- **All lines**, one after the other. -/
theorem reads_foldl (ls : List (List Char)) (r : Record) : Reads ls r (ls.foldl addLine r) := by
  induction ls generalizing r with
  | nil =>
    have hnone : ∀ (form : String → HookLine), ∀ line ∈ [], ∀ wal, ¬Means line (form wal) :=
      fun _ _ hnil => absurd hnil List.not_mem_nil
    exact ⟨.inr ⟨hnone _, rfl⟩, .inr ⟨hnone _, rfl⟩, ⟨[], (List.append_nil _).symm, .nil⟩, rfl⟩
  | cons line rest ih => exact .cons (ih (addLine r line))

end HookLine

/-! ## Lines without a meaning -/

open HookLine

theorem readHookOutput_eq_foldl (out : List Char) (r : Record) :
    readHookOutput out r = (lines out).foldl addLine r := by
  unfold readHookOutput
  induction lines out generalizing r with
  | nil => rfl
  | cons line rest ih =>
    rw [List.foldl_cons, ← ih, List.filterMap_cons, addLine]
    cases HookLine.read line with
    | none => rfl
    | some l => rfl

/-- What is not understood can be left out. -/
theorem foldl_addLine_filter (ls : List (List Char)) (r : Record) :
    (ls.filter fun line => Understood line).foldl addLine r = ls.foldl addLine r := by
  induction ls generalizing r with
  | nil => rfl
  | cons line rest ih =>
    by_cases h : Understood line
    · rw [List.filter_cons_of_pos (by simpa using h), List.foldl_cons, List.foldl_cons, ih]
    · rw [List.filter_cons_of_neg (by simpa using h), ih, List.foldl_cons, addLine_of_not_understood h]

/-- **Outputs with the same meaningful lines are the same for a record.** -/
theorem readHookOutput_congr {out out' : List Char}
    (h : ((lines out).filter fun line => Understood line) = (lines out').filter fun line => Understood line)
    (r : Record) : readHookOutput out r = readHookOutput out' r := by
  rw [readHookOutput_eq_foldl, readHookOutput_eq_foldl, ← foldl_addLine_filter, h, foldl_addLine_filter]

/-- The lines of a text that has one line more. -/
theorem lines_insert {before line : List Char} (hbefore : EndsLine before) (hline : '\n' ∉ line)
    (after : List Char) :
    lines (before ++ (line ++ ['\n']) ++ after) = lines before ++ line :: lines after := by
  have hend : EndsLine (line ++ ['\n']) := .inr (by simp)
  rw [List.append_assoc, lines_append hbefore, lines_append hend, lines_line hline]
  rfl

/-- **A line without a meaning changes nothing**, wherever it is put. -/
theorem readHookOutput_insert {before line : List Char} (hbefore : EndsLine before) (hline : '\n' ∉ line)
    (hnot : ¬Understood line) (after : List Char) (r : Record) :
    readHookOutput (before ++ (line ++ ['\n']) ++ after) r = readHookOutput (before ++ after) r := by
  refine readHookOutput_congr ?_ r
  rw [lines_insert hbefore hline, lines_append hbefore, List.filter_append, List.filter_append,
    List.filter_cons_of_neg (by simpa using hnot)]

/-- **Hook output is read by what its lines mean.**

    The ends of the WAL range are what the last lines on them say, if there are such lines; the tablespaces
    are those of the record and then one for each line that names one, in order; nothing else changes. So
    it only matters which lines with a meaning there are, and in which order: lines without one can be put
    in and taken out anywhere. -/
theorem hook_output_read_by_meaning (out : List Char) (r : Record) :
    (∃ beginWal endWal added,
      readHookOutput out r = { r with beginWal, endWal, tablespaces := r.tablespaces ++ added } ∧
      LastSays .beginWal (lines out) r.beginWal beginWal ∧
      LastSays .endWal (lines out) r.endWal endWal ∧ Tells (lines out) added) ∧
    (∀ other, ((lines out).filter fun line => Understood line)
        = ((lines other).filter fun line => Understood line) →
      readHookOutput other r = readHookOutput out r) ∧
    ∀ before line after, out = before ++ after → EndsLine before → '\n' ∉ line → ¬Understood line →
      readHookOutput (before ++ (line ++ ['\n']) ++ after) r = readHookOutput out r := by
  refine ⟨?_, fun other h => (readHookOutput_congr h r).symm, ?_⟩
  · have hreads := reads_foldl (lines out) r
    rw [← readHookOutput_eq_foldl] at hreads
    obtain ⟨hbegin, hend, ⟨added, hadded, htells⟩, hrest⟩ := hreads
    rw [hadded] at hrest
    exact ⟨_, _, added, hrest, hbegin, hend, htells⟩
  · rintro before line after rfl hbefore hline hnot
    exact readHookOutput_insert hbefore hline hnot after r

namespace NoisyOutput

def before : List Char := "begin_wal A\n".toList

/-- An object id of more than 32 bits. -/
def line : List Char := "tablespace t 4294967296 /x".toList

def after : List Char := "tablespace\tu +07  /y\r\n".toList

def record : Record := .new "main" "b1" .epoch

end NoisyOutput

open NoisyOutput in
/-- The line with the long id can be put between the others, and any text after them. -/
theorem noise_around_meaningful_lines :
    EndsLine before ∧ '\n' ∉ line ∧ ¬Understood line ∧
    readHookOutput (before ++ (line ++ ['\n']) ++ after) record
      = { record with beginWal := some "A", tablespaces := [⟨"u", 7, "/y"⟩] } ∧
    readHookOutput (before ++ after ++ "begin_wal".toList) record
      = { record with beginWal := some "A", tablespaces := [⟨"u", 7, "/y"⟩] } := by
  obtain ⟨-, hsame, hinsert⟩ := hook_output_read_by_meaning (before ++ after) record
  have hend : EndsLine before := .inr (by decide)
  have hline : '\n' ∉ line := by decide
  have hnot : ¬Understood line := by decide
  have hread : readHookOutput (before ++ after) record
      = { record with beginWal := some "A", tablespaces := [⟨"u", 7, "/y"⟩] } := by decide
  refine ⟨hend, hline, hnot, ?_, ?_⟩
  · exact (hinsert before line after rfl hend hline hnot).trans hread
  · exact (hsame _ (by decide)).trans hread

end BackupFleet
