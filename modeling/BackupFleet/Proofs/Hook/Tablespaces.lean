import BackupFleet.Proofs.Hook.Lines
import Mathlib.Data.List.Chain

/-!
# `BackupFleet.Proofs.Hook.Tablespaces` — which locations survive being reported

A hook that reports the tablespaces of its backup writes a line for each. They are read in the order in which
they were written, with their names and ids; a location is read word by word and put together with single
blanks, so it is unchanged only if that is how its words were apart.

Main statement: `reported_tablespaces_kept_iff`.

## Contents

* `SingleBlanks`, `joinWords_words_iff` — texts that are their words with single blanks between them;
* `tablespaceLine`, `report`, `Reportable` — tablespaces as lines;
* `means_tablespaceLine`, `lines_of_report` — how these lines are read.
-/

namespace BackupFleet

open Text Catalog

namespace HookLine

/-! ## Words with single blanks between them -/

/-- Every blank is the ordinary one, and no two are next to each other. -/
structure SingleBlanks (cs : List Char) : Prop where
  ordinary : ∀ c ∈ cs, isBlank c = true → c = ' '
  apart : cs.IsChain fun c d => isBlank c = false ∨ isBlank d = false

/-- Something that can be a word. -/
def Solid (w : List Char) : Prop := w ≠ [] ∧ ∀ c ∈ w, isBlank c = false

theorem solid_iff_all {w : List Char} : Solid w ↔ w ≠ [] ∧ w.all (fun c => !isBlank c) = true := by
  unfold Solid
  simp

instance (w : List Char) : Decidable (Solid w) := decidable_of_iff _ solid_iff_all.symm

theorem solid_of_mem_words {w cs : List Char} (h : w ∈ words cs) : Solid w :=
  ⟨ne_nil_of_mem_words h, not_blank_of_mem_words h⟩

/-- The words of a text that starts with one of them. -/
theorem Solid.words_append {w : List Char} (h : Solid w) (rest : List Char) :
    words (w ++ ' ' :: rest) = w :: words rest := by
  rw [Text.words_append (by decide), words_of_forall h.1 h.2, List.singleton_append]

/-- A text of words starts with no blank. -/
theorem not_blank_of_head_joinWords {ws : List (List Char)} (h : ∀ w ∈ ws, Solid w) :
    ∀ c ∈ (joinWords ws).toList.head?, isBlank c = false := by
  intro c hc
  cases ws with
  | nil => simp [joinWords] at hc
  | cons w rest =>
    obtain ⟨⟨hne, hw⟩, -⟩ := List.forall_mem_cons.1 h
    obtain ⟨d, s, rfl⟩ := List.exists_cons_of_ne_nil hne
    have hd : (joinWords ((d :: s) :: rest)).toList.head? = some d := by
      by_cases hr : rest = []
      · rw [hr, toList_joinWords_singleton, List.head?_cons]
      · rw [toList_joinWords_cons _ hr, List.cons_append, List.head?_cons]
    obtain rfl := Option.some.inj (hd.symm.trans hc)
    exact hw d List.mem_cons_self

/-- A text without blanks has none next to each other. -/
theorem Solid.singleBlanks {w : List Char} (h : Solid w) : SingleBlanks w := by
  obtain ⟨-, hw⟩ := h
  refine ⟨fun c hc hblank => ?_, ?_⟩
  · rw [hw c hc] at hblank
    cases hblank
  · induction w with
    | nil => exact .nil
    | cons c r ih =>
      obtain ⟨hc, hr⟩ := List.forall_mem_cons.1 hw
      exact List.isChain_cons.2 ⟨fun _ _ => .inl hc, ih hr⟩

theorem SingleBlanks.of_append {a b : List Char} (h : SingleBlanks (a ++ b)) : SingleBlanks b :=
  ⟨fun c hc => h.ordinary c (List.mem_append_right a hc), (List.isChain_append.1 h.apart).2.1⟩

/-- Words that are joined have single blanks between them. -/
theorem singleBlanks_joinWords {ws : List (List Char)} (h : ∀ w ∈ ws, Solid w) :
    SingleBlanks (joinWords ws).toList := by
  induction ws with
  | nil => exact ⟨by simp [joinWords], by simp [joinWords]⟩
  | cons w rest ih =>
    obtain ⟨hw, hrest⟩ := List.forall_mem_cons.1 h
    have hone := hw.singleBlanks
    have hmore := ih hrest
    by_cases hr : rest = []
    · rw [hr, toList_joinWords_singleton]
      exact hone
    rw [toList_joinWords_cons w hr]
    constructor
    · intro c hc hblank
      rcases List.mem_append.1 hc with hc | hc
      · exact hone.ordinary c hc hblank
      · exact (List.mem_cons.1 hc).elim id fun hc => hmore.ordinary c hc hblank
    · refine List.isChain_append.2 ⟨hone.apart, List.isChain_cons.2 ⟨fun d hd => ?_, hmore.apart⟩, ?_⟩
      · exact .inr (not_blank_of_head_joinWords hrest d hd)
      · exact fun c hc _ _ => .inl (hw.2 c (List.mem_of_getLast? hc))

/-- A trimmed text is one word, or a word, a blank and another trimmed text. -/
theorem exists_first_word {cs : List Char} (hne : cs ≠ []) (htrim : trim cs = cs) (h : SingleBlanks cs) :
    Solid cs ∨ ∃ w rest, cs = w ++ ' ' :: rest ∧ Solid w ∧ rest ≠ [] ∧ trim rest = rest := by
  obtain ⟨hhead, hlast⟩ := trim_eq_self_iff.1 htrim
  have hsplit := List.takeWhile_append_dropWhile (p := fun c => !isBlank c) (l := cs)
  have hword : ∀ c ∈ cs.takeWhile fun c => !isBlank c, isBlank c = false := by
    intro c hc
    simpa using List.all_eq_true.1 List.all_takeWhile c hc
  cases hrest : cs.dropWhile fun c => !isBlank c with
  | nil =>
    rw [hrest, List.append_nil] at hsplit
    rw [hsplit] at hword
    exact .inl ⟨hne, hword⟩
  | cons c rest =>
    rw [hrest] at hsplit
    have hc : isBlank c = true := by
      have hstop := @head_dropWhile (fun c => !isBlank c) cs c (by rw [hrest]; rfl)
      simpa using hstop
    generalize (cs.takeWhile fun c => !isBlank c) = w at hsplit hword
    subst hsplit
    obtain rfl : c = ' ' := h.ordinary c (by simp) hc
    -- The text ends with no blank, so there is something after this one, and it starts with no blank.
    have hrne : rest ≠ [] := by
      rintro rfl
      exact absurd (hlast ' ' (by simp)) (by decide)
    have hwne : w ≠ [] := by
      rintro rfl
      exact absurd (hhead ' ' rfl) (by decide)
    have hnext : ∀ d, rest.head? = some d → isBlank d = false := by
      intro d hd
      have hafter := List.isChain_cons.1 (List.isChain_append.1 h.apart).2.1
      exact (hafter.1 d hd).resolve_left (by decide)
    have hend : ∀ d, rest.getLast? = some d → isBlank d = false := by
      intro d hd
      refine hlast d ?_
      rw [List.getLast?_append_cons, List.getLast?_cons, hd]
      rfl
    exact .inr ⟨w, rest, rfl, ⟨hwne, hword⟩, hrne, trim_eq_self_iff.2 ⟨hnext, hend⟩⟩

/-- **Joining the words of a text gives the text** where there are single blanks between them. -/
theorem joinWords_words {cs : List Char} (htrim : trim cs = cs) (h : SingleBlanks cs) :
    (joinWords (words cs)).toList = cs := by
  induction hn : cs.length using Nat.strong_induction_on generalizing cs with
  | _ n ih =>
    by_cases hne : cs = []
    · rw [hne]
      rfl
    rcases exists_first_word hne htrim h with hsolid | ⟨w, rest, rfl, hw, hrest, hrtrim⟩
    · rw [words_of_forall hsolid.1 hsolid.2, toList_joinWords_singleton]
    · have hshorter : rest.length < n := by
        rw [← hn]
        simp
        omega
      have hback := ih rest.length hshorter hrtrim (.of_append (a := w ++ [' ']) (by simpa using h)) rfl
      have hwords : words rest ≠ [] := by
        intro hnil
        rw [hnil] at hback
        exact hrest hback.symm
      rw [hw.words_append, toList_joinWords_cons w hwords, hback]

/-- **A text is its joined words iff there are single blanks between them.** -/
theorem joinWords_words_iff {cs : List Char} (htrim : trim cs = cs) :
    (joinWords (words cs)).toList = cs ↔ SingleBlanks cs := by
  refine ⟨fun h => ?_, joinWords_words htrim⟩
  rw [← h]
  exact singleBlanks_joinWords fun w hw => solid_of_mem_words hw

/-! ## Tablespaces as lines -/

/-- The line that reports a tablespace. -/
def tablespaceLine (t : Tablespace) : List Char :=
  "tablespace".toList ++ ' ' :: (t.name.toList ++ ' ' :: (decimal t.oid.toNat ++ ' ' :: t.location.toList))

/-- The lines that report tablespaces, each with its line feed. -/
def report (ts : List Tablespace) : List Char := ts.flatMap fun t => tablespaceLine t ++ ['\n']

/-- A tablespace that fits into a line: its name is a word, and its location is something in one line with
    no blank at either end. -/
structure Reportable (t : Tablespace) : Prop where
  name : Solid t.name.toList
  location_ne : t.location ≠ ""
  location_line : '\n' ∉ t.location.toList
  location_trim : trim t.location.toList = t.location.toList

/-- A tablespace with the words of its location, joined. -/
def rejoined (t : Tablespace) : Tablespace := { t with location := joinWords (words t.location.toList) }

theorem solid_decimal (n : Nat) : Solid (decimal n) :=
  ⟨decimal_ne_nil n, fun _ hc => isBlank_of_isDigit (isDigit_of_mem_decimal hc)⟩

theorem isNumeral_decimal (n : Nat) : IsNumeral (decimal n) n :=
  (readUnsigned_eq_some_iff.1 (readUnsigned_decimal (Nat.lt_succ_self n))).1

namespace Reportable

variable {t : Tablespace}

theorem words_location_ne (h : Reportable t) : words t.location.toList ≠ [] := by
  obtain ⟨c, r, hc⟩ := List.exists_cons_of_ne_nil (mt String.toList_eq_nil_iff.1 h.location_ne)
  have hhead := (trim_eq_self_iff.1 h.location_trim).1 c (by rw [hc]; rfl)
  exact words_ne_nil ⟨c, by rw [hc]; exact List.mem_cons_self, hhead⟩

theorem words_tablespaceLine (h : Reportable t) :
    words (tablespaceLine t)
      = "tablespace".toList :: t.name.toList :: decimal t.oid.toNat :: words t.location.toList := by
  have hkey : Solid "tablespace".toList := by decide
  unfold tablespaceLine
  rw [hkey.words_append, h.name.words_append, (solid_decimal _).words_append]

/-- **The line of a tablespace names it**, at its location put together from words. -/
theorem means_tablespaceLine (h : Reportable t) : Means (tablespaceLine t) (.tablespace (rejoined t)) := by
  obtain ⟨first, more, hwords⟩ := List.exists_cons_of_ne_nil h.words_location_ne
  have hline := h.words_tablespaceLine
  rw [hwords] at hline
  have hmeans := Means.tablespace hline (isNumeral_decimal t.oid.toNat) t.oid.toNat_lt
  rw [String.ofList_toList, UInt32.ofNat_toNat, ← hwords] at hmeans
  exact hmeans

theorem not_mem_tablespaceLine (h : Reportable t) : '\n' ∉ tablespaceLine t := by
  have hsolid : ∀ w, Solid w → '\n' ∉ w := fun w hw hmem => absurd (hw.2 '\n' hmem) (by decide)
  have hname := hsolid _ h.name
  have hoid := hsolid _ (solid_decimal t.oid.toNat)
  unfold tablespaceLine
  simp [hname, hoid, h.location_line]

end Reportable

/-- A report has a line for each tablespace. -/
theorem lines_report {ts : List Tablespace} (h : ∀ t ∈ ts, Reportable t) :
    lines (report ts) = ts.map tablespaceLine := by
  unfold report
  induction ts with
  | nil => rfl
  | cons t rest ih =>
    obtain ⟨ht, hrest⟩ := List.forall_mem_cons.1 h
    have hend : EndsLine (tablespaceLine t ++ ['\n']) := .inr (by simp)
    rw [List.flatMap_cons, lines_append hend, lines_line ht.not_mem_tablespaceLine, ih hrest]
    rfl

/-- The line of a tablespace ends with no blank. -/
theorem getLast?_tablespaceLine {t : Tablespace} (h : Reportable t) :
    ∃ c, (tablespaceLine t).getLast? = some c ∧ isBlank c = false := by
  have hne := mt String.toList_eq_nil_iff.1 h.location_ne
  obtain ⟨c, hc⟩ := Option.ne_none_iff_exists'.1 (mt List.getLast?_eq_none_iff.1 hne)
  refine ⟨c, ?_, (trim_eq_self_iff.1 h.location_trim).2 c hc⟩
  unfold tablespaceLine
  simp [List.getLast?_append, List.getLast?_cons, hc]

/-- It has the same lines without its last line feed. -/
theorem lines_of_append_eq_report {ts : List Tablespace} (h : ∀ t ∈ ts, Reportable t) {out : List Char}
    (hout : out ++ ['\n'] = report ts) : lines out = ts.map tablespaceLine := by
  rw [← lines_report h, ← hout]
  refine (lines_append_lineFeed ?_).symm
  rcases List.eq_nil_or_concat ts with rfl | ⟨init, t, rfl⟩
  · simp [report] at hout
  rw [List.concat_eq_append] at h hout
  have ht : Reportable t := h t (by simp)
  have hlast : out = report init ++ tablespaceLine t := by
    unfold report at hout ⊢
    rw [List.flatMap_append, List.flatMap_singleton, ← List.append_assoc] at hout
    exact List.append_cancel_right hout
  obtain ⟨c, hc, hblank⟩ := getLast?_tablespaceLine ht
  have hend : out.getLast? = some c := by
    rw [hlast, List.getLast?_append, hc]
    rfl
  rintro (hnil | hfeed)
  · rw [hnil] at hend
    cases hend
  · rw [hend] at hfeed
    obtain rfl := Option.some.inj hfeed
    exact absurd hblank (by decide)

theorem foldl_addLine_tablespaces {ts : List Tablespace} (h : ∀ t ∈ ts, Reportable t) (r : Record) :
    (ts.map tablespaceLine).foldl addLine r
      = { r with tablespaces := r.tablespaces ++ ts.map rejoined } := by
  induction ts generalizing r with
  | nil =>
    rw [List.map_nil, List.map_nil, List.append_nil]
    rfl
  | cons t rest ih =>
    obtain ⟨ht, hrest⟩ := List.forall_mem_cons.1 h
    have hone : addLine r (tablespaceLine t) = { r with tablespaces := r.tablespaces ++ [rejoined t] } :=
      addLine_of_means ht.means_tablespaceLine r
    have hassoc : r.tablespaces ++ rejoined t :: rest.map rejoined
        = r.tablespaces ++ [rejoined t] ++ rest.map rejoined := List.append_cons _ _ _
    rw [List.map_cons, List.foldl_cons, ih hrest, hone, List.map_cons, hassoc]

theorem rejoined_eq_self_iff {t : Tablespace} (h : Reportable t) :
    rejoined t = t ↔ SingleBlanks t.location.toList := by
  rw [← joinWords_words_iff h.location_trim]
  constructor
  · intro he
    have hlocation : joinWords (words t.location.toList) = t.location := congrArg Tablespace.location he
    rw [hlocation]
  · intro he
    rw [rejoined, String.toList_inj.1 he]

end HookLine

open HookLine

/-- **Reported tablespaces are kept in order, and as they are iff their locations have single blanks only.** -/
theorem reported_tablespaces_kept_iff {ts : List Tablespace} (h : ∀ t ∈ ts, Reportable t) {out : List Char}
    (hout : out = report ts ∨ out ++ ['\n'] = report ts) (r : Record) :
    readHookOutput out r = { r with tablespaces := r.tablespaces ++ ts.map rejoined } ∧
    (readHookOutput out r = { r with tablespaces := r.tablespaces ++ ts } ↔
      ∀ t ∈ ts, SingleBlanks t.location.toList) := by
  have hlines : lines out = ts.map tablespaceLine := by
    rcases hout with rfl | hout
    · exact lines_report h
    · exact lines_of_append_eq_report h hout
  have hread : readHookOutput out r = { r with tablespaces := r.tablespaces ++ ts.map rejoined } := by
    rw [readHookOutput_eq_foldl, hlines, foldl_addLine_tablespaces h]
  have hsame : ts.map rejoined = ts.map id ↔ ∀ t ∈ ts, rejoined t = id t := List.map_inj_left
  rw [List.map_id] at hsame
  refine ⟨hread, ?_⟩
  rw [hread]
  constructor
  · intro he t ht
    have htablespaces := List.append_cancel_left (congrArg Record.tablespaces he)
    exact (rejoined_eq_self_iff (h t ht)).1 (hsame.1 htablespaces t ht)
  · intro hsingle
    rw [hsame.2 fun t ht => (rejoined_eq_self_iff (h t ht)).2 (hsingle t ht)]

namespace TwoBlanks

/-- A tablespace below a directory whose name has two blanks in a row. -/
def spaced : Tablespace := ⟨"tbs1", 16385, "/mnt/a  b"⟩

theorem reportable : Reportable spaced where
  name := by decide
  location_ne := by decide
  location_line := by decide
  location_trim := by decide

end TwoBlanks

open TwoBlanks in
/-- The tablespace is reported as it is, and recorded at another directory. -/
theorem location_with_two_blanks_changed :
    Reportable spaced ∧
    readHookOutput (report [spaced]) (.new "main" "b1" .epoch)
      = { Record.new "main" "b1" .epoch with tablespaces := [⟨"tbs1", 16385, "/mnt/a b"⟩] } ∧
    readHookOutput (report [spaced]) (.new "main" "b1" .epoch)
      ≠ { Record.new "main" "b1" .epoch with tablespaces := [spaced] } := by
  have hone : ∀ t ∈ [spaced], Reportable t := fun t ht => List.mem_singleton.1 ht ▸ reportable
  obtain ⟨hread, hkept⟩ := reported_tablespaces_kept_iff hone (.inl rfl) (.new "main" "b1" .epoch)
  refine ⟨reportable, hread.trans ?_, fun hsame => ?_⟩
  · have hrejoined : rejoined spaced = ⟨"tbs1", 16385, "/mnt/a b"⟩ := by decide
    rw [List.map_singleton, hrejoined]
    rfl
  · have hapart := (hkept.1 hsame spaced List.mem_cons_self).apart
    exact absurd hapart (by decide)

end BackupFleet
