import BackupFleet.Text.Blank

/-!
# `BackupFleet.Proofs.Text.Pieces` — pieces, lines and trimmed texts

## Contents

* `splitWhen_append`, `splitWhen_of_forall` — the pieces of a longer text, and of one without a separator;
* `splitWhen_intercalate`, `prefix_of_splitWhen` — the pieces of joined texts, and the first piece;
* `of_mem_splitWhen`, `forall_of_splitWhen` — what the pieces say about the characters;
* `EndsLine`, `lines_append`, `lines_line` — the lines of a longer text;
* `words_append`, `words_of_forall`, `words_ne_nil`, `not_blank_of_mem_words` — the words of a text;
* `dropWhile_of_head`, `head_dropWhile`, `dropWhile_eq_nil_iff_forall` — what is dropped from the front;
* `trim_eq_self_iff`, `trim_trim`, `trim_ne_nil`, `trim_eq_nil_iff` — what trimming leaves;
* `trim_blanks_around`, `exists_blanks_around` — what it takes away;
* `trimEnd_append`, `head?_trimEnd`, `trimStart_trimEnd` — trimming at the end only.
-/

namespace BackupFleet.Text

/-! ## Pieces -/

variable {q : Char → Bool}

/-- The pieces on both sides of a separator. -/
theorem splitWhen_append {c : Char} (hc : q c = true) (a b : List Char) :
    splitWhen q (a ++ c :: b) = splitWhen q a ++ splitWhen q b := by
  induction a with
  | nil => simp [splitWhen, hc]
  | cons d r ih =>
    rw [List.cons_append, splitWhen, splitWhen]
    by_cases hd : q d = true
    · simp [hd, ih]
    · rw [if_neg hd, if_neg hd, ih]
      cases hr : splitWhen q r with
      | nil => exact absurd hr (splitWhen_ne_nil q r)
      | cons piece rest => rfl

theorem splitWhen_of_forall {a : List Char} (h : ∀ c ∈ a, q c = false) : splitWhen q a = [a] := by
  induction a with
  | nil => rfl
  | cons d r ih =>
    obtain ⟨hd, hr⟩ := List.forall_mem_cons.1 h
    rw [splitWhen, if_neg (by simp [hd]), ih hr]

/-- Texts that are joined with a separator have all their pieces, one text after the other. -/
theorem splitWhen_intercalate {c : Char} (hc : q c = true) {texts : List (List Char)}
    (h : texts ≠ []) : splitWhen q ([c].intercalate texts) = texts.flatMap (splitWhen q) := by
  induction texts with
  | nil => exact absurd rfl h
  | cons a r ih =>
    cases r with
    | nil => simp
    | cons b r =>
      rw [List.intercalate_cons_cons, List.append_assoc, List.singleton_append,
        splitWhen_append hc, ih (List.cons_ne_nil b r)]
      rfl

/-- The first piece is what the text starts with. -/
theorem prefix_of_splitWhen {cs first : List Char} {rest : List (List Char)}
    (h : splitWhen q cs = first :: rest) : first <+: cs := by
  induction cs generalizing first rest with
  | nil =>
    obtain ⟨rfl, -⟩ := List.cons.inj h
    exact List.nil_prefix
  | cons d r ih =>
    rw [splitWhen] at h
    split at h
    · obtain ⟨rfl, -⟩ := List.cons.inj h
      exact List.nil_prefix
    · split at h
      · rename_i hr
        exact absurd hr (splitWhen_ne_nil q r)
      · rename_i piece pieces hr
        obtain ⟨rfl, -⟩ := List.cons.inj h
        exact (List.prefix_cons_inj d).2 (ih hr)

/-- A piece has characters of the text, and no separator. -/
theorem of_mem_splitWhen {cs piece : List Char} (h : piece ∈ splitWhen q cs) :
    ∀ c ∈ piece, q c = false ∧ c ∈ cs := by
  induction cs generalizing piece with
  | nil =>
    rw [splitWhen, List.mem_singleton] at h
    simp [h]
  | cons d r ih =>
    rw [splitWhen] at h
    by_cases hd : q d = true
    · rw [if_pos hd] at h
      rcases List.mem_cons.1 h with rfl | h
      · simp
      · exact fun c hc => ⟨(ih h c hc).1, List.mem_cons_of_mem _ (ih h c hc).2⟩
    · rw [if_neg hd] at h
      cases hr : splitWhen q r with
      | nil => exact absurd hr (splitWhen_ne_nil q r)
      | cons first rest =>
        rw [hr] at h ih
        intro c hc
        rcases List.mem_cons.1 h with rfl | h
        · rcases List.mem_cons.1 hc with rfl | hc
          · exact ⟨by simpa using hd, List.mem_cons_self⟩
          · have := ih List.mem_cons_self c hc
            exact ⟨this.1, List.mem_cons_of_mem _ this.2⟩
        · have := ih (List.mem_cons_of_mem _ h) c hc
          exact ⟨this.1, List.mem_cons_of_mem _ this.2⟩

/-- Where all pieces are empty, there are only separators. -/
theorem forall_of_splitWhen {cs : List Char} (h : ∀ piece ∈ splitWhen q cs, piece = []) :
    ∀ c ∈ cs, q c = true := by
  induction cs with
  | nil => simp
  | cons d r ih =>
    rw [splitWhen] at h
    by_cases hd : q d = true
    · rw [if_pos hd] at h
      exact List.forall_mem_cons.2 ⟨hd, ih fun piece hp => h piece (List.mem_cons_of_mem _ hp)⟩
    · rw [if_neg hd] at h
      cases hr : splitWhen q r with
      | nil => exact absurd hr (splitWhen_ne_nil q r)
      | cons first rest =>
        rw [hr] at h
        exact absurd (h _ List.mem_cons_self) (List.cons_ne_nil _ _)

/-! ## Lines -/

/-- The text stops at the end of a line. -/
def EndsLine (cs : List Char) : Prop := cs = [] ∨ cs.getLast? = some '\n'

theorem lines_ne_nil {cs : List Char} (h : cs ≠ []) : lines cs ≠ [] := by
  cases cs with
  | nil => exact absurd rfl h
  | cons c r =>
    rw [lines]
    split
    · simp
    · split <;> simp

/-- Lines that are complete are not changed by the text after them. -/
theorem lines_append {a : List Char} (h : EndsLine a) (b : List Char) :
    lines (a ++ b) = lines a ++ lines b := by
  induction a with
  | nil => rfl
  | cons c r ih =>
    have hlast : (c :: r).getLast? = some '\n' := h.resolve_left (List.cons_ne_nil c r)
    rw [List.cons_append, lines, lines]
    by_cases hr : r = []
    · subst hr
      have hc : c = '\n' := by simpa using hlast
      simp [hc, lines]
    · have hr' : EndsLine r := by
        refine .inr ?_
        obtain ⟨d, s, rfl⟩ := List.exists_cons_of_ne_nil hr
        rwa [List.getLast?_cons_cons] at hlast
      rw [ih hr']
      split
      · rfl
      · cases hl : lines r with
        | nil => exact absurd hl (lines_ne_nil hr)
        | cons line rest => rfl

/-- A text without a line feed, with one after it, is one line. -/
theorem lines_line {cs : List Char} (h : '\n' ∉ cs) : lines (cs ++ ['\n']) = [cs] := by
  induction cs with
  | nil => rfl
  | cons c r ih =>
    obtain ⟨hc, hr⟩ := List.ne_and_not_mem_of_not_mem_cons h
    rw [List.cons_append, lines, if_neg hc.symm, ih hr]

/-- A text is its complete lines, and what comes after its last line feed. -/
theorem exists_endsLine_append (cs : List Char) :
    ∃ done rest, cs = done ++ rest ∧ EndsLine done ∧ '\n' ∉ rest := by
  induction cs with
  | nil => exact ⟨[], [], rfl, .inl rfl, List.not_mem_nil⟩
  | cons c r ih =>
    obtain ⟨done, rest, rfl, hdone, hrest⟩ := ih
    rcases hdone with rfl | hdone
    · by_cases hc : c = '\n'
      · exact ⟨['\n'], rest, by rw [hc]; rfl, .inr rfl, hrest⟩
      · exact ⟨[], c :: rest, rfl, .inl rfl, by simp [Ne.symm hc, hrest]⟩
    · refine ⟨c :: done, rest, rfl, .inr ?_, hrest⟩
      rw [List.getLast?_cons, hdone]
      rfl

theorem lines_of_not_mem {cs : List Char} (h : '\n' ∉ cs) (hne : cs ≠ []) : lines cs = [cs] := by
  induction cs with
  | nil => exact absurd rfl hne
  | cons c r ih =>
    obtain ⟨hc, hr⟩ := List.ne_and_not_mem_of_not_mem_cons h
    rw [lines, if_neg hc.symm]
    by_cases he : r = []
    · rw [he]
      rfl
    · rw [ih hr he]

theorem not_mem_of_mem_lines {cs line : List Char} (h : line ∈ lines cs) : '\n' ∉ line := by
  induction cs generalizing line with
  | nil => cases h
  | cons c r ih =>
    rw [lines] at h
    by_cases hc : c = '\n'
    · rw [if_pos hc] at h
      rcases List.mem_cons.1 h with rfl | h
      · simp
      · exact ih h
    · rw [if_neg hc] at h
      cases hl : lines r with
      | nil =>
        rw [hl] at h
        obtain rfl := List.mem_singleton.1 h
        simpa using Ne.symm hc
      | cons first rest =>
        rw [hl] at h ih
        rcases List.mem_cons.1 h with rfl | h
        · exact fun hm => (List.mem_cons.1 hm).elim (Ne.symm hc) (ih List.mem_cons_self)
        · exact ih (List.mem_cons_of_mem _ h)

/-- A text that stops within a line has the lines that it has when the line is completed. -/
theorem lines_append_lineFeed {cs : List Char} (h : ¬EndsLine cs) : lines (cs ++ ['\n']) = lines cs := by
  obtain ⟨done, rest, rfl, hdone, hrest⟩ := exists_endsLine_append cs
  have hne : rest ≠ [] := by
    rintro rfl
    rw [List.append_nil] at h
    exact h hdone
  rw [List.append_assoc, lines_append hdone, lines_append hdone, lines_line hrest, lines_of_not_mem hrest hne]

/-! ## Words -/

/-- The words on both sides of a blank. -/
theorem words_append {c : Char} (hc : isBlank c = true) (a b : List Char) :
    words (a ++ c :: b) = words a ++ words b := by
  unfold words
  rw [splitWhen_append hc, List.filter_append]

theorem words_of_forall {w : List Char} (hne : w ≠ []) (h : ∀ c ∈ w, isBlank c = false) :
    words w = [w] := by
  unfold words
  rw [splitWhen_of_forall h, List.filter_cons_of_pos (by simpa using hne), List.filter_nil]

theorem not_blank_of_mem_words {w cs : List Char} (h : w ∈ words cs) : ∀ c ∈ w, isBlank c = false :=
  fun c hc => (of_mem_splitWhen (List.mem_filter.1 h).1 c hc).1

theorem words_ne_nil {cs : List Char} (h : ∃ c ∈ cs, isBlank c = false) : words cs ≠ [] := by
  obtain ⟨c, hc, hblank⟩ := h
  intro hnil
  have hempty : ∀ piece ∈ splitWhen isBlank cs, piece = [] := by simpa using List.filter_eq_nil_iff.1 hnil
  have hall := forall_of_splitWhen hempty c hc
  rw [hblank] at hall
  cases hall

/-! ## Trimming -/

/-- Nothing is dropped from the front of a text that starts with another kind of character. -/
theorem dropWhile_of_head {cs : List Char} (h : ∀ c, cs.head? = some c → q c = false) :
    cs.dropWhile q = cs := by
  cases cs with
  | nil => rfl
  | cons c r => rw [List.dropWhile_cons, if_neg (by simp [h c rfl])]

/-- What is left after dropping starts with another kind of character. -/
theorem head_dropWhile {cs : List Char} : ∀ c, (cs.dropWhile q).head? = some c → q c = false := by
  intro c hc
  have hnot := List.head?_dropWhile_not q cs
  rw [hc] at hnot
  simpa using hnot

/-- All is dropped iff there are no other characters. -/
theorem dropWhile_eq_nil_iff_forall {cs : List Char} : cs.dropWhile q = [] ↔ ∀ c ∈ cs, q c = true := by
  induction cs with
  | nil => simp
  | cons c r ih =>
    rw [List.forall_mem_cons, List.dropWhile_cons]
    by_cases hc : q c = true
    · rw [if_pos hc, ih]
      exact ⟨fun h => ⟨hc, h⟩, fun h => h.2⟩
    · rw [if_neg hc]
      exact iff_of_false (List.cons_ne_nil _ _) fun h => hc h.1

theorem trimStart_of_head {cs : List Char} (h : ∀ c, cs.head? = some c → isBlank c = false) :
    trimStart cs = cs :=
  dropWhile_of_head h

theorem trimEnd_of_last {cs : List Char} (h : ∀ c, cs.getLast? = some c → isBlank c = false) :
    trimEnd cs = cs := by
  rcases List.eq_nil_or_concat cs with rfl | ⟨init, c, rfl⟩
  · rfl
  · rw [List.concat_eq_append] at h ⊢
    exact trimEnd_concat_of_not_blank init (h c (by simp))

theorem head?_trimStart {cs : List Char} {c : Char} (h : (trimStart cs).head? = some c) :
    isBlank c = false :=
  head_dropWhile c h

theorem getLast?_trimEnd {cs : List Char} {c : Char} (h : (trimEnd cs).getLast? = some c) :
    isBlank c = false := by
  unfold trimEnd at h
  rw [List.getLast?_reverse] at h
  exact @head?_trimStart cs.reverse c h

/-- A text is what trimming leaves iff it has no blank at either end. -/
theorem trim_eq_self_iff {cs : List Char} :
    trim cs = cs ↔ (∀ c, cs.head? = some c → isBlank c = false) ∧
      ∀ c, cs.getLast? = some c → isBlank c = false := by
  constructor
  · intro h
    refine ⟨fun c hc => ?_, fun c hc => ?_⟩
    · have hlen : (trimStart cs).length = cs.length := by
        have h1 := congrArg List.length h
        unfold trim trimEnd at h1
        rw [List.length_reverse] at h1
        have h2 := (List.dropWhile_suffix (l := (trimStart cs).reverse) isBlank).length_le
        rw [List.length_reverse] at h2
        have h3 := (List.dropWhile_suffix (l := cs) isBlank).length_le
        unfold trimStart at h1 h2 ⊢
        omega
      have : trimStart cs = cs := (List.dropWhile_suffix isBlank).eq_of_length hlen
      rw [← this] at hc
      exact head?_trimStart hc
    · rw [← h] at hc
      exact getLast?_trimEnd hc
  · rintro ⟨hhead, hlast⟩
    unfold trim
    rw [trimStart_of_head hhead, trimEnd_of_last hlast]

/-- Trimming a second time changes nothing. -/
theorem trim_trim (cs : List Char) : trim (trim cs) = trim cs := by
  refine trim_eq_self_iff.2 ⟨fun c hc => ?_, fun c hc => getLast?_trimEnd hc⟩
  -- What trimming the end leaves starts as before, if it leaves anything.
  unfold trim trimEnd at hc
  rw [List.head?_reverse] at hc
  obtain ⟨pre, hpre⟩ := List.dropWhile_suffix (l := (trimStart cs).reverse) isBlank
  have hlast : (trimStart cs).reverse.getLast? = some c := by
    rw [← hpre, List.getLast?_append, hc]
    rfl
  rw [List.getLast?_reverse] at hlast
  exact head?_trimStart hlast

/-- Trimming leaves something of a text that is not all blank. -/
theorem trimStart_ne_nil {cs : List Char} (h : ∃ c ∈ cs, isBlank c = false) : trimStart cs ≠ [] := by
  obtain ⟨c, hc, hblank⟩ := h
  induction cs with
  | nil => cases hc
  | cons d r ih =>
    unfold trimStart at ih ⊢
    rw [List.dropWhile_cons]
    split
    · rename_i hd
      refine ih ((List.mem_cons.1 hc).resolve_left fun he => ?_)
      rw [he, hd] at hblank
      cases hblank
    · exact List.cons_ne_nil d r

/-- Trimming the start of a text with something in it leaves what is added to it. -/
theorem trimStart_append {a : List Char} (h : ∃ c ∈ a, isBlank c = false) (b : List Char) :
    trimStart (a ++ b) = trimStart a ++ b := by
  have hne := trimStart_ne_nil h
  unfold trimStart at hne ⊢
  rw [List.dropWhile_append, if_neg (by simpa using hne)]

theorem trim_ne_nil {cs : List Char} (h : ∃ c ∈ cs, isBlank c = false) : trim cs ≠ [] := by
  obtain ⟨c, r, hc⟩ := List.exists_cons_of_ne_nil (trimStart_ne_nil h)
  have hblank : isBlank c = false := @head?_trimStart cs c (by rw [hc]; rfl)
  have hend : trimStart (trimStart cs).reverse ≠ [] :=
    trimStart_ne_nil ⟨c, by rw [hc]; simp, hblank⟩
  exact fun he => hend (List.reverse_eq_nil_iff.1 he)

/-- Nothing is left iff there are only blanks. -/
theorem trim_eq_nil_iff {cs : List Char} : trim cs = [] ↔ ∀ c ∈ cs, isBlank c = true := by
  constructor
  · intro h c hc
    cases hb : isBlank c with
    | true => rfl
    | false => exact absurd h (trim_ne_nil ⟨c, hc, hb⟩)
  · intro h
    rw [trim, trimStart, dropWhile_eq_nil_iff_forall.2 h, trimEnd_nil]

/-- Blanks around a text are trimmed away. -/
theorem trim_blanks_around {before after : List Char} (hbefore : ∀ c ∈ before, isBlank c = true)
    (hafter : ∀ c ∈ after, isBlank c = true) (cs : List Char) : trim (before ++ cs ++ after) = trim cs := by
  have hstart : ∀ rest, trimStart (before ++ rest) = trimStart rest := fun rest =>
    List.dropWhile_append_of_pos hbefore
  have hend : ∀ rest, trimEnd (rest ++ after) = trimEnd rest := by
    intro rest
    unfold trimEnd
    rw [List.reverse_append, List.dropWhile_append_of_pos fun c hc => hafter c (List.mem_reverse.1 hc)]
  rw [List.append_assoc, trim, hstart]
  by_cases hblank : ∀ c ∈ cs, isBlank c = true
  · have hall : trim (cs ++ after) = [] := trim_eq_nil_iff.2 fun c hc =>
      (List.mem_append.1 hc).elim (hblank c) (hafter c)
    rw [trim_eq_nil_iff.2 hblank, ← hall, trim]
  · rw [trimStart_append (by simpa using hblank), hend, trim]

/-- What trimming leaves has blanks around it. -/
theorem exists_blanks_around (cs : List Char) :
    ∃ before after, cs = before ++ trim cs ++ after ∧ (∀ c ∈ before, isBlank c = true) ∧
      ∀ c ∈ after, isBlank c = true := by
  have hblank : ∀ (l : List Char), ∀ c ∈ l.takeWhile isBlank, isBlank c = true :=
    fun l c hc => List.all_eq_true.1 (List.all_takeWhile (l := l)) c hc
  refine ⟨cs.takeWhile isBlank, ((trimStart cs).reverse.takeWhile isBlank).reverse, ?_, hblank cs, fun c hc => ?_⟩
  · have hend : trim cs ++ ((trimStart cs).reverse.takeWhile isBlank).reverse = trimStart cs := by
      rw [trim, trimEnd, ← List.reverse_append, List.takeWhile_append_dropWhile, List.reverse_reverse]
    rw [List.append_assoc, hend, trimStart, List.takeWhile_append_dropWhile]
  · exact hblank _ c (List.mem_reverse.1 hc)

/-- Trimming the end of a text that starts with something leaves the start. -/
theorem trimEnd_cons_of_not_blank {c : Char} (h : isBlank c = false) (r : List Char) :
    trimEnd (c :: r) = c :: trimEnd r := by
  unfold trimEnd
  rw [List.reverse_cons, List.dropWhile_append]
  split
  · rename_i hr
    rw [List.isEmpty_iff.1 hr, List.dropWhile_cons, if_neg (by simp [h])]
    rfl
  · rw [List.reverse_append]
    rfl

/-- Trimming the end of a text with something in it leaves what is before the text. -/
theorem trimEnd_append (a : List Char) {b : List Char} (h : ∃ c ∈ b, isBlank c = false) :
    trimEnd (a ++ b) = a ++ trimEnd b := by
  have hreverse : ∃ c ∈ b.reverse, isBlank c = false := by simpa using h
  have hstart := trimStart_append hreverse a.reverse
  unfold trimStart at hstart
  unfold trimEnd
  rw [List.reverse_append, hstart, List.reverse_append, List.reverse_reverse]

/-- Trimming the end adds nothing. -/
theorem mem_of_mem_trimEnd {cs : List Char} {c : Char} (h : c ∈ trimEnd cs) : c ∈ cs :=
  List.mem_reverse.1 ((List.dropWhile_suffix isBlank).subset (List.mem_reverse.1 h))

/-- A text that is trimmed at its end starts as before, if anything is left. -/
theorem head?_trimEnd {cs : List Char} (h : ∃ c ∈ cs, isBlank c = false) : (trimEnd cs).head? = cs.head? := by
  cases cs with
  | nil => rfl
  | cons c r =>
    cases hc : isBlank c with
    | false => rw [trimEnd_cons_of_not_blank hc, List.head?_cons, List.head?_cons]
    | true =>
      obtain ⟨d, hd, hblank⟩ := h
      have hr : d ∈ r := (List.mem_cons.1 hd).resolve_left fun he => by rw [he, hc] at hblank; cases hblank
      rw [← List.singleton_append, trimEnd_append [c] ⟨d, hr, hblank⟩]
      rfl

/-- It does not matter which end is trimmed first. -/
theorem trimStart_trimEnd (cs : List Char) : trimStart (trimEnd cs) = trim cs := by
  by_cases h : ∃ c ∈ cs, isBlank c = false
  · have hsplit : cs.takeWhile isBlank ++ trimStart cs = cs := List.takeWhile_append_dropWhile
    obtain ⟨c, r, hc⟩ := List.exists_cons_of_ne_nil (trimStart_ne_nil h)
    have hblank : isBlank c = false := @head?_trimStart cs c (by rw [hc]; rfl)
    have hend : trimEnd cs = cs.takeWhile isBlank ++ trim cs := by
      have hin : ∃ d ∈ trimStart cs, isBlank d = false := ⟨c, by rw [hc]; exact List.mem_cons_self, hblank⟩
      have hrest := trimEnd_append (cs.takeWhile isBlank) hin
      rwa [hsplit] at hrest
    have htrim : trim cs = c :: trimEnd r := by rw [trim, hc, trimEnd_cons_of_not_blank hblank]
    have hfront : ∀ d ∈ cs.takeWhile isBlank, isBlank d = true :=
      fun d hd => List.all_eq_true.1 List.all_takeWhile d hd
    rw [hend, htrim]
    exact (List.dropWhile_append_of_pos hfront).trans (trimStart_cons_of_not_blank _ hblank)
  · have hall : ∀ c ∈ cs, isBlank c = true := by simpa using h
    have hend : trimEnd cs = [] := by
      rw [trimEnd, dropWhile_eq_nil_iff_forall.2 fun c hc => hall c (List.mem_reverse.1 hc), List.reverse_nil]
    rw [hend, trim_eq_nil_iff.2 hall]
    rfl

theorem length_trim_le (cs : List Char) : (trim cs).length ≤ (trimStart cs).length := by
  have h := (List.dropWhile_suffix (l := (trimStart cs).reverse) isBlank).length_le
  unfold trim trimEnd
  rw [List.length_reverse] at h ⊢
  exact h

end BackupFleet.Text
