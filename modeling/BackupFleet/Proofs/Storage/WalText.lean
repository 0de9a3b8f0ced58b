import BackupFleet.Proofs.Text.Pieces
import BackupFleet.Proofs.Text.Utf8
import BackupFleet.Storage.Wal

/-!
# `BackupFleet.Proofs.Storage.WalText` — the text of a WAL catalog

A catalog is read line by line. A name that is appended with its line feed comes out as one more name at
the end, provided that the text before it does not stop in the middle of a line (`Finished`) and that the
name is what trimming leaves of a line (`Listable`). Otherwise the last line and the name become one.

## Contents

* `Finished`, `Listable` — what a text and a name must be like;
* `walNames_append_line`, `walNames_append_unfinished` — a name appended;
* `walNames_append_names`, `walNames_walCatalogText` — many names, and a catalog written anew.
-/

namespace BackupFleet.Storage

open Text

/-- After its last line feed, the text has nothing but blanks. -/
def Finished (cs : List Char) : Prop :=
  ∃ done rest, cs = done ++ rest ∧ EndsLine done ∧ ∀ c ∈ rest, isBlank c = true

/-- The name is a line of a catalog as it is read: it is not empty, and it has no line feed and no blank
    at either end. -/
def Listable (name : String) : Prop :=
  name ≠ "" ∧ '\n' ∉ name.toList ∧ trim name.toList = name.toList

theorem finished_of_endsLine {cs : List Char} (h : EndsLine cs) : Finished cs :=
  ⟨cs, [], by simp, h, fun _ h => absurd h List.not_mem_nil⟩

theorem endsLine_append_line (cs name : List Char) : EndsLine (cs ++ (name ++ ['\n'])) :=
  .inr (by simp)

/-- A name without any blank can be listed. -/
theorem listable_of_no_blank {name : String} (hne : name ≠ "")
    (h : ∀ c ∈ name.toList, isBlank c = false) : Listable name := by
  refine ⟨hne, fun hn => ?_, trim_eq_self_iff.2 ⟨fun c hc => ?_, fun c hc => ?_⟩⟩
  · have := h _ hn
    simp [isBlank] at this
  · exact h c (List.mem_of_mem_head? hc)
  · exact h c (List.mem_of_getLast? hc)

/-- What is read from a catalog can be listed again. -/
theorem listable_of_mem_walNames {cs : List Char} {name : String} (h : name ∈ walNames cs) :
    Listable name := by
  obtain ⟨trimmed, hmem, rfl⟩ := List.mem_map.1 h
  obtain ⟨hmem, hne⟩ := List.mem_filter.1 hmem
  obtain ⟨line, hline, rfl⟩ := List.mem_map.1 hmem
  unfold Listable
  rw [String.toList_ofList]
  refine ⟨fun he => ?_, fun hn => ?_, trim_trim line⟩
  · have : trim line = [] := by simpa using congrArg String.toList he
    simp [this] at hne
  · refine not_mem_of_mem_lines hline ?_
    unfold trim trimEnd at hn
    have h1 := (List.dropWhile_suffix isBlank).subset (List.mem_reverse.1 hn)
    exact (List.dropWhile_suffix isBlank).subset (List.mem_reverse.1 h1)

theorem walNames_append {a : List Char} (h : EndsLine a) (b : List Char) :
    walNames (a ++ b) = walNames a ++ walNames b := by
  unfold walNames
  rw [lines_append h, List.map_append, List.filter_append, List.map_append]

/-- Blanks before a line are not read. -/
theorem walNames_blank {c : Char} (h : isBlank c = true) (cs : List Char) :
    walNames (c :: cs) = walNames cs := by
  have htrim : ∀ line, trim (c :: line) = trim line := by
    intro line
    unfold trim trimStart
    rw [List.dropWhile_cons, if_pos h]
  unfold walNames
  rw [lines]
  split
  · simp [trim]
  · cases lines cs with
    | nil =>
      have hnil : trim [c] = [] := htrim []
      simp [hnil]
    | cons line rest => simp [htrim]

theorem walNames_blanks {rest : List Char} (h : ∀ c ∈ rest, isBlank c = true) (cs : List Char) :
    walNames (rest ++ cs) = walNames cs := by
  induction rest with
  | nil => rfl
  | cons c r ih =>
    obtain ⟨hc, hr⟩ := List.forall_mem_cons.1 h
    rw [List.cons_append, walNames_blank hc, ih hr]

theorem walNames_line {name : String} (h : Listable name) :
    walNames (name.toList ++ ['\n']) = [name] := by
  obtain ⟨hne, hline, htrim⟩ := h
  have hne : name.toList ≠ [] := fun he => hne (String.toList_eq_nil_iff.1 he)
  unfold walNames
  rw [lines_line hline]
  simp [htrim, hne]

/-- **A name that is appended to a finished text is one more name at the end.** -/
theorem walNames_append_line {cs : List Char} (hcs : Finished cs) {name : String}
    (h : Listable name) : walNames (cs ++ (name.toList ++ ['\n'])) = walNames cs ++ [name] := by
  obtain ⟨done, rest, rfl, hdone, hrest⟩ := hcs
  have hblank : walNames rest = [] := by
    have := walNames_blanks hrest []
    rwa [List.append_nil] at this
  rw [List.append_assoc, walNames_append hdone, walNames_append hdone, walNames_blanks hrest,
    walNames_line h, hblank, List.append_nil]

/-- **A name that is appended in the middle of a line spoils that line.** What is read then is neither the
    line that was there nor the name. -/
theorem walNames_append_unfinished {cs : List Char} (hcs : ¬Finished cs) {name : String}
    (hne : name ≠ "") (hblank : ∀ c ∈ name.toList, isBlank c = false) :
    ∃ init line merged, walNames cs = init ++ [line] ∧
      walNames (cs ++ (name.toList ++ ['\n'])) = init ++ [merged] ∧ merged ≠ line ∧ merged ≠ name := by
  obtain ⟨done, rest, rfl, hdone, hrest⟩ := exists_endsLine_append cs
  have hsome : ∃ c ∈ rest, isBlank c = false := by
    refine Classical.byContradiction fun hno => hcs ⟨done, rest, rfl, hdone, fun c hc => ?_⟩
    cases hb : isBlank c with
    | true => rfl
    | false => exact absurd ⟨c, hc, hb⟩ hno
  have hnot : '\n' ∉ name.toList := fun hn => by
    have := hblank _ hn
    simp [isBlank] at this
  have hname : name.toList ≠ [] := fun he => hne (String.toList_eq_nil_iff.1 he)
  have hrestne : rest ≠ [] := by
    rintro rfl
    obtain ⟨c, hc, -⟩ := hsome
    cases hc
  -- The start of the line is kept, and so is the name at its end.
  have hmerged : trim (rest ++ name.toList) = trimStart rest ++ name.toList := by
    unfold trim
    rw [trimStart_append hsome]
    refine trimEnd_of_last fun d hd => hblank d ?_
    obtain ⟨init, last, hlast⟩ := (List.eq_nil_or_concat name.toList).resolve_left hname
    rw [hlast, List.concat_eq_append, ← List.append_assoc, List.getLast?_concat] at hd
    obtain rfl := Option.some.inj hd
    rw [hlast, List.concat_eq_append]
    simp
  refine ⟨walNames done, String.ofList (trim rest), String.ofList (trimStart rest ++ name.toList),
    ?_, ?_, fun he => ?_, fun he => ?_⟩
  · rw [walNames_append hdone]
    unfold walNames
    rw [lines_of_not_mem hrest hrestne]
    simp [trim_ne_nil hsome]
  · rw [List.append_assoc, walNames_append hdone, ← List.append_assoc]
    unfold walNames
    rw [lines_line (by simp [hrest, hnot])]
    simp [hmerged, hname]
  · have hlength := congrArg List.length (String.ofList_injective he)
    have hpos := List.length_pos_iff.2 hname
    have hle := length_trim_le rest
    rw [List.length_append] at hlength
    omega
  · have hlength := congrArg (fun s => s.toList.length) he
    rw [String.toList_ofList, List.length_append] at hlength
    have hpos := List.length_pos_iff.2 (trimStart_ne_nil hsome)
    omega

theorem walCatalogText_cons (name : String) (r : List String) :
    walCatalogText (name :: r) = name.toList ++ ['\n'] ++ walCatalogText r := rfl

theorem walCatalogText_append (names more : List String) :
    walCatalogText (names ++ more) = walCatalogText names ++ walCatalogText more :=
  List.flatMap_append

theorem endsLine_walCatalogText (names : List String) : EndsLine (walCatalogText names) := by
  rcases List.eq_nil_or_concat names with rfl | ⟨init, name, rfl⟩
  · exact .inl rfl
  · refine .inr ?_
    simp [walCatalogText]

/-- **A catalog that is written anew is read as its names.** -/
theorem walNames_walCatalogText {names : List String} (h : ∀ name ∈ names, Listable name) :
    walNames (walCatalogText names) = names := by
  induction names with
  | nil => rfl
  | cons name r ih =>
    obtain ⟨hname, hr⟩ := List.forall_mem_cons.1 h
    rw [walCatalogText_cons, walNames_append (.inr (by simp)), walNames_line hname, ih hr]
    rfl

/-- Names that are appended to a finished text are read after the others. -/
theorem walNames_append_names {cs : List Char} (hcs : Finished cs) {names : List String}
    (h : ∀ name ∈ names, Listable name) :
    walNames (cs ++ walCatalogText names) = walNames cs ++ names := by
  cases names with
  | nil => simp [walCatalogText]
  | cons name r =>
    obtain ⟨hname, hr⟩ := List.forall_mem_cons.1 h
    rw [walCatalogText_cons, ← List.append_assoc, walNames_append (endsLine_append_line cs name.toList),
      walNames_append_line hcs hname, walNames_walCatalogText hr, List.append_assoc]
    rfl

theorem finished_append_names {cs : List Char} (hcs : Finished cs) (names : List String) :
    Finished (cs ++ walCatalogText names) := by
  cases names with
  | nil => simpa [walCatalogText] using hcs
  | cons name r =>
    refine finished_of_endsLine (.inr ?_)
    have hend := endsLine_walCatalogText (name :: r)
    have hne : walCatalogText (name :: r) ≠ [] := by simp [walCatalogText_cons]
    rw [List.getLast?_append, hend.resolve_left hne]
    rfl

end BackupFleet.Storage
