import BackupFleet.FileSystem.Basic
import BackupFleet.Proofs.Text.Pieces

/-!
# `BackupFleet.Proofs.FileSystem.Way` — where a path leads, whatever is there

A tree has no links, so the text of a path alone decides which location it leads to, and which locations
a walk along it stands in. What is in the tree only decides whether the walk gets there: it does iff every
location on the way is a directory (`locate_eq_ok_iff`). This splits every statement about paths into one
about texts and one about the entries at a few locations, so that a change elsewhere in the tree does not
touch it.

## Contents

* `stepTo`, `lead`, `visited` — walks on locations alone;
* `place`, `trail`, `IsPath` — the same for a path;
* `locate_eq_ok_iff`, `entry_eq_ok_iff`, `entry_congr` — look-ups;
* `segments_join`, `place_join`, `trail_join`, `entry_of_join` — the path of a name in a directory.
-/

namespace BackupFleet

namespace FileSystem

/-! ## Walks on locations -/

/-- Where one name leads from a location, if it can be followed. -/
def stepTo (l : Location) (name : String) : Location :=
  if name = "." then l else if name = ".." then l.tail else name :: l

/-- Where names lead from a location, if they can be followed. -/
def lead (from_ : Location) (names : List String) : Location := names.foldl stepTo from_

/-- The locations that a walk stands in, the one it ends at included. -/
def visited (from_ : Location) : List String → List Location
  | [] => [from_]
  | name :: r => from_ :: visited (stepTo from_ name) r

/-- The locations that a walk stands in before its end. -/
def passed (from_ : Location) : List String → List Location
  | [] => []
  | name :: r => from_ :: passed (stepTo from_ name) r

@[simp] theorem lead_nil (l : Location) : lead l [] = l := rfl

@[simp] theorem lead_cons (l : Location) (name : String) (r : List String) :
    lead l (name :: r) = lead (stepTo l name) r := rfl

theorem lead_append (l : Location) (a b : List String) : lead l (a ++ b) = lead (lead l a) b :=
  List.foldl_append

theorem stepTo_of_name {name : String} (h : Path.IsName name) (l : Location) :
    stepTo l name = name :: l := by
  unfold stepTo
  rw [if_neg h.2.1, if_neg h.2.2.1]

theorem visited_eq (l : Location) (names : List String) :
    visited l names = passed l names ++ [lead l names] := by
  induction names generalizing l with
  | nil => rfl
  | cons name r ih => rw [visited, passed, ih, lead_cons, List.cons_append]

theorem passed_append (l : Location) (a b : List String) :
    passed l (a ++ b) = passed l a ++ passed (lead l a) b := by
  induction a generalizing l with
  | nil => rfl
  | cons name r ih => rw [List.cons_append, passed, passed, ih, lead_cons, List.cons_append]

/-- The end of the first names is stood in on a walk along all of them. -/
theorem lead_mem_visited {l : Location} {pre names : List String} (h : pre <+: names) :
    lead l pre ∈ visited l names := by
  obtain ⟨post, rfl⟩ := h
  rw [visited_eq, passed_append, lead_append]
  cases post with
  | nil => simp
  | cons name r => simp [passed]

/-- **A walk gets to the end iff it can stand in every location before it.** -/
theorem walk_eq_ok_iff {t : FileTree} {from_ l : Location} {names : List String} :
    walk t from_ names = .ok l ↔
      (∀ k ∈ passed from_ names, t.get? k = some .directory) ∧
        (∀ n ∈ names, n.utf8ByteSize ≤ Path.maxNameBytes) ∧ l = lead from_ names := by
  induction names generalizing from_ with
  | nil => simp [walk, passed, eq_comm]
  | cons name r ih =>
    rw [walk, passed, lead_cons]
    simp only [List.forall_mem_cons]
    cases hd : t.get? from_ with
    | none => simp
    | some e =>
      cases e with
      | file content => simp
      | directory =>
        by_cases h1 : name = "."
        · subst h1
          have hs : stepTo from_ "." = from_ := rfl
          have hb : ".".utf8ByteSize ≤ Path.maxNameBytes := by decide
          simp only [if_true, ih, hs, hb, true_and]
        · by_cases h2 : name = ".."
          · subst h2
            have hs : stepTo from_ ".." = from_.tail := rfl
            have hb : "..".utf8ByteSize ≤ Path.maxNameBytes := by decide
            simp only [h1, if_true, if_false, ih, hs, hb, true_and]
          · have hs : stepTo from_ name = name :: from_ := by simp [stepTo, h1, h2]
            by_cases hb : Path.maxNameBytes < name.utf8ByteSize
            · simp [h1, h2, hb, Nat.not_le.2 hb]
            · simp only [h1, h2, hb, if_false, ih, hs, Nat.le_of_not_lt hb, true_and]

/-- A walk depends on nothing but the locations it can stand in before its end. -/
theorem walk_congr {t t' : FileTree} {from_ : Location} {names : List String}
    (h : ∀ k ∈ passed from_ names, t.get? k = t'.get? k) :
    walk t from_ names = walk t' from_ names := by
  induction names generalizing from_ with
  | nil => rfl
  | cons name r ih =>
    rw [passed] at h
    obtain ⟨hf, hr⟩ := List.forall_mem_cons.1 h
    rw [walk, walk, hf]
    cases t'.get? from_ with
    | none => rfl
    | some e =>
      cases e with
      | file content => rfl
      | directory =>
        by_cases h1 : name = "."
        · rw [stepTo, if_pos h1] at hr
          simp [h1, ih hr]
        · by_cases h2 : name = ".."
          · rw [stepTo, if_neg h1, if_pos h2] at hr
            simp [h2, ih hr]
          · rw [stepTo, if_neg h1, if_neg h2] at hr
            simp [h1, h2, ih hr]

/-! ## Paths -/

/-- The location that a path leads to, if it can be followed. -/
def place (fs : FileSystem) (p : String) : Location := lead (fs.start p) (Path.segments p)

/-- The locations that a walk along a path stands in, the end included. -/
def trail (fs : FileSystem) (p : String) : List Location := visited (fs.start p) (Path.segments p)

/-- The system takes the path, and every name in it. -/
def IsPath (p : String) : Prop :=
  pathError p = none ∧ ∀ n ∈ Path.segments p, n.utf8ByteSize ≤ Path.maxNameBytes

/-- The locations that must be directories for a look-up to get to the end of a path: the end is one of
    them if the path ends in a slash. -/
def way (fs : FileSystem) (p : String) : List Location := passed (fs.start p) (Path.lookupNames p)

theorem place_mem_trail (fs : FileSystem) (p : String) : fs.place p ∈ fs.trail p :=
  lead_mem_visited (List.prefix_rfl)

theorem way_subset_trail (fs : FileSystem) (p : String) : fs.way p ⊆ fs.trail p := by
  intro k hk
  unfold way Path.lookupNames at hk
  rw [passed_append] at hk
  unfold trail
  rw [visited_eq]
  rcases List.mem_append.1 hk with h | h
  · exact List.mem_append_left _ h
  · refine List.mem_append_right _ ?_
    split at h
    · simpa [passed] using h
    · simp [passed] at h

/-- The trail is the way to the end, and the end. -/
theorem mem_trail_iff {fs : FileSystem} {p : String} {k : Location} :
    k ∈ fs.trail p ↔ k = fs.place p ∨ k ∈ fs.way p := by
  constructor
  · intro hk
    unfold trail at hk
    rw [visited_eq] at hk
    rcases List.mem_append.1 hk with h | h
    · refine .inr ?_
      unfold way Path.lookupNames
      rw [passed_append]
      exact List.mem_append_left _ h
    · exact .inl (List.mem_singleton.1 h)
  · rintro (rfl | hk)
    · exact fs.place_mem_trail p
    · exact fs.way_subset_trail p hk

theorem lead_lookupNames (l : Location) (p : String) :
    lead l (Path.lookupNames p) = lead l (Path.segments p) := by
  unfold Path.lookupNames
  rw [lead_append]
  split
  · simp [stepTo]
  · rfl

/-- **A path is found iff the system takes it and all on its way are directories**; where it leads does
    not depend on the tree. -/
theorem locate_eq_ok_iff {fs : FileSystem} {p : String} {l : Location} :
    fs.locate p = .ok l ↔
      IsPath p ∧ (∀ k ∈ fs.way p, fs.tree.get? k = some .directory) ∧ l = fs.place p := by
  have hdot : ∀ q : Prop, (∀ n ∈ Path.lookupNames p, n.utf8ByteSize ≤ Path.maxNameBytes) ∧ q ↔
      (∀ n ∈ Path.segments p, n.utf8ByteSize ≤ Path.maxNameBytes) ∧ q := by
    intro q
    refine and_congr_left fun _ => ?_
    unfold Path.lookupNames
    rw [List.forall_mem_append]
    refine and_iff_left ?_
    split
    · simp only [List.forall_mem_singleton]; decide
    · simp
  unfold locate IsPath
  cases hp : pathError p with
  | some e => simp
  | none =>
    rw [walk_eq_ok_iff, hdot, lead_lookupNames]
    simp only [true_and]
    exact and_left_comm.trans (and_congr_right fun _ => Iff.rfl)

/-! ## Looking at the end of a path -/

/-- What is at the end of a path. -/
theorem entry_eq_ok_iff {fs : FileSystem} {p : String} {e : Entry} :
    fs.entry p = .ok e ↔
      IsPath p ∧ (∀ k ∈ fs.way p, fs.tree.get? k = some .directory) ∧
        fs.tree.get? (fs.place p) = some e := by
  unfold entry
  cases hl : fs.locate p with
  | error err =>
    constructor
    · intro h; cases h
    · rintro ⟨hp, hw, -⟩
      rw [locate_eq_ok_iff.2 ⟨hp, hw, rfl⟩] at hl
      cases hl
  | ok l =>
    obtain ⟨hp, hw, rfl⟩ := locate_eq_ok_iff.1 hl
    simp only [bind, Except.bind]
    cases fs.tree.get? (fs.place p) with
    | none => simp
    | some e' =>
      simp only [pure, Except.pure, Except.ok.injEq, Option.some.injEq]
      exact ⟨fun he => ⟨hp, hw, he⟩, fun h => h.2.2⟩

theorem exists_iff {fs : FileSystem} {p : String} : fs.exists_ p = true ↔ ∃ e, fs.entry p = .ok e := by
  unfold exists_
  cases fs.entry p with
  | ok e => exact ⟨fun _ => ⟨e, rfl⟩, fun _ => rfl⟩
  | error err => exact ⟨fun h => (by cases h), fun ⟨e, he⟩ => (by cases he)⟩

theorem isFile_iff {fs : FileSystem} {p : String} :
    fs.isFile p = true ↔ ∃ content, fs.entry p = .ok (.file content) := by
  unfold isFile
  split
  · rename_i content h
    exact ⟨fun _ => ⟨content, h⟩, fun _ => rfl⟩
  · rename_i h
    exact ⟨fun hf => (by cases hf), fun ⟨content, hc⟩ => absurd hc (h content)⟩

theorem readFile_eq_ok_iff {fs : FileSystem} {p : String} {content : Bytes} :
    fs.readFile p = .ok content ↔ fs.entry p = .ok (.file content) := by
  unfold readFile
  cases fs.entry p with
  | error e => simp [bind, Except.bind]
  | ok e =>
    cases e with
    | directory => simp [bind, Except.bind]
    | file bytes => simp [bind, Except.bind, pure, Except.pure]

/-- **A look-up depends on nothing but the entries on its trail.** -/
theorem entry_congr {fs fs' : FileSystem} {p : String} (hw : fs'.workDir = fs.workDir)
    (h : ∀ k ∈ fs.trail p, fs'.tree.get? k = fs.tree.get? k) : fs'.entry p = fs.entry p := by
  have hstart : fs'.start p = fs.start p := by unfold start; rw [hw]
  have hlocate : fs'.locate p = fs.locate p := by
    unfold locate
    rw [hstart]
    cases pathError p with
    | some e => rfl
    | none => exact walk_congr fun k hk => h k (fs.way_subset_trail p hk)
  unfold entry
  rw [hlocate]
  cases hl : fs.locate p with
  | error e => rfl
  | ok l =>
    obtain ⟨-, -, rfl⟩ := locate_eq_ok_iff.1 hl
    simp only [bind, Except.bind]
    rw [h _ (fs.place_mem_trail p)]

/-! ## The path of a name in a directory -/

/-- The text is a single part of a path; it need not be a name, since it may be a `.` or a `..`. -/
def IsPart (name : String) : Prop := name ≠ "" ∧ '/' ∉ name.toList

theorem isPart_of_isName {name : String} (h : Path.IsName name) : IsPart name := ⟨h.1, h.2.2.2.1⟩

theorem segments_append_slash (a b : List Char) :
    Path.segments (String.ofList (a ++ '/' :: b))
      = Path.segments (String.ofList a) ++ Path.segments (String.ofList b) := by
  unfold Path.segments
  rw [String.toList_ofList, String.toList_ofList, String.toList_ofList,
    Text.splitWhen_append (by decide), List.filter_append, List.map_append]

theorem segments_of_part {name : String} (h : IsPart name) : Path.segments name = [name] := by
  have hne : name.toList ≠ [] := fun he => h.1 (String.toList_eq_nil_iff.1 he)
  have hslash : ∀ c ∈ name.toList, (c == '/') = false := by
    intro c hc
    refine beq_false_of_ne ?_
    rintro rfl
    exact h.2 hc
  unfold Path.segments
  rw [Text.splitWhen_of_forall hslash]
  simp [hne]

/-- How the path of a name in a directory is spelled: the slash may be there already, and below no
    directory at all it is left out. -/
theorem join_cases {name : String} (h : IsPart name) (dir : String) :
    (dir = "" ∧ Path.join dir name = name) ∨
    (∃ d, dir = String.ofList (d ++ ['/']) ∧
      Path.join dir name = String.ofList (d ++ '/' :: name.toList)) ∨
    (dir ≠ "" ∧ Path.join dir name = String.ofList (dir.toList ++ '/' :: name.toList)) := by
  have hslash : ∀ r, name.toList ≠ '/' :: r := fun r hr => h.2 (hr ▸ List.mem_cons_self)
  unfold Path.join
  split
  · rename_i r hr
    exact absurd hr (hslash r)
  · split
    · rename_i hlast
      have hd : dir = "" := String.toList_eq_nil_iff.1 (List.getLast?_eq_none_iff.1 hlast)
      exact .inl ⟨hd, by rw [hd]; simp⟩
    · rename_i hlast
      obtain ⟨d, hd⟩ := List.getLast?_eq_some_iff.1 hlast
      refine .inr (.inl ⟨d, ?_, ?_⟩)
      · rw [← hd, String.ofList_toList]
      · rw [hd, List.append_assoc]
        rfl
    · rename_i hlast
      refine .inr (.inr ⟨fun hd => ?_, rfl⟩)
      simp [hd] at hlast

theorem segments_join {name : String} (h : IsPart name) (dir : String) :
    Path.segments (Path.join dir name) = Path.segments dir ++ [name] := by
  rcases join_cases h dir with ⟨hd, hj⟩ | ⟨d, hd, hj⟩ | ⟨-, hj⟩
  · rw [hj, hd, segments_of_part h]
    rfl
  · rw [hj, hd, segments_append_slash, String.ofList_toList, segments_append_slash,
      segments_of_part h]
    simp [Path.segments, Text.splitWhen]
  · rw [hj, segments_append_slash, String.ofList_toList, String.ofList_toList, segments_of_part h]

theorem isAbsolute_join {name : String} (h : IsPart name) (dir : String) :
    Path.isAbsolute (Path.join dir name) = Path.isAbsolute dir := by
  have hname : Path.isAbsolute name = false := by
    have hhead : name.toList.head? ≠ some '/' := fun hh => h.2 (List.mem_of_mem_head? hh)
    simpa [Path.isAbsolute] using hhead
  rcases join_cases h dir with ⟨hd, hj⟩ | ⟨d, hd, hj⟩ | ⟨hd, hj⟩
  · rw [hj, hname, hd]
    rfl
  · rw [hj, hd]
    cases d <;> simp [Path.isAbsolute]
  · rw [hj]
    have hne : dir.toList ≠ [] := fun he => hd (String.toList_eq_nil_iff.1 he)
    cases hl : dir.toList with
    | nil => exact absurd hl hne
    | cons c r => simp [Path.isAbsolute, hl]

theorem lookupNames_join {name : String} (h : IsPart name) (dir : String) :
    Path.lookupNames (Path.join dir name) = Path.segments dir ++ [name] := by
  have hne : name.toList ≠ [] := fun he => h.1 (String.toList_eq_nil_iff.1 he)
  have hlast : (Path.join dir name).toList.getLast? ≠ some '/' := by
    have hend : name.toList.getLast? ≠ some '/' := fun hl => h.2 (List.mem_of_getLast? hl)
    have hafter : ∀ d : List Char, (d ++ '/' :: name.toList).getLast? = name.toList.getLast? := by
      intro d
      cases hl : name.toList with
      | nil => exact absurd hl hne
      | cons c r => simp [List.getLast?_append, List.getLast?_cons]
    rcases join_cases h dir with ⟨-, hj⟩ | ⟨d, -, hj⟩ | ⟨-, hj⟩
    · rwa [hj]
    · rw [hj, String.toList_ofList, hafter]
      exact hend
    · rw [hj, String.toList_ofList, hafter]
      exact hend
  unfold Path.lookupNames
  rw [if_neg hlast, segments_join h, List.append_nil]

/-- **A name in a directory is one step below it.** -/
theorem place_join {name : String} (h : Path.IsName name) (fs : FileSystem) (dir : String) :
    fs.place (Path.join dir name) = name :: fs.place dir := by
  unfold place start
  rw [isAbsolute_join (isPart_of_isName h), segments_join (isPart_of_isName h), lead_append, lead_cons, lead_nil, stepTo_of_name h]

/-- The way to a name in a directory is the way to the directory, and the directory. -/
theorem way_join {name : String} (h : Path.IsName name) (fs : FileSystem) (dir : String) :
    fs.way (Path.join dir name) = fs.trail dir := by
  unfold way trail start
  rw [isAbsolute_join (isPart_of_isName h), lookupNames_join (isPart_of_isName h), passed_append, visited_eq]
  rfl

theorem trail_join {name : String} (h : Path.IsName name) (fs : FileSystem) (dir : String) :
    fs.trail (Path.join dir name) = fs.trail dir ++ [name :: fs.place dir] := by
  unfold trail place start
  rw [isAbsolute_join (isPart_of_isName h), segments_join (isPart_of_isName h), visited_eq, visited_eq, passed_append, lead_append, lead_cons,
    lead_nil, stepTo_of_name h]
  rfl

/-- The path of a name in a directory goes on from that of the directory. -/
theorem exists_append_of_join {name : String} (h : IsPart name) {dir : String} (hdir : dir ≠ "") :
    ∃ rest, Path.join dir name = dir ++ rest := by
  rcases join_cases h dir with ⟨hd, -⟩ | ⟨d, hd, hj⟩ | ⟨-, hj⟩
  · exact absurd hd hdir
  · exact ⟨name, by rw [hj, hd, ← String.toList_inj]; simp⟩
  · exact ⟨String.ofList ('/' :: name.toList), by rw [hj, ← String.toList_inj]; simp⟩

/-- What a path goes on from is a path, unless it is empty. -/
theorem pathError_of_append {p rest : String} (hp : p ≠ "") (h : pathError (p ++ rest) = none) :
    pathError p = none := by
  unfold pathError at h ⊢
  have hsize : p.utf8ByteSize ≤ (p ++ rest).utf8ByteSize := by
    rw [String.utf8ByteSize_append]
    exact Nat.le_add_right _ _
  split at h
  · cases h
  · rename_i hnul
    split at h
    · cases h
    · split at h
      · cases h
      · rename_i hlimit
        rw [if_neg, if_neg hp, if_neg (by omega)]
        intro hmem
        refine hnul ?_
        simp only [List.contains_eq_mem, decide_eq_true_eq, String.toList_append, List.mem_append] at hmem ⊢
        exact .inl hmem

/-- The system takes the path of a directory if it takes that of a name in it. -/
theorem isPath_of_join {name dir : String} (hname : IsPart name) (hdir : dir ≠ "")
    (h : IsPath (Path.join dir name)) : IsPath dir := by
  obtain ⟨hp, hbytes⟩ := h
  obtain ⟨rest, hrest⟩ := exists_append_of_join hname hdir
  rw [hrest] at hp
  rw [segments_join hname] at hbytes
  exact ⟨pathError_of_append hdir hp, fun n hn => hbytes n (List.mem_append_left _ hn)⟩

/-- **Where something is found in a directory, the directory is found.** -/
theorem entry_of_join {name dir : String} (hname : Path.IsName name) (hdir : dir ≠ "") {fs : FileSystem}
    {e : Entry} (h : fs.entry (Path.join dir name) = .ok e) : fs.entry dir = .ok .directory := by
  obtain ⟨hp, hway, -⟩ := entry_eq_ok_iff.1 h
  rw [way_join hname] at hway
  refine entry_eq_ok_iff.2 ⟨isPath_of_join (isPart_of_isName hname) hdir hp, fun k hk => ?_, ?_⟩
  · exact hway k (way_subset_trail fs dir hk)
  · exact hway _ (place_mem_trail fs dir)

end FileSystem

end BackupFleet
