import BackupFleet.FileSystem.Change
import BackupFleet.Proofs.Order

/-!
# `BackupFleet.Proofs.FileTree.Below` — what is above and below an entry

Every entry stands in a chain of directories up to the root. So what is below a location is seen from the
names in it alone, and taking these names away one by one takes away all that is below.

## Contents

* `AtOrBelow` — an order on locations;
* `get?_above`, `isName_of_get?` — what an entry says about the locations above it, and about its name;
* `mem_childNames`, `nodup_childNames`, `pairwise_childNames` — the names in a directory;
* `mem_filesBelow`, `nodup_filesBelow` — the files below a directory;
* `get?_pruneBelow` — a directory emptied;
* `get?_put_of_ne`, `put_put`, `get?_put_cases` — what `put` does, whether it may or not.
-/

namespace BackupFleet.FileTree

/-! ## Locations above and below -/

theorem AtOrBelow.refl (l : Location) : AtOrBelow l l := atOrBelow_iff.2 (List.suffix_refl l)

theorem AtOrBelow.trans {l m k : Location} (h : AtOrBelow l m) (h' : AtOrBelow m k) : AtOrBelow l k :=
  atOrBelow_iff.2 ((atOrBelow_iff.1 h).trans (atOrBelow_iff.1 h'))

theorem AtOrBelow.cons (name : String) (l : Location) : AtOrBelow l (name :: l) :=
  atOrBelow_iff.2 (List.suffix_cons name l)

theorem AtOrBelow.length_le {l k : Location} (h : AtOrBelow l k) : l.length ≤ k.length :=
  (atOrBelow_iff.1 h).length_le

theorem AtOrBelow.antisymm {l k : Location} (h : AtOrBelow l k) (h' : AtOrBelow k l) : l = k :=
  (atOrBelow_iff.1 h).eq_of_length_le h'.length_le

/-- Of two locations above a third one, one is above the other. -/
theorem AtOrBelow.total {l m k : Location} (hl : AtOrBelow l k) (hm : AtOrBelow m k) :
    AtOrBelow l m ∨ AtOrBelow m l := by
  rcases List.suffix_or_suffix_of_suffix (atOrBelow_iff.1 hl) (atOrBelow_iff.1 hm) with h | h
  · exact .inl (atOrBelow_iff.2 h)
  · exact .inr (atOrBelow_iff.2 h)

theorem atOrBelow_cons_iff {l k : Location} {name : String} :
    AtOrBelow l (name :: k) ↔ l = name :: k ∨ AtOrBelow l k := by
  rw [atOrBelow_iff, atOrBelow_iff, List.suffix_cons_iff]

/-! ## What is above an entry -/

/-- **All that is above an entry is a directory.** -/
theorem get?_above {t : FileTree} {l k : Location} {e : Entry} (h : t.get? k = some e)
    (hb : AtOrBelow l k) (hne : l ≠ k) : t.get? l = some .directory := by
  induction k generalizing e with
  | nil => exact absurd (List.suffix_nil.1 (atOrBelow_iff.1 hb)) hne
  | cons name dir ih =>
    have hb : AtOrBelow l dir := (atOrBelow_cons_iff.1 hb).resolve_left hne
    have hd : t.get? dir = some .directory := get?_tail h
    by_cases hl : l = dir
    · rw [hl, hd]
    · exact ih hd hb hl

/-- What something is below is a directory. -/
theorem get?_directory_of_below {t : FileTree} {name : String} {dirs l : Location} {e : Entry}
    (h : t.get? (name :: (dirs ++ l)) = some e) : t.get? l = some .directory := by
  refine get?_above h (atOrBelow_iff.2 (List.suffix_append (name :: dirs) l)) fun he => ?_
  have hlength := congrArg List.length he
  simp only [List.length_cons, List.length_append] at hlength
  omega

/-- Below a file there is nothing. -/
theorem get?_below_file {t : FileTree} {l k : Location} {content : Bytes}
    (h : t.get? l = some (.file content)) (hb : AtOrBelow l k) (hne : l ≠ k) : t.get? k = none := by
  cases hk : t.get? k with
  | none => rfl
  | some e => rw [get?_above hk hb hne] at h; cases h

/-- Every entry has a name that a walk can ask for. -/
theorem isName_of_get? {t : FileTree} {name : String} {dir : Location} {e : Entry}
    (h : t.get? (name :: dir) = some e) : Path.IsName name := by
  have hm : (name :: dir, e) ∈ t.entries := mem_of_lookup (by simpa [get?] using h)
  exact (t.closed _ hm).1

/-! ## What is in a directory -/

/-- The names in a directory are the names of the entries in it. -/
theorem mem_childNames {t : FileTree} {l : Location} {name : String} :
    name ∈ t.childNames l ↔ t.get? (name :: l) ≠ none := by
  unfold childNames
  rw [mem_sortOn, List.mem_filterMap]
  constructor
  · rintro ⟨⟨k, e⟩, he, hk⟩
    cases k with
    | nil => cases hk
    | cons n dir =>
      simp only at hk
      split at hk
      · rename_i hd
        obtain rfl := Option.some.inj hk
        subst hd
        have := lookup_of_mem t.nodup he
        simp [get?, this]
      · cases hk
  · intro h
    obtain ⟨e, he⟩ := Option.ne_none_iff_exists'.1 h
    exact ⟨_, mem_of_lookup (by simpa [get?] using he), by simp⟩

/-- The name of a location in a directory, if it is in the directory. -/
def nameIn? (l : Location) : Location → Option String
  | name :: dir => if dir = l then some name else none
  | [] => none

theorem eq_cons_of_nameIn? {l k : Location} {name : String} (h : nameIn? l k = some name) :
    k = name :: l := by
  cases k with
  | nil => cases h
  | cons n dir =>
    simp only [nameIn?] at h
    by_cases hd : dir = l
    · rw [if_pos hd] at h
      rw [Option.some.inj h, hd]
    · rw [if_neg hd] at h
      cases h

theorem childNames_eq (t : FileTree) (l : Location) :
    t.childNames l = sortOn id (t.entries.filterMap fun e => nameIn? l e.1) := by
  unfold childNames
  congr 2

/-- What is picked from the entries is different if it tells the location it was picked at. -/
theorem nodup_filterMap_entries {α : Type} (t : FileTree) {f : Location × Entry → Option α}
    (hf : ∀ e e' a, f e = some a → f e' = some a → e.1 = e'.1) : (t.entries.filterMap f).Nodup := by
  have hlocations : t.entries.Pairwise fun e e' => e.1 ≠ e'.1 := List.pairwise_map.1 t.nodup
  refine hlocations.filterMap f fun e e' hne a ha b hb => ?_
  rintro rfl
  exact hne (hf e e' a ha hb)

/-- A directory has each name once. -/
theorem nodup_childNames (t : FileTree) (l : Location) : (t.childNames l).Nodup := by
  rw [childNames_eq]
  refine (sortOn_perm id _).nodup_iff.2 (t.nodup_filterMap_entries fun e e' name he he' => ?_)
  exact (eq_cons_of_nameIn? he).trans (eq_cons_of_nameIn? he').symm

/-- A directory is listed in the order of its names. -/
theorem pairwise_childNames (t : FileTree) (l : Location) : (t.childNames l).Pairwise (· < ·) := by
  refine pairwise_lt_of_nodup ?_ (nodup_childNames t l)
  rw [childNames_eq]
  exact pairwise_sortOn id _

/-! ## What is below a directory -/

/-- The names that lead from a location to a file below it. -/
def namesTo? (l : Location) (e : Location × Entry) : Option (List String) :=
  match e.2 with
  | .file _ => if AtOrBelow l e.1 ∧ e.1 ≠ l then some (e.1.take (e.1.length - l.length)).reverse else none
  | .directory => none

theorem namesTo?_eq_some_iff {l : Location} {e : Location × Entry} {names : List String} :
    namesTo? l e = some names ↔
      names ≠ [] ∧ e.1 = names.reverse ++ l ∧ ∃ content, e.2 = .file content := by
  obtain ⟨k, e⟩ := e
  cases e with
  | directory => simp [namesTo?]
  | file content =>
    unfold namesTo?
    dsimp only
    constructor
    · intro h
      split at h
      · rename_i hk
        obtain ⟨above, rfl⟩ := atOrBelow_iff.1 hk.1
        have hnames : above.reverse = names := by simpa using h
        subst hnames
        refine ⟨?_, by simp, content, rfl⟩
        rintro he
        exact hk.2 (by simpa using he)
      · cases h
    · rintro ⟨hne, rfl, -⟩
      rw [if_pos ⟨atOrBelow_iff.2 (List.suffix_append _ _), by simpa using hne⟩]
      simp

theorem filesBelow_eq (t : FileTree) (l : Location) : t.filesBelow l = t.entries.filterMap (namesTo? l) :=
  rfl

/-- **The files below a location are listed by the names that lead to them.** -/
theorem mem_filesBelow {t : FileTree} {l : Location} {names : List String} :
    names ∈ t.filesBelow l ↔
      names ≠ [] ∧ ∃ content, t.get? (names.reverse ++ l) = some (.file content) := by
  rw [filesBelow_eq, List.mem_filterMap]
  simp only [namesTo?_eq_some_iff]
  constructor
  · rintro ⟨⟨k, e⟩, hmem, hne, rfl, content, rfl⟩
    refine ⟨hne, content, ?_⟩
    simpa [get?, hne] using lookup_of_mem t.nodup hmem
  · rintro ⟨hne, content, hget⟩
    have hlookup : t.entries.lookup (names.reverse ++ l) = some (.file content) := by
      simpa [get?, hne] using hget
    exact ⟨_, mem_of_lookup hlookup, hne, rfl, content, rfl⟩

/-- Each file is listed once. -/
theorem nodup_filesBelow (t : FileTree) (l : Location) : (t.filesBelow l).Nodup := by
  rw [filesBelow_eq]
  refine t.nodup_filterMap_entries fun e e' names he he' => ?_
  exact (namesTo?_eq_some_iff.1 he).2.1.trans (namesTo?_eq_some_iff.1 he').2.1.symm

/-! ## A directory emptied -/

/-- Names taken away one by one from a directory, with all that is below them. -/
theorem get?_foldl_prune (l : Location) (names : List String) (t : FileTree) {k : Location}
    (hk : k ≠ []) :
    (names.foldl (fun t name => t.prune (name :: l)) t).get? k
      = if ∃ name ∈ names, AtOrBelow (name :: l) k then none else t.get? k := by
  induction names generalizing t with
  | nil => simp
  | cons name r ih =>
    rw [List.foldl_cons, ih, get?_prune hk]
    by_cases h : AtOrBelow (name :: l) k <;> simp [h]

/-- What is strictly below a location is at or below a name in it. -/
theorem exists_cons_of_below {l k : Location} (h : AtOrBelow l k) (hne : k ≠ l) :
    ∃ name, AtOrBelow (name :: l) k := by
  obtain ⟨pre, rfl⟩ := atOrBelow_iff.1 h
  rcases List.eq_nil_or_concat pre with rfl | ⟨init, name, rfl⟩
  · simp at hne
  · exact ⟨name, atOrBelow_iff.2 ⟨init, by simp⟩⟩

/-- **Emptying a directory takes away what is strictly below it**, and nothing else. -/
theorem get?_pruneBelow {t : FileTree} {l k : Location} (hk : k ≠ []) :
    (FileSystem.pruneBelow t l).get? k = if AtOrBelow l k ∧ k ≠ l then none else t.get? k := by
  unfold FileSystem.pruneBelow
  rw [get?_foldl_prune l _ t hk]
  by_cases h : AtOrBelow l k ∧ k ≠ l
  · rw [if_pos h]
    cases he : t.get? k with
    | none => simp
    | some e =>
      obtain ⟨name, hname⟩ := exists_cons_of_below h.1 h.2
      -- What is there at all is seen among the names in the directory.
      have hpresent : t.get? (name :: l) ≠ none := by
        by_cases hk : name :: l = k
        · rw [hk, he]
          simp
        · rw [get?_above he hname hk]
          simp
      rw [if_pos ⟨name, mem_childNames.2 hpresent, hname⟩]
  · rw [if_neg h, if_neg]
    rintro ⟨name, -, hname⟩
    refine h ⟨(AtOrBelow.cons name l).trans hname, ?_⟩
    rintro rfl
    exact absurd hname.length_le (by simp)

/-- Taking away what is at or below a location leaves every entry or takes it. -/
theorem prune_shrinks (t : FileTree) (l k : Location) :
    (t.prune l).get? k = t.get? k ∨ (t.prune l).get? k = none := by
  by_cases hk : k = []
  · exact .inl (by simp [hk])
  · rw [get?_prune hk]
    split
    · exact .inr rfl
    · exact .inl rfl

theorem pruneBelow_shrinks (t : FileTree) (l k : Location) :
    (FileSystem.pruneBelow t l).get? k = t.get? k ∨ (FileSystem.pruneBelow t l).get? k = none := by
  by_cases hk : k = []
  · exact .inl (by simp [hk])
  · rw [get?_pruneBelow hk]
    split
    · exact .inr rfl
    · exact .inl rfl

/-! ## What is put -/

theorem get?_put_of_ne {t : FileTree} {l k : Location} (e : Entry) (h : k ≠ l) :
    (t.put l e).get? k = t.get? k := by
  by_cases ha : t.Admits l e
  · rw [get?_put ha, if_neg h]
  · rw [put, dif_neg ha]

/-- The same entry put once more at its location changes nothing. -/
theorem put_put (t : FileTree) (l : Location) (e : Entry) : (t.put l e).put l e = t.put l e := by
  by_cases h : t.Admits l e
  · have hagain : (t.put l e).Admits l e := by
      refine ⟨h.1, ?_, ?_⟩
      · rw [get?_put_of_ne e]
        · exact h.2.1
        · intro he
          have hlength := congrArg List.length he
          rw [List.length_tail] at hlength
          have := List.length_pos_iff.2 h.1.ne_nil
          omega
      · rw [get?_put h, if_pos rfl]
        exact (Decidable.em (e = .directory)).imp_right fun hne he => hne (Option.some.inj he)
    rw [put, dif_pos hagain]
    simp only [put, dif_pos h, putAt, mk.injEq, without]
    simp
  · have hput : t.put l e = t := by rw [put, dif_neg h]
    rw [hput, hput]

/-- Putting changes nothing at all unless it puts the entry at its location. -/
theorem get?_put_cases (t : FileTree) (l : Location) (e : Entry) (k : Location) :
    (t.put l e).get? k = t.get? k ∨ (k = l ∧ (t.put l e).get? k = some e) := by
  by_cases ha : t.Admits l e
  · rw [get?_put ha]
    by_cases hk : k = l
    · exact .inr ⟨hk, if_pos hk⟩
    · exact .inl (if_neg hk)
  · rw [put, dif_neg ha]
    exact .inl rfl

end BackupFleet.FileTree
