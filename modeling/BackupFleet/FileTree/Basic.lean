import BackupFleet.Order
import BackupFleet.Path
import BackupFleet.Text.Utf8

/-!
# `BackupFleet.FileTree.Basic` — a tree of directories and files

A tree says what is at each location: nothing, a directory, or a file with its content. A location is the
list of names from an entry up to the root, the entry's own name first; its tail is the directory it is
in. The root is always a directory.

The tree is kept as a list of entries with three properties: no location occurs twice, every entry has a
name that a walk can ask for, and its directory is an entry itself. `put` and `prune` keep all three, so
no operation can leave a file behind in a directory that is gone, or one that no path leads to.

## Contents

* `Location`, `Location.Named`, `Entry`, `FileTree`, `get?` — the type and its view;
* `Admits`, `put` — an entry added or replaced;
* `prune` — an entry removed with everything below it;
* `childNames`, `filesBelow` — what is in a directory, and what is at any depth below it.
-/

namespace BackupFleet

/-! ## Trees -/

/-- The names from an entry up to the root. -/
abbrev Location := List String

/-- What can be at a location. -/
inductive Entry where
  | directory
  | file (content : Bytes)
deriving DecidableEq

/-- The location is not the root, and its entry has a name that a walk can ask for. -/
def Location.Named : Location → Prop
  | [] => False
  | name :: _ => Path.IsName name

instance (l : Location) : Decidable l.Named :=
  match l with
  | [] => inferInstanceAs (Decidable False)
  | name :: _ => inferInstanceAs (Decidable (Path.IsName name))

theorem Location.Named.ne_nil {l : Location} (h : l.Named) : l ≠ [] := by
  rintro rfl
  exact h

/-- Entries, none of them twice, none without a name and none without its directory. -/
structure FileTree where
  entries : List (Location × Entry)
  nodup : (entries.map (·.1)).Nodup
  closed : ∀ e ∈ entries, e.1.Named ∧ (e.1.tail = [] ∨ (e.1.tail, .directory) ∈ entries)

namespace FileTree

/-- The tree with nothing but its root. -/
def empty : FileTree := ⟨[], .nil, fun _ h => absurd h List.not_mem_nil⟩

instance : Inhabited FileTree := ⟨empty⟩

/-- What is at a location. -/
def get? (t : FileTree) (l : Location) : Option Entry :=
  if l = [] then some .directory else t.entries.lookup l

@[simp] theorem get?_root (t : FileTree) : t.get? [] = some .directory := rfl

theorem lookup_cons_self (e : Location × Entry) (r : List (Location × Entry)) :
    (e :: r).lookup e.1 = some e.2 := by
  obtain ⟨l, e⟩ := e
  simp

theorem lookup_cons_of_ne {k : Location} {e : Location × Entry} (h : k ≠ e.1)
    (r : List (Location × Entry)) : (e :: r).lookup k = r.lookup k := by
  obtain ⟨l, e⟩ := e
  rw [List.lookup_cons, beq_false_of_ne h]

/-- Every entry has a directory. -/
theorem get?_tail {t : FileTree} {l : Location} {e : Entry} (h : t.get? l = some e) :
    t.get? l.tail = some .directory := by
  unfold get? at h ⊢
  split at h
  · rename_i hl
    simp [hl]
  · split
    · rfl
    · rename_i hl
      rcases (t.closed _ (mem_of_lookup h)).2 with h' | h'
      · exact absurd h' hl
      · exact lookup_of_mem t.nodup h'

/-! ## Adding and replacing -/

/-- `e` may be put at `l`: `l` has a name and its directory exists, and a file does not take the place of
    a directory. -/
def Admits (t : FileTree) (l : Location) (e : Entry) : Prop :=
  l.Named ∧ t.get? l.tail = some .directory ∧ (e = .directory ∨ t.get? l ≠ some .directory)

instance (t : FileTree) (l : Location) (e : Entry) : Decidable (t.Admits l e) :=
  inferInstanceAs (Decidable (_ ∧ _ ∧ _))

/-- The entries without the one at `l`. -/
def without (l : Location) (es : List (Location × Entry)) : List (Location × Entry) :=
  es.filter (·.1 ≠ l)

/-- The tree with `e` at `l`. -/
def putAt (t : FileTree) (l : Location) (e : Entry) (h : t.Admits l e) : FileTree where
  entries := (l, e) :: without l t.entries
  nodup := by
    rw [List.map_cons, List.nodup_cons]
    refine ⟨fun hm => ?_, ?_⟩
    · obtain ⟨f, hf, hl⟩ := List.mem_map.1 hm
      exact absurd hl (by simpa using (List.mem_filter.1 hf).2)
    · exact t.nodup.sublist (List.filter_sublist.map _)
  closed := by
    obtain ⟨hl, hd, he⟩ := h
    have keep : ∀ d : Location, d ≠ [] → t.get? d = some .directory →
        (d = l → e = .directory) → (d, .directory) ∈ (l, e) :: without l t.entries := by
      intro d hd0 hd hdl
      by_cases hdl' : d = l
      · rw [hdl', hdl hdl']
        exact List.mem_cons_self
      · refine List.mem_cons_of_mem _ (List.mem_filter.2 ⟨mem_of_lookup ?_, by simpa using hdl'⟩)
        simpa [get?, hd0] using hd
    have tail_ne : ∀ d : Location, d ≠ [] → d.tail ≠ d := by
      intro d hd h
      have := congrArg List.length h
      rw [List.length_tail] at this
      have := List.length_pos_iff.2 hd
      omega
    intro f hf
    rcases List.mem_cons.1 hf with rfl | hf
    · refine ⟨hl, ?_⟩
      by_cases ht : l.tail = []
      · exact .inl ht
      · exact .inr (keep _ ht hd fun hc => absurd hc (tail_ne l hl.ne_nil))
    · obtain ⟨hf0, hft⟩ := t.closed f (List.mem_filter.1 hf).1
      refine ⟨hf0, hft.imp_right fun hm => ?_⟩
      have ht : f.1.tail ≠ [] := (t.closed _ hm).1.ne_nil
      have hg : t.get? f.1.tail = some .directory := by
        simpa [get?, ht] using lookup_of_mem t.nodup hm
      exact keep _ ht hg fun hc => he.resolve_right fun hne => hne (hc ▸ hg)

/-- The tree with `e` at `l`, if it may be put there. -/
def put (t : FileTree) (l : Location) (e : Entry) : FileTree :=
  if h : t.Admits l e then t.putAt l e h else t

theorem lookup_without (l k : Location) (es : List (Location × Entry)) :
    (without l es).lookup k = if k = l then none else es.lookup k := by
  refine (lookup_filter (fun d => decide (d ≠ l)) k es).trans ?_
  by_cases hk : k = l
  · rw [if_neg (by simp [hk]), if_pos hk]
  · rw [if_pos (by simp [hk]), if_neg hk]

/-- Putting changes its own location only. -/
theorem get?_put {t : FileTree} {l : Location} {e : Entry} (h : t.Admits l e) (k : Location) :
    (t.put l e).get? k = if k = l then some e else t.get? k := by
  have hl := h.1.ne_nil
  rw [put, dif_pos h]
  unfold get? putAt
  by_cases hk : k = l
  · subst hk
    rw [if_neg hl, if_pos rfl]
    exact lookup_cons_self (k, e) _
  · by_cases hk0 : k = []
    · subst hk0
      simp [Ne.symm hl]
    · simp only [hk, hk0, if_false]
      rw [lookup_cons_of_ne (e := (l, e)) hk, lookup_without, if_neg hk]

/-! ## Removing -/

/-- `k` is `l` or lies below it. -/
def AtOrBelow (l k : Location) : Prop := l.isSuffixOf k = true

instance (l k : Location) : Decidable (AtOrBelow l k) := inferInstanceAs (Decidable (_ = _))

theorem atOrBelow_iff {l k : Location} : AtOrBelow l k ↔ l <:+ k := by
  simp [AtOrBelow]

theorem AtOrBelow.of_tail {l k : Location} (h : AtOrBelow l k.tail) : AtOrBelow l k :=
  atOrBelow_iff.2 ((atOrBelow_iff.1 h).trans (List.tail_suffix k))

/-- The tree without `l` and everything below it. -/
def prune (t : FileTree) (l : Location) : FileTree where
  entries := t.entries.filter fun e => ¬ AtOrBelow l e.1
  nodup := t.nodup.sublist (List.filter_sublist.map _)
  closed := by
    intro e he
    obtain ⟨he, hb⟩ := List.mem_filter.1 he
    refine ⟨(t.closed e he).1, (t.closed e he).2.imp_right fun hm => List.mem_filter.2 ⟨hm, ?_⟩⟩
    have hb : ¬ AtOrBelow l e.1 := by simpa using hb
    simpa using fun h => hb (AtOrBelow.of_tail h)

/-- Pruning removes what is at or below its location and nothing else. -/
theorem get?_prune {t : FileTree} {l k : Location} (hk : k ≠ []) :
    (t.prune l).get? k = if AtOrBelow l k then none else t.get? k := by
  unfold get? prune
  have := lookup_filter (fun k => !decide (AtOrBelow l k)) k t.entries
  by_cases h : AtOrBelow l k
  · simp only [h, decide_true, Bool.not_true] at this
    simpa [hk, h] using this
  · simp only [h, decide_false, Bool.not_false] at this
    simpa [hk, h] using this

/-! ## Listing -/

/-- The names in a directory, ascending. -/
def childNames (t : FileTree) (l : Location) : List String :=
  sortOn id (t.entries.filterMap fun e =>
    match e.1 with
    | name :: dir => if dir = l then some name else none
    | [] => none)

/-- The files below a location, each as the names that lead to it from there. -/
def filesBelow (t : FileTree) (l : Location) : List (List String) :=
  t.entries.filterMap fun e =>
    match e.2 with
    | .file _ => if AtOrBelow l e.1 ∧ e.1 ≠ l then some (e.1.take (e.1.length - l.length)).reverse else none
    | .directory => none

end FileTree

end BackupFleet
