import BackupFleet.Proofs.FileSystem.Effect

/-!
# `BackupFleet.Proofs.FileSystem.Plain` — paths that never go up

A path without `..` stands only in locations above its end. Whatever is at its end then has all of the
trail as directories, so what a look-up of a name in such a directory finds is a matter of one location.

## Contents

* `GoesDown`, `atOrBelow_of_mem_trail` — the trail of a path without `..`;
* `mem_listDirectory`, `pairwise_listDirectory` — the names in a directory;
* `entry_join_iff`, `entry_of_place` — a name in a directory, and the end of a path;
* `Vacant` — directories with nothing in them.
-/

namespace BackupFleet.FileSystem

open FileTree

/-- No name of the path leads up. -/
def GoesDown (p : String) : Prop := ".." ∉ Path.segments p

instance (p : String) : Decidable (GoesDown p) := inferInstanceAs (Decidable (¬_))

/-- Where a name other than `..` leads is not above the start. -/
theorem atOrBelow_stepTo {name : String} (h : name ≠ "..") (l : Location) :
    AtOrBelow l (stepTo l name) := by
  unfold stepTo
  by_cases h1 : name = "."
  · rw [if_pos h1]
    exact .refl l
  · rw [if_neg h1, if_neg h]
    exact .cons name l

theorem atOrBelow_lead {names : List String} (h : ".." ∉ names) (l : Location) :
    AtOrBelow l (lead l names) := by
  induction names generalizing l with
  | nil => exact .refl l
  | cons name r ih =>
    obtain ⟨hname, hr⟩ := List.ne_and_not_mem_of_not_mem_cons h
    exact (atOrBelow_stepTo hname.symm l).trans (ih hr _)

theorem atOrBelow_of_mem_visited {names : List String} (h : ".." ∉ names) {l k : Location}
    (hk : k ∈ visited l names) : AtOrBelow k (lead l names) := by
  induction names generalizing l with
  | nil =>
    obtain rfl := List.mem_singleton.1 hk
    exact .refl k
  | cons name r ih =>
    rcases List.mem_cons.1 hk with rfl | hk
    · exact atOrBelow_lead h k
    · exact ih (List.ne_and_not_mem_of_not_mem_cons h).2 hk

/-- **A path that goes down stands only in locations above its end.** -/
theorem atOrBelow_of_mem_trail {p : String} (h : GoesDown p) {fs : FileSystem} {k : Location}
    (hk : k ∈ fs.trail p) : AtOrBelow k (fs.place p) :=
  atOrBelow_of_mem_visited h hk

theorem listDirectory_eq_ok_iff {fs : FileSystem} {p : String} {names : List String} :
    fs.listDirectory p = .ok names ↔
      fs.entry p = .ok .directory ∧ names = fs.tree.childNames (fs.place p) := by
  unfold listDirectory entry
  cases hl : fs.locate p with
  | error e => simp [bind, Except.bind]
  | ok l =>
    obtain ⟨-, -, rfl⟩ := locate_eq_ok_iff.1 hl
    simp only [bind, Except.bind]
    cases fs.tree.get? (fs.place p) with
    | none => simp
    | some e =>
      cases e with
      | directory => simp [pure, Except.pure, eq_comm]
      | file content => simp [pure, Except.pure]

theorem listDirectory_of_file {fs : FileSystem} {p : String} {content : Bytes}
    (h : fs.entry p = .ok (.file content)) : fs.listDirectory p = .error .notDirectory := by
  obtain ⟨hp, hway, hg⟩ := entry_eq_ok_iff.1 h
  unfold listDirectory
  rw [locate_eq_ok_iff.2 ⟨hp, hway, rfl⟩]
  simp only [bind, Except.bind, hg]

/-- The names in a directory are those of the entries in it. -/
theorem mem_listDirectory {fs : FileSystem} {p : String} {names : List String}
    (h : fs.listDirectory p = .ok names) {n : String} :
    n ∈ names ↔ fs.tree.get? (n :: fs.place p) ≠ none := by
  obtain ⟨-, rfl⟩ := listDirectory_eq_ok_iff.1 h
  exact mem_childNames

/-- The names in a directory are in strictly ascending order. -/
theorem pairwise_listDirectory {fs : FileSystem} {p : String} {names : List String}
    (h : fs.listDirectory p = .ok names) : names.Pairwise (· < ·) := by
  obtain ⟨-, rfl⟩ := listDirectory_eq_ok_iff.1 h
  exact pairwise_childNames _ _

/-- **In a directory whose path goes down, a look-up of a name finds what is at its location.** -/
theorem entry_join_iff {dir name : String} (hdir : GoesDown dir) (hname : Path.IsName name)
    {fs : FileSystem} {e : Entry} :
    fs.entry (Path.join dir name) = .ok e ↔
      IsPath (Path.join dir name) ∧ fs.tree.get? (name :: fs.place dir) = some e := by
  rw [entry_eq_ok_iff, way_join hname, place_join hname]
  refine and_congr_right fun _ => ⟨And.right, fun hg => ⟨fun k hk => ?_, hg⟩⟩
  have habove : AtOrBelow k (fs.place dir) := atOrBelow_of_mem_trail hdir hk
  refine get?_above hg (habove.trans (.cons name _)) ?_
  rintro rfl
  exact absurd habove.length_le (by simp)

/-- **What is found at the end of a path that goes down is found there as long as the same is at the end.** -/
theorem entry_of_place {fs fs' : FileSystem} {p : String} (hdown : GoesDown p)
    (hw : fs'.workDir = fs.workDir) (h : fs'.tree.get? (fs.place p) = fs.tree.get? (fs.place p)) {e : Entry}
    (he : fs.entry p = .ok e) : fs'.entry p = .ok e := by
  obtain ⟨hp, hway, hg⟩ := entry_eq_ok_iff.1 he
  refine entry_eq_ok_iff.2 ⟨hp, fun k hk => ?_, ?_⟩
  · rw [way_congr hw] at hk
    by_cases hend : k = fs.place p
    · rw [hend, h, ← hend]
      exact hway k hk
    · have habove := atOrBelow_of_mem_trail hdown (way_subset_trail fs p hk)
      exact get?_above (h.trans hg) habove hend
  · rw [place_congr hw]
    exact h.trans hg

/-- The path of a name below a path that goes down goes down. -/
theorem goesDown_join {dir name : String} (hdir : GoesDown dir) (hname : Path.IsName name) :
    GoesDown (Path.join dir name) := by
  unfold GoesDown at hdir ⊢
  rw [segments_join (isPart_of_isName hname), List.mem_append, List.mem_singleton]
  rintro (h | h)
  · exact hdir h
  · exact hname.2.2.1 h.symm

/-! ## Directories with nothing in them -/

/-- The directory is empty, or it is not there yet and its path goes down. -/
def Vacant (fs : FileSystem) (p : String) : Prop :=
  fs.listDirectory p = .ok [] ∨ (GoesDown p ∧ fs.tree.get? (fs.place p) = none)

namespace Vacant

variable {fs : FileSystem} {p : String}

/-- There is nothing below a vacant directory. -/
theorem get?_below (h : fs.Vacant p) {k : Location} (hb : AtOrBelow (fs.place p) k)
    (hne : k ≠ fs.place p) : fs.tree.get? k = none := by
  cases hk : fs.tree.get? k with
  | none => rfl
  | some e =>
    rcases h with hlist | ⟨-, hnone⟩
    · -- What is there at all is seen among the names in the directory.
      obtain ⟨name, hname⟩ := exists_cons_of_below hb hne
      have hpresent : fs.tree.get? (name :: fs.place p) ≠ none := by
        by_cases hend : name :: fs.place p = k
        · rw [hend, hk]
          simp
        · rw [get?_above hk hname hend]
          simp
      exact absurd ((mem_listDirectory hlist).2 hpresent) List.not_mem_nil
    · rw [get?_above hk hb hne.symm] at hnone
      cases hnone

/-- The path of a vacant directory does not lead through anything below it. -/
theorem eq_place_of_mem_trail (h : fs.Vacant p) {k : Location} (hk : k ∈ fs.trail p)
    (hb : AtOrBelow (fs.place p) k) : k = fs.place p := by
  by_cases hne : k = fs.place p
  · exact hne
  · have hnone := h.get?_below hb hne
    rcases h with hlist | ⟨hdown, -⟩
    · have hway := (entry_eq_ok_iff.1 (listDirectory_eq_ok_iff.1 hlist).1).2.1
      have hdirectory := hway k ((mem_trail_iff.1 hk).resolve_left hne)
      rw [hnone] at hdirectory
      cases hdirectory
    · exact (atOrBelow_of_mem_trail hdown hk).antisymm hb

end Vacant

end BackupFleet.FileSystem
