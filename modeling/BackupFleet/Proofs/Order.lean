import BackupFleet.Order

/-!
# `BackupFleet.Proofs.Order` — the one ascending order of a list

Where no two members of a list have one key, there is only one way to put them in ascending order. So two
lists that were sorted are equal as soon as they have the same members.

## Contents

* `eq_of_ascending`, `sortOn_eq_of_perm` — lists in ascending order of keys;
* `eq_of_members`, `eq_of_ascending_of_mem_iff` — lists without repetitions;
* `OrderedMap.mem_entries_iff`, `OrderedMap.mem_keys_iff` — what a map lists;
* `OrderedMap.override`, `OrderedMap.get?_override` — one map on top of another.
-/

namespace BackupFleet

variable {α : Type} {key : α → String}

/-- In strictly ascending order, a key tells its member. -/
theorem eq_of_key_eq {l : List α} (h : l.Pairwise fun a b => key a < key b) :
    ∀ a ∈ l, ∀ b ∈ l, key a = key b → a = b := by
  induction l with
  | nil => exact fun _ ha => absurd ha List.not_mem_nil
  | cons x r ih =>
    obtain ⟨hx, hr⟩ := List.pairwise_cons.1 h
    intro a ha b hb he
    rcases List.mem_cons.1 ha with rfl | har <;> rcases List.mem_cons.1 hb with rfl | hbr
    · rfl
    · exact absurd (he ▸ hx b hbr) (String.lt_irrefl _)
    · exact absurd (he ▸ hx a har) (String.lt_irrefl _)
    · exact ih hr a har b hbr he

/-- **A list that has the members of one in strictly ascending order, and is in order itself, is that
    list.** -/
theorem eq_of_ascending {l m : List α} (hl : l.Pairwise fun a b => key a ≤ key b)
    (hm : m.Pairwise fun a b => key a < key b) (h : l.Perm m) : l = m := by
  have hle : m.Pairwise fun a b => key a ≤ key b := hm.imp fun hlt => Std.le_of_lt hlt
  refine h.eq_of_pairwise (fun a b ha hb hab hba => ?_) hl hle
  exact eq_of_key_eq hm a (h.mem_iff.1 ha) b hb (String.le_antisymm hab hba)

/-- Sorting gives the list that has the members in strictly ascending order, if there is one. -/
theorem sortOn_eq_of_perm {l m : List α} (hm : m.Pairwise fun a b => key a < key b) (h : l.Perm m) :
    sortOn key l = m :=
  eq_of_ascending (pairwise_sortOn key l) hm ((sortOn_perm key l).trans h)

/-- Different names in ascending order are in strictly ascending order. -/
theorem pairwise_lt_of_nodup {l : List String} (hl : l.Pairwise (· ≤ ·)) (hnodup : l.Nodup) :
    l.Pairwise (· < ·) := by
  refine hl.imp₂ (fun a b hab hne => ?_) hnodup
  exact Std.lt_of_le_of_ne hab hne

/-- In strictly ascending order, no member occurs twice. -/
theorem nodup_of_ascending {l : List α} (h : l.Pairwise fun a b => key a < key b) : l.Nodup :=
  h.imp fun hlt he => Std.ne_of_lt hlt (congrArg key he)

/-- **A list in strictly ascending order is told by its members.** -/
theorem eq_of_members {l m : List α} (hl : l.Pairwise fun a b => key a < key b)
    (hm : m.Pairwise fun a b => key a < key b) (h : ∀ x, x ∈ l ↔ x ∈ m) : l = m := by
  have hperm : l.Perm m :=
    (List.perm_ext_iff_of_nodup (nodup_of_ascending hl) (nodup_of_ascending hm)).2 h
  exact eq_of_ascending (hl.imp fun hlt => Std.le_of_lt hlt) hm hperm

/-- **Names in strictly ascending order are told by which names they are.** -/
theorem eq_of_ascending_of_mem_iff {l m : List String} (hl : l.Pairwise (· < ·))
    (hm : m.Pairwise (· < ·)) (h : ∀ n, n ∈ l ↔ n ∈ m) : l = m := by
  have hl' : l.Pairwise fun a b => id a < id b := hl
  exact eq_of_members hl' hm h

/-! ## The listing of a map -/

namespace OrderedMap

variable {β : Type} {m : OrderedMap β}

theorem nodup_keys (m : OrderedMap β) : m.keys.Nodup := by
  refine List.pairwise_map.2 (m.ascending.imp fun hlt he => ?_)
  exact String.lt_irrefl _ (he ▸ hlt)

/-- A map lists what it maps. -/
theorem mem_entries_iff {k : String} {v : β} : (k, v) ∈ m.entries ↔ m.get? k = some v :=
  ⟨lookup_of_mem m.nodup_keys, mem_of_lookup⟩

/-- A key of a map is a string that the map knows. -/
theorem mem_keys_iff {k : String} : k ∈ m.keys ↔ (m.get? k).isSome := by
  rw [Option.isSome_iff_exists]
  constructor
  · intro hk
    obtain ⟨⟨_, v⟩, he, rfl⟩ := List.mem_map.1 hk
    exact ⟨v, mem_entries_iff.1 he⟩
  · rintro ⟨v, hv⟩
    exact List.mem_map.2 ⟨(k, v), mem_entries_iff.2 hv, rfl⟩

/-! ## One map on top of another -/

/-- `m` with all that `n` maps; for a key of both, `n` counts. -/
def override (m n : OrderedMap β) : OrderedMap β := n.entries.foldl (fun m e => m.insert e.1 e.2) m

/-- Inserting pairs with different keys one after the other: a key has the value it is listed with, or the
    one that it had before. -/
theorem get?_foldl_insert {l : List (String × β)} (nodup : (l.map (·.1)).Nodup) (k : String) :
    (l.foldl (fun m e => m.insert e.1 e.2) m).get? k = (l.lookup k).or (m.get? k) := by
  induction l generalizing m with
  | nil => rfl
  | cons e r ih =>
    obtain ⟨hnew, hr⟩ := List.nodup_cons.1 nodup
    rw [List.foldl_cons, ih hr, get?_insert, List.lookup_cons]
    by_cases hk : k = e.1
    · have hnone : r.lookup k = none := by
        refine List.lookup_eq_none_iff.2 fun d hd => bne_iff_ne.2 fun he => hnew ?_
        exact List.mem_map.2 ⟨d, hd, by rw [← he, hk]⟩
      rw [hnone, if_pos hk, hk, beq_self_eq_true]
      rfl
    · rw [if_neg hk, beq_false_of_ne hk]

@[simp] theorem get?_override (m n : OrderedMap β) (k : String) :
    (m.override n).get? k = (n.get? k).or (m.get? k) :=
  get?_foldl_insert n.nodup_keys k

end OrderedMap

end BackupFleet
