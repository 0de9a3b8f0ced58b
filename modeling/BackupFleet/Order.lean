/-!
# `BackupFleet.Order` — ascending lists and maps

Reports list servers, backups and files in ascending order of their names, whatever order they were
given or found in. `sortOn` puts any list into that order; `OrderedMap` is a map that is in it by
construction, so what a caller sees of a map depends only on which keys are mapped to what
(`OrderedMap.ext_get?`).

Strings are ordered by code points, which is also the order of their UTF-8 bytes.

## Contents

* `insertOn`, `sortOn` — stable insertion sort by a string key;
* `lookup_filter`, `mem_of_lookup`, `lookup_of_mem` — look-ups in lists of pairs;
* `OrderedMap`, `get?`, `insert`, `ofList`, `keys` — maps with string keys;
* `OrderedMap.ext_get?` — a map is what its keys are mapped to.
-/

namespace BackupFleet

/-! ## Sorting by a key -/

section Sorting

variable {α : Type}

/-- `x` put before the first element whose key is not smaller. -/
def insertOn (key : α → String) (x : α) : List α → List α
  | [] => [x]
  | y :: r => if key x ≤ key y then x :: y :: r else y :: insertOn key x r

/-- `l` in ascending order of keys; elements with equal keys keep their order. -/
def sortOn (key : α → String) : List α → List α
  | [] => []
  | x :: r => insertOn key x (sortOn key r)

theorem insertOn_perm (key : α → String) (x : α) (l : List α) : (insertOn key x l).Perm (x :: l) := by
  induction l with
  | nil => exact .refl _
  | cons y r ih =>
    rw [insertOn]
    split
    · exact .refl _
    · exact (ih.cons y).trans (.swap x y r)

theorem sortOn_perm (key : α → String) (l : List α) : (sortOn key l).Perm l := by
  induction l with
  | nil => exact .refl _
  | cons x r ih => exact (insertOn_perm key x _).trans (ih.cons x)

@[simp] theorem mem_sortOn {key : α → String} {l : List α} {x : α} : x ∈ sortOn key l ↔ x ∈ l :=
  (sortOn_perm key l).mem_iff

@[simp] theorem length_sortOn (key : α → String) (l : List α) : (sortOn key l).length = l.length :=
  (sortOn_perm key l).length_eq

theorem pairwise_insertOn {key : α → String} {x : α} {l : List α}
    (h : l.Pairwise fun a b => key a ≤ key b) :
    (insertOn key x l).Pairwise fun a b => key a ≤ key b := by
  induction l with
  | nil => simp [insertOn]
  | cons y r ih =>
    rw [insertOn]
    have hy := List.pairwise_cons.1 h
    split
    · rename_i hxy
      refine List.pairwise_cons.2 ⟨fun z hz => ?_, h⟩
      rcases List.mem_cons.1 hz with rfl | hz
      · exact hxy
      · exact String.le_trans hxy (hy.1 z hz)
    · rename_i hxy
      refine List.pairwise_cons.2 ⟨fun z hz => ?_, ih hy.2⟩
      rcases List.mem_cons.1 ((insertOn_perm key x r).mem_iff.1 hz) with rfl | hz
      · exact (String.le_total _ _).resolve_left hxy
      · exact hy.1 z hz

/-- The result is in ascending order of keys. -/
theorem pairwise_sortOn (key : α → String) (l : List α) :
    (sortOn key l).Pairwise fun a b => key a ≤ key b := by
  induction l with
  | nil => exact .nil
  | cons x r ih => exact pairwise_insertOn ih

end Sorting

/-! ## Look-ups in lists of pairs -/

/-- In the pairs whose keys have a property, these keys are found as in all pairs, and no other ones. -/
theorem lookup_filter {α β : Type} [BEq α] [LawfulBEq α] (p : α → Bool) (k : α) (l : List (α × β)) :
    (l.filter fun e => p e.1).lookup k = if p k then l.lookup k else none := by
  induction l with
  | nil => simp
  | cons e r ih =>
    obtain ⟨a, b⟩ := e
    rw [List.filter_cons, List.lookup_cons]
    by_cases hk : k = a
    · subst hk
      cases hp : p k <;> simp [hp, ih]
    · rw [beq_false_of_ne hk]
      by_cases hp : p a
      · rw [if_pos hp, List.lookup_cons, beq_false_of_ne hk, ih]
      · rw [if_neg hp, ih]

/-- What is found is in the list. -/
theorem mem_of_lookup {α β : Type} [BEq α] [LawfulBEq α] {k : α} {v : β} {l : List (α × β)}
    (h : l.lookup k = some v) : (k, v) ∈ l := by
  obtain ⟨before, after, rfl, -⟩ := List.lookup_eq_some_iff.1 h
  exact List.mem_append_right _ List.mem_cons_self

/-- Where no two pairs have one key, what is in the list is found. -/
theorem lookup_of_mem {α β : Type} [BEq α] [LawfulBEq α] {k : α} {v : β} {l : List (α × β)}
    (nodup : (l.map (·.1)).Nodup) (h : (k, v) ∈ l) : l.lookup k = some v := by
  obtain ⟨before, after, rfl⟩ := List.append_of_mem h
  refine List.lookup_eq_some_iff.2 ⟨before, after, rfl, fun e he => bne_iff_ne.2 fun hk => ?_⟩
  rw [List.map_append, List.map_cons, List.nodup_append] at nodup
  exact nodup.2.2 _ (List.mem_map.2 ⟨e, he, rfl⟩) _ List.mem_cons_self hk.symm

/-! ## Maps in ascending order of keys -/

/-- A map from strings, listed in strictly ascending order of keys. -/
structure OrderedMap (β : Type) where
  entries : List (String × β)
  ascending : entries.Pairwise fun a b => a.1 < b.1

namespace OrderedMap

variable {β : Type}

instance [DecidableEq β] : DecidableEq (OrderedMap β) := fun a b =>
  decidable_of_iff (a.entries = b.entries) ⟨fun h => by cases a; cases b; simpa using h, fun h => h ▸ rfl⟩

/-- The map without keys. -/
def empty : OrderedMap β := ⟨[], .nil⟩

instance : EmptyCollection (OrderedMap β) := ⟨empty⟩

instance : Inhabited (OrderedMap β) := ⟨empty⟩

/-- What `k` is mapped to. -/
def get? (m : OrderedMap β) (k : String) : Option β := m.entries.lookup k

/-- The keys, ascending. -/
def keys (m : OrderedMap β) : List String := m.entries.map (·.1)

/-- The values, in ascending order of keys. -/
def values (m : OrderedMap β) : List β := m.entries.map (·.2)

/-- Whether `k` is mapped. -/
def contains (m : OrderedMap β) (k : String) : Bool := (m.get? k).isSome

/-- The listing of a map with `k` mapped to `v`. -/
def insertEntry (k : String) (v : β) : List (String × β) → List (String × β)
  | [] => [(k, v)]
  | e :: r =>
    if k < e.1 then (k, v) :: e :: r
    else if e.1 < k then e :: insertEntry k v r
    else (k, v) :: r

theorem mem_insertEntry {k : String} {v : β} {e : String × β} {l : List (String × β)}
    (h : e ∈ insertEntry k v l) : e = (k, v) ∨ e ∈ l := by
  induction l with
  | nil => simpa [insertEntry] using h
  | cons f r ih =>
    rw [insertEntry] at h
    split at h
    · simpa using h
    split at h
    · rcases List.mem_cons.1 h with rfl | h
      · exact .inr List.mem_cons_self
      · exact (ih h).imp_right (List.mem_cons_of_mem _)
    · rcases List.mem_cons.1 h with h | h
      · exact .inl h
      · exact .inr (List.mem_cons_of_mem _ h)

theorem pairwise_insertEntry {k : String} {v : β} {l : List (String × β)}
    (h : l.Pairwise fun a b => a.1 < b.1) :
    (insertEntry k v l).Pairwise fun a b => a.1 < b.1 := by
  induction l with
  | nil => simp [insertEntry]
  | cons f r ih =>
    have hf := List.pairwise_cons.1 h
    rw [insertEntry]
    split
    · rename_i hk
      refine List.pairwise_cons.2 ⟨fun z hz => ?_, h⟩
      rcases List.mem_cons.1 hz with rfl | hz
      · exact hk
      · exact String.lt_trans hk (hf.1 z hz)
    split
    · rename_i hk
      refine List.pairwise_cons.2 ⟨fun z hz => ?_, ih hf.2⟩
      rcases mem_insertEntry hz with rfl | hz
      · exact hk
      · exact hf.1 z hz
    · rename_i h1 h2
      have hkf : k = f.1 := String.le_antisymm (String.not_lt.1 h2) (String.not_lt.1 h1)
      exact List.pairwise_cons.2 ⟨fun z hz => hkf ▸ hf.1 z hz, hf.2⟩

/-- `m` with `k` mapped to `v`. -/
def insert (m : OrderedMap β) (k : String) (v : β) : OrderedMap β :=
  ⟨insertEntry k v m.entries, pairwise_insertEntry m.ascending⟩

/-- The map of a list of pairs; of two pairs with one key the later counts. -/
def ofList (l : List (String × β)) : OrderedMap β := l.foldl (fun m e => m.insert e.1 e.2) empty

@[simp] theorem get?_empty (k : String) : (empty : OrderedMap β).get? k = none := rfl

theorem lookup_insertEntry {k k' : String} {v : β} {l : List (String × β)}
    (h : l.Pairwise fun a b => a.1 < b.1) :
    (insertEntry k v l).lookup k' = if k' = k then some v else l.lookup k' := by
  induction l with
  | nil =>
    by_cases hk : k' = k
    · simp [insertEntry, hk]
    · simp [insertEntry, List.lookup_cons, beq_false_of_ne hk, hk]
  | cons f r ih =>
    have hf := List.pairwise_cons.1 h
    rw [insertEntry]
    split
    · by_cases hk : k' = k
      · simp [hk]
      · simp only [List.lookup_cons, beq_false_of_ne hk, hk, if_false]
    split
    · rename_i h1 h2
      rw [List.lookup_cons, List.lookup_cons, ih hf.2]
      by_cases hkf : k' = f.1
      · have : k' ≠ k := fun hk => String.lt_irrefl k (by rw [← hk] at h2 ⊢; rwa [← hkf] at h2)
        simp [hkf, hkf ▸ this]
      · simp [beq_false_of_ne hkf]
    · rename_i h1 h2
      have hkf : k = f.1 := String.le_antisymm (String.not_lt.1 h2) (String.not_lt.1 h1)
      rw [List.lookup_cons, List.lookup_cons]
      by_cases hk : k' = k
      · simp [hk]
      · have hkf' : k' ≠ f.1 := hkf ▸ hk
        simp [hk, beq_false_of_ne hk, beq_false_of_ne hkf']

@[simp] theorem get?_insert (m : OrderedMap β) (k k' : String) (v : β) :
    (m.insert k v).get? k' = if k' = k then some v else m.get? k' :=
  lookup_insertEntry m.ascending

theorem lookup_eq_none_of_lt {k : String} {l : List (String × β)} (h : ∀ e ∈ l, k < e.1) :
    l.lookup k = none := by
  induction l with
  | nil => rfl
  | cons f r ih =>
    have hk : k ≠ f.1 := fun e => String.lt_irrefl k (by simpa [← e] using h f List.mem_cons_self)
    rw [List.lookup_cons, beq_false_of_ne hk]
    exact ih fun e he => h e (List.mem_cons_of_mem _ he)

/-- Listings in strictly ascending order with the same look-ups are the same. -/
theorem eq_of_lookup_eq {l m : List (String × β)} (hl : l.Pairwise fun a b => a.1 < b.1)
    (hm : m.Pairwise fun a b => a.1 < b.1) (h : ∀ k, l.lookup k = m.lookup k) : l = m := by
  induction l generalizing m with
  | nil =>
    cases m with
    | nil => rfl
    | cons f s =>
      obtain ⟨b, w⟩ := f
      have hb := h b
      simp at hb
  | cons e r ih =>
    cases m with
    | nil =>
      obtain ⟨a, v⟩ := e
      have ha := h a
      simp at ha
    | cons f s =>
      obtain ⟨a, v⟩ := e
      obtain ⟨b, w⟩ := f
      have he := List.pairwise_cons.1 hl
      have hf := List.pairwise_cons.1 hm
      have hba : ¬a < b := fun hlt => by
        have hn : ((b, w) :: s).lookup a = none := lookup_eq_none_of_lt fun e he => by
          rcases List.mem_cons.1 he with rfl | he
          · exact hlt
          · exact String.lt_trans hlt (hf.1 e he)
        have ha := h a
        simp [hn] at ha
      have hab : ¬b < a := fun hlt => by
        have hn : ((a, v) :: r).lookup b = none := lookup_eq_none_of_lt fun e hm => by
          rcases List.mem_cons.1 hm with rfl | hm
          · exact hlt
          · exact String.lt_trans hlt (he.1 e hm)
        have hb := h b
        simp [hn] at hb
      obtain rfl : a = b := String.le_antisymm (String.not_lt.1 hab) (String.not_lt.1 hba)
      have hv : v = w := by simpa using h a
      have hrest : r = s := ih he.2 hf.2 fun k => by
        by_cases hk : k = a
        · rw [hk, lookup_eq_none_of_lt he.1, lookup_eq_none_of_lt hf.1]
        · simpa [List.lookup_cons, beq_false_of_ne hk] using h k
      rw [hrest, hv]

/-- A map is what its keys are mapped to. -/
theorem ext_get? {m n : OrderedMap β} (h : ∀ k, m.get? k = n.get? k) : m = n := by
  obtain ⟨l, hl⟩ := m
  obtain ⟨l', hl'⟩ := n
  obtain rfl : l = l' := eq_of_lookup_eq hl hl' h
  rfl

end OrderedMap

end BackupFleet
