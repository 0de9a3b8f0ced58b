import BackupFleet.Catalog.Identifier

/-!
# `BackupFleet.Proofs.Catalog.Identifier` — what an identifier is resolved to

An identifier means an id, and is resolved by looking that id up. Whatever look-up it is, nothing else of it
matters.

## Contents

* `resolve_of_id`, `resolve_of_none`, `resolve_of_fault` — by what the identifier means;
* `exists_of_resolve`, `resolve_congr` — what is found, and what it depends on;
* `read_of_not_alias` — texts that mean themselves.
-/

namespace BackupFleet.Catalog.Identifier

variable {ε α : Type} {l l' : Lookup ε α} {i : Identifier}

theorem resolve_of_id {id : String} (h : i.id? l = .ok (some id)) : i.resolve l = l.get id := by
  rw [resolve, h]
  rfl

theorem resolve_of_none (h : i.id? l = .ok none) : i.resolve l = .ok none := by
  rw [resolve, h]
  rfl

theorem resolve_of_fault {e : ε} (h : i.id? l = .error e) : i.resolve l = .error e := by
  rw [resolve, h]
  rfl

/-- A backup is found under the id that is meant. -/
theorem exists_of_resolve {r : α} (h : i.resolve l = .ok (some r)) :
    ∃ id, i.id? l = .ok (some id) ∧ l.get id = .ok (some r) := by
  cases hmeant : i.id? l with
  | error e =>
    rw [resolve_of_fault hmeant] at h
    cases h
  | ok meant =>
    cases meant with
    | none =>
      rw [resolve_of_none hmeant] at h
      cases h
    | some id => exact ⟨id, rfl, (resolve_of_id hmeant).symm.trans h⟩

/-- **An identifier depends on the id that it means, and on the look-up of that id.** -/
theorem resolve_congr (hid : i.id? l' = i.id? l)
    (hget : ∀ id, i.id? l = .ok (some id) → l'.get id = l.get id) : i.resolve l' = i.resolve l := by
  cases hmeant : i.id? l with
  | error e => rw [resolve_of_fault hmeant, resolve_of_fault (hid.trans hmeant)]
  | ok meant =>
    cases meant with
    | none => rw [resolve_of_none hmeant, resolve_of_none (hid.trans hmeant)]
    | some id => rw [resolve_of_id hmeant, resolve_of_id (hid.trans hmeant), hget id hmeant]

/-- A text that is no alias means itself. -/
theorem read_of_not_alias {s : String} (h : s ∉ ["latest", "last", "oldest", "first"]) :
    read s = .literal s := by
  simp only [List.mem_cons, List.not_mem_nil, or_false, not_or] at h
  obtain ⟨hlatest, hlast, holdest, hfirst⟩ := h
  rw [read, if_neg (not_or.2 ⟨hlatest, hlast⟩), if_neg (not_or.2 ⟨holdest, hfirst⟩)]

end BackupFleet.Catalog.Identifier
