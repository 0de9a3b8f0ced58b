import BackupFleet.Proofs.Config.Layout
import BackupFleet.Proofs.Config.Sources

/-!
# `BackupFleet.Proofs.Config.Conflict` — what it means that no conflict was found

The search goes through the places of all servers in order and compares each with the ones before. It
finds nothing iff no two places have the same components, so for two servers of a configuration that was
loaded without a conflict, no option of the one is set to a path of the other.

## Contents

* `conflictsAfter_eq_nil_iff`, `findConflicts_eq_nil_iff` — the search;
* `conflicts_of_load`, `not_sameComponents_of_load` — a configuration that was loaded.
-/

namespace BackupFleet

/-! ## The search -/

/-- **No conflict is found iff no place has the components of one before it.** -/
theorem conflictsAfter_eq_nil_iff {seen l : List Place} :
    conflictsAfter seen l = [] ↔
      (∀ p ∈ l, ∀ q ∈ seen, ¬Path.SameComponents q.path p.path) ∧
        l.Pairwise fun p q => ¬Path.SameComponents p.path q.path := by
  induction l generalizing seen with
  | nil => simp [conflictsAfter]
  | cons p r ih =>
    rw [conflictsAfter]
    cases hfind : seen.find? (fun q => Path.SameComponents q.path p.path) with
    | some q =>
      have hsame : Path.SameComponents q.path p.path := by simpa using List.find?_some hfind
      refine iff_of_false (by simp) fun h => ?_
      exact h.1 p List.mem_cons_self q (List.mem_of_find?_eq_some hfind) hsame
    | none =>
      have hnone : ∀ q ∈ seen, ¬Path.SameComponents q.path p.path := by
        simpa using List.find?_eq_none.1 hfind
      dsimp only
      rw [ih, List.forall_mem_cons, List.pairwise_cons]
      constructor
      · rintro ⟨hseen, hr⟩
        refine ⟨⟨hnone, fun x hx q hq => hseen x hx q (List.mem_append_left _ hq)⟩, fun x hx => ?_, hr⟩
        exact hseen x hx p (by simp)
      · rintro ⟨⟨-, hseen⟩, hp, hr⟩
        refine ⟨fun x hx q hq => ?_, hr⟩
        rcases List.mem_append.1 hq with hq | hq
        · exact hseen x hx q hq
        · obtain rfl := List.mem_singleton.1 hq
          exact hp x hx

theorem findConflicts_eq_nil_iff {servers : List ServerConfig} :
    findConflicts servers = [] ↔
      (servers.flatMap ServerConfig.places).Pairwise fun p q => ¬Path.SameComponents p.path q.path := by
  unfold findConflicts
  rw [conflictsAfter_eq_nil_iff]
  simp

/-- **Without a conflict, no two servers have an option set to the same path.** -/
theorem not_sameComponents_of_findConflicts {servers : List ServerConfig}
    (h : findConflicts servers = []) {a b : ServerConfig} (ha : a ∈ servers) (hb : b ∈ servers)
    (hne : a ≠ b) {p q : Place} (hp : p ∈ a.places) (hq : q ∈ b.places) :
    ¬Path.SameComponents p.path q.path := by
  have hpairs := (List.pairwise_flatMap.1 (findConflicts_eq_nil_iff.1 h)).2
  have hsymm : ∀ c d : ServerConfig,
      (∀ x ∈ c.places, ∀ y ∈ d.places, ¬Path.SameComponents x.path y.path) →
      ∀ x ∈ d.places, ∀ y ∈ c.places, ¬Path.SameComponents x.path y.path :=
    fun c d h x hx y hy hsame => h y hy x hx hsame.symm
  exact forall_of_pairwise hsymm hpairs a ha b hb hne p hp q hq

/-! ## A configuration that was loaded -/

/-- The conflicts of a loaded configuration are those among its servers. -/
theorem conflicts_of_load {fs : FileSystem} {path : String} {f : Fleet} (h : Fleet.load fs path = .ok f) :
    f.conflicts = (findConflicts f.servers).map Conflict.message := by
  obtain ⟨s, -, rfl⟩ := load_eq_ok_iff.1 h
  rfl

/-- The directories of a server are paths of its options. -/
theorem exists_place_of_mem_storagePaths {c : ServerConfig} {p : String} (hp : p ∈ c.storagePaths) :
    ∃ q ∈ c.places, q.path = p := by
  unfold ServerConfig.storagePaths at hp
  simp only [List.mem_cons, List.not_mem_nil, or_false] at hp
  unfold ServerConfig.places ServerConfig.paths
  rcases hp with rfl | rfl | rfl <;> simp

/-- **In a configuration that was loaded without a conflict, the directories of two servers have different
    components.** -/
theorem not_sameComponents_of_load {fs : FileSystem} {path : String} {f : Fleet}
    (h : Fleet.load fs path = .ok f) (hnone : f.conflicts = []) {a b : ServerConfig}
    (ha : a ∈ f.servers) (hb : b ∈ f.servers) (hne : a ≠ b) {p q : String} (hp : p ∈ a.storagePaths)
    (hq : q ∈ b.storagePaths) : ¬Path.SameComponents p q := by
  have hfound : findConflicts f.servers = [] := by
    rw [conflicts_of_load h] at hnone
    exact List.map_eq_nil_iff.1 hnone
  obtain ⟨x, hx, rfl⟩ := exists_place_of_mem_storagePaths hp
  obtain ⟨y, hy, rfl⟩ := exists_place_of_mem_storagePaths hq
  exact not_sameComponents_of_findConflicts hfound ha hb hne hx hy

end BackupFleet
