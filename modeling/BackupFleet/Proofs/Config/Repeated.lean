import Mathlib.Data.Finset.Card
import Mathlib.Data.List.Forall2
import BackupFleet.Proofs.Config.Conflict

/-!
# `BackupFleet.Proofs.Config.Repeated` — which conflicts are found

The search keeps the first place of every path that it came across, and compares each further place with
those. A path that occurred before is found at the first place that has it, so keeping one place of each path
is as good as keeping all of them (`StandsFor`). The conflicts are therefore the places whose path occurred
before, one for each and in their order, however many places share a path and whichever servers they are of.

Main statement: `conflicts_are_repeated_paths`.

## Contents

* `FirstAt`, `OccursAgain`, `ConflictAt` — places by their positions;
* `holder?`, `StandsFor` — what is kept of the places before;
* `exists_positions`, `length_conflictsAfter` — what the search finds, and how much;
* `conflicts_are_repeated_paths` — the conflicts of a configuration.
-/

namespace BackupFleet

/-! ## Positions -/

/-- `q`, at position `j`, is the first of the places with the components of `path`. -/
structure FirstAt (l : List Place) (path : String) (j : Nat) (q : Place) : Prop where
  place : l[j]? = some q
  same : Path.SameComponents q.path path
  first : ∀ k < j, ∀ p, l[k]? = some p → ¬Path.SameComponents p.path path

/-- The place at position `i` has the components of a place before it. -/
def OccursAgain (l : List Place) (i : Nat) : Prop :=
  ∃ p, l[i]? = some p ∧ ∃ j < i, ∃ q, l[j]? = some q ∧ Path.SameComponents q.path p.path

/-- The conflict is between the place at position `i` and the first place with its components, which stands
    before it. -/
def ConflictAt (l : List Place) (i : Nat) (c : Conflict) : Prop :=
  l[i]? = some c.later ∧ ∃ j < i, FirstAt l c.later.path j c.earlier

/-- The first place of some stays the first one where more places follow. -/
theorem FirstAt.append {l : List Place} {path : String} {j : Nat} {q : Place} (h : FirstAt l path j q)
    (r : List Place) : FirstAt (l ++ r) path j q := by
  obtain ⟨hj, -⟩ := List.getElem?_eq_some_iff.1 h.place
  refine ⟨?_, h.same, fun k hk p hp => h.first k hk p ?_⟩
  · rw [List.getElem?_append_left hj, h.place]
  · rwa [List.getElem?_append_left (hk.trans hj)] at hp

/-! ## What is kept of the places before -/

/-- The first place with the components of a path. -/
def holder? (l : List Place) (path : String) : Option Place :=
  l.find? fun q => Path.SameComponents q.path path

theorem firstAt_of_holder? {l : List Place} {path : String} {q : Place} (h : holder? l path = some q) :
    ∃ j < l.length, FirstAt l path j q := by
  obtain ⟨hsame, j, hj, hq, hfirst⟩ := List.find?_eq_some_iff_getElem.1 h
  refine ⟨j, hj, List.getElem?_eq_some_iff.2 ⟨hj, hq⟩, by simpa using hsame, fun k hk p hp => ?_⟩
  obtain ⟨-, rfl⟩ := List.getElem?_eq_some_iff.1 hp
  simpa using hfirst k hk

theorem holder?_eq_none_iff {l : List Place} {path : String} :
    holder? l path = none ↔ ∀ q ∈ l, ¬Path.SameComponents q.path path := by
  simp [holder?]

/-- Two spellings of a path have the same holder. -/
theorem holder?_congr (l : List Place) {path path' : String} (h : Path.SameComponents path path') :
    holder? l path = holder? l path' := by
  have htest : (fun q : Place => decide (Path.SameComponents q.path path))
      = fun q => decide (Path.SameComponents q.path path') :=
    funext fun q => decide_eq_decide.2 ⟨fun hq => hq.trans h, fun hq => hq.trans h.symm⟩
  rw [holder?, htest, holder?]

/-- The places that were kept have the holder of any path among all places before. -/
def StandsFor (seen before : List Place) : Prop := ∀ path, holder? seen path = holder? before path

theorem standsFor_nil : StandsFor [] [] := fun _ => rfl

/-- A place of a new path is kept. -/
theorem StandsFor.keep {seen before : List Place} (h : StandsFor seen before) (p : Place) :
    StandsFor (seen ++ [p]) (before ++ [p]) := by
  intro path
  have := h path
  unfold holder? at *
  rw [List.find?_append, List.find?_append, this]

/-- A place whose path has a holder need not be kept. -/
theorem StandsFor.drop {seen before : List Place} (h : StandsFor seen before) {p q : Place}
    (hq : holder? seen p.path = some q) : StandsFor seen (before ++ [p]) := by
  intro path
  have hlast : holder? (before ++ [p]) path = (holder? before path).or (holder? [p] path) :=
    List.find?_append
  rw [hlast, ← h path]
  -- A path of the components of `p` has the holder `q` already, and any other path is not held by `p`.
  by_cases hsame : Path.SameComponents p.path path
  · rw [← holder?_congr seen hsame, hq, Option.some_or]
  · have hnone : holder? [p] path = none := holder?_eq_none_iff.2 (by simpa using hsame)
    rw [hnone, Option.or_none]

/-! ## The search -/

/-- A place that follows others has the path of one of them iff that path has a holder among them. -/
theorem occursAgain_append_iff {before r : List Place} {p : Place} :
    OccursAgain (before ++ p :: r) before.length ↔ holder? before p.path ≠ none := by
  have hplace : (before ++ p :: r)[before.length]? = some p := by simp
  unfold OccursAgain
  rw [hplace, Ne, holder?_eq_none_iff]
  push Not
  constructor
  · rintro ⟨_, ⟨⟩, j, hj, q, hq, hsame⟩
    rw [List.getElem?_append_left hj] at hq
    exact ⟨q, List.mem_of_getElem? hq, hsame⟩
  · rintro ⟨q, hq, hsame⟩
    obtain ⟨j, hj, hget⟩ := List.getElem_of_mem hq
    refine ⟨p, rfl, j, hj, q, ?_, hsame⟩
    rw [List.getElem?_append_left hj, List.getElem?_eq_some_iff]
    exact ⟨hj, hget⟩

/-- From a position on, a property holds there or later. -/
theorem le_and_iff {P : Nat → Prop} {n i : Nat} : n ≤ i ∧ P i ↔ (i = n ∧ P n) ∨ (n + 1 ≤ i ∧ P i) := by
  constructor
  · rintro ⟨hi, hP⟩
    rcases Nat.eq_or_lt_of_le hi with rfl | hlt
    · exact .inl ⟨rfl, hP⟩
    · exact .inr ⟨hlt, hP⟩
  · rintro (⟨rfl, hP⟩ | ⟨hi, hP⟩)
    · exact ⟨le_rfl, hP⟩
    · exact ⟨Nat.le_of_succ_le hi, hP⟩

/-- **The search finds one conflict at each position whose path occurred before, in their order.** -/
theorem exists_positions {seen before l : List Place} (h : StandsFor seen before) :
    ∃ positions : List Nat, positions.Pairwise (· < ·) ∧
      (∀ i, i ∈ positions ↔ before.length ≤ i ∧ OccursAgain (before ++ l) i) ∧
      List.Forall₂ (ConflictAt (before ++ l)) positions (conflictsAfter seen l) := by
  -- By induction on the places that are still to come; what is kept stands for the places before all along.
  induction l generalizing seen before with
  | nil =>
    refine ⟨[], .nil, fun i => ?_, .nil⟩
    simp only [List.not_mem_nil, List.append_nil, false_iff, not_and]
    rintro hi ⟨p, hp, -⟩
    rw [List.getElem?_eq_none hi] at hp
    cases hp
  | cons p r ih =>
    have hrest : before ++ p :: r = (before ++ [p]) ++ r := by simp
    have hlength : (before ++ [p]).length = before.length + 1 := by simp
    have hagain : OccursAgain (before ++ p :: r) before.length ↔ holder? before p.path ≠ none :=
      occursAgain_append_iff
    rw [conflictsAfter]
    cases hfind : seen.find? (fun q => Path.SameComponents q.path p.path) with
    | some q =>
      -- The position of `p` comes before those of the rest, and `q` is the first of its path among all before.
      obtain ⟨positions, hascending, hmem, htold⟩ := ih (h.drop hfind)
      rw [← hrest, hlength] at hmem
      rw [← hrest] at htold
      have hholder : holder? before p.path = some q := (h p.path).symm.trans hfind
      obtain ⟨j, hj, hfirst⟩ := firstAt_of_holder? hholder
      have hconflict : ConflictAt (before ++ p :: r) before.length ⟨p, q⟩ :=
        ⟨by simp, j, hj, hfirst.append _⟩
      refine ⟨before.length :: positions, List.pairwise_cons.2 ⟨?_, hascending⟩, ?_, .cons hconflict htold⟩
      · intro i hi
        exact ((hmem i).1 hi).1
      · intro i
        rw [List.mem_cons, hmem, le_and_iff (n := before.length), hagain, hholder]
        simp
    | none =>
      obtain ⟨positions, hascending, hmem, htold⟩ := ih (h.keep p)
      rw [← hrest, hlength] at hmem
      rw [← hrest] at htold
      have hholder : holder? before p.path = none := (h p.path).symm.trans hfind
      refine ⟨positions, hascending, fun i => ?_, htold⟩
      rw [hmem, le_and_iff (n := before.length), hagain, hholder]
      simp

/-- The different paths of places, each as its components. -/
def pathsOf (l : List Place) : Finset (List String) := (l.map fun p => Path.components p.path).toFinset

/-- **Each place is the first one of its path or has a conflict.** -/
theorem length_conflictsAfter (seen l : List Place) :
    (conflictsAfter seen l).length + (pathsOf (seen ++ l)).card = (pathsOf seen).card + l.length := by
  -- A place of a path that was seen adds one conflict, a place of a new path one path to what was seen.
  induction l generalizing seen with
  | nil => simp [conflictsAfter]
  | cons p r ih =>
    have hpaths : pathsOf (seen ++ p :: r) = insert (Path.components p.path) (pathsOf (seen ++ r)) := by
      simp [pathsOf]
    rw [conflictsAfter]
    cases hfind : seen.find? (fun q => Path.SameComponents q.path p.path) with
    | some q =>
      have hsame : Path.SameComponents q.path p.path := by simpa using List.find?_some hfind
      have hmem : Path.components p.path ∈ pathsOf (seen ++ r) := by
        refine List.mem_toFinset.2 (List.mem_map.2 ⟨q, ?_, hsame⟩)
        exact List.mem_append_left _ (List.mem_of_find?_eq_some hfind)
      have := ih seen
      rw [hpaths, Finset.insert_eq_of_mem hmem, List.length_cons, List.length_cons]
      omega
    | none =>
      have hfresh : Path.components p.path ∉ pathsOf seen := by
        intro hmem
        obtain ⟨q, hq, hsame⟩ := List.mem_map.1 (List.mem_toFinset.1 hmem)
        exact holder?_eq_none_iff.1 hfind q hq hsame
      have hseen : pathsOf (seen ++ [p]) = insert (Path.components p.path) (pathsOf seen) := by
        simp [pathsOf]
      have := ih (seen ++ [p])
      rw [hseen, Finset.card_insert_of_notMem hfresh, List.append_assoc, List.singleton_append] at this
      dsimp only
      rw [List.length_cons]
      omega

theorem length_places (servers : List ServerConfig) :
    (servers.flatMap ServerConfig.places).length = 4 * servers.length := by
  induction servers with
  | nil => rfl
  | cons c r ih =>
    have hfour : c.places.length = 4 := rfl
    rw [List.flatMap_cons, List.length_append, ih, hfour, List.length_cons]
    omega

/-! ## The conflicts of a configuration -/

/-- **The conflicts are the places whose path occurred before.** Go through the servers in order and through
    the four options of each, which makes four places for a server. Nothing is told iff all paths are
    different; there are as many conflicts as places beyond the number of different paths; and for each place
    whose path occurred before, of the same server or of another one, exactly one message is told, which names
    that place and the first place with its path. Paths are the same if their components are. A configuration
    that is loaded has its servers in ascending order and these conflicts. -/
theorem conflicts_are_repeated_paths :
    (∀ (settings : Settings) (servers : List ServerConfig),
      let f := Fleet.ofServers settings servers
      let l := servers.flatMap ServerConfig.places
      (f.conflicts = [] ↔ l.Pairwise fun p q => ¬Path.SameComponents p.path q.path) ∧
      f.conflicts.length + (l.map fun p => Path.components p.path).toFinset.card = 4 * servers.length ∧
      ∃ positions : List Nat, positions.Pairwise (· < ·) ∧ (∀ i, i ∈ positions ↔ OccursAgain l i) ∧
        List.Forall₂ (fun i text => ∃ c, ConflictAt l i c ∧ text = c.message) positions f.conflicts) ∧
    ∀ (fs : FileSystem) (path : String) (f : Fleet), Fleet.load fs path = .ok f →
      f.servers.Pairwise (fun a b => a.name < b.name) ∧ f = .ofServers f.settings f.servers := by
  refine ⟨fun settings servers => ⟨?_, ?_, ?_⟩, fun fs path f hload => ?_⟩
  · exact List.map_eq_nil_iff.trans findConflicts_eq_nil_iff
  · have hlength := length_conflictsAfter [] (servers.flatMap ServerConfig.places)
    have hnone : (pathsOf []).card = 0 := rfl
    rw [List.nil_append, hnone, Nat.zero_add, length_places] at hlength
    show ((findConflicts servers).map Conflict.message).length + _ = _
    rw [List.length_map]
    exact hlength
  · obtain ⟨positions, hascending, hmem, htold⟩ :=
      exists_positions (l := servers.flatMap ServerConfig.places) standsFor_nil
    refine ⟨positions, hascending, fun i => ?_, List.forall₂_map_right_iff.2 ?_⟩
    · rw [hmem]
      simp
    · exact htold.imp fun i c hc => ⟨c, hc, rfl⟩
  · obtain ⟨s, -, rfl⟩ := load_eq_ok_iff.1 hload
    exact ⟨Sources.ascending_fleet, rfl⟩

/-! ### One directory for three options -/

namespace SharedPath

/-- The first server archives into its own base backups, spelled otherwise, and files for the second server
    arrive there too. -/
def text : String :=
  "[global]\nhome = \"srv\"\n[servers.bob]\nbackup_command = \"true\"\n" ++
    "incoming_wals_directory = \"srv/ada/base\"\n" ++
    "[servers.ada]\nbackup_command = \"true\"\nwals_directory = \"srv//ada/./base/\"\n"

def files : FileSystem :=
  ⟨FileTree.empty.put ["bman.toml"] (.file (Text.encode text.toList)), [], []⟩

def servers : List ServerConfig :=
  [{ ServerConfig.new "ada" "srv" with backupCommand := some "true", walsDirectory := "srv//ada/./base/" },
    { ServerConfig.new "bob" "srv" with
      backupCommand := some "true", incomingWalsDirectory := "srv/ada/base" }]

def settings : Settings := { Settings.new "bman.toml" with home := "srv", lockDirectory := "srv" }

end SharedPath

open SharedPath in
/-- Three options share a path, which makes two conflicts, one of them within a server; both name the option
    that comes first. -/
theorem two_conflicts_of_three_owners :
    Fleet.load files "bman.toml" = .ok (.ofServers settings servers) ∧
    servers.Pairwise (fun a b => a.name < b.name) ∧
    (Fleet.ofServers settings servers).conflicts
      = ["Conflicting path: wals_directory=srv//ada/./base/ for server 'ada': " ++
          "basebackups_directory=srv//ada/./base/ for server 'ada'",
        "Conflicting path: incoming_wals_directory=srv/ada/base for server 'bob': " ++
          "basebackups_directory=srv/ada/base for server 'ada'"] ∧
    ¬(servers.flatMap ServerConfig.places).Pairwise fun p q => ¬Path.SameComponents p.path q.path := by
  have hload : Fleet.load files "bman.toml" = .ok (.ofServers settings servers) :=
    Fleet.load_of_toOption (by decide +kernel)
  have hconflicts : (Fleet.ofServers settings servers).conflicts ≠ [] := by decide +kernel
  have hascending := (conflicts_are_repeated_paths.2 _ _ _ hload).1
  refine ⟨hload, hascending, by decide +kernel, fun hdifferent => ?_⟩
  exact hconflicts ((conflicts_are_repeated_paths.1 settings servers).1.2 hdifferent)

end BackupFleet
