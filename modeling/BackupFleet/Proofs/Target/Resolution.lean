import Mathlib.Data.List.Nodup
import BackupFleet.Proofs.Command.Reach
import BackupFleet.Proofs.Order

/-!
# `BackupFleet.Proofs.Target.Resolution` — which servers a request means

Names are resolved by building a map: one entry after the other is inserted, and of two entries with one
name the later counts. Where servers have different names, no entry is ever displaced, and the map can be
described without its making: it is in strictly ascending order of names, and it has an entry for a name
iff the request means that name. This determines it.

## Contents

* `OrderedMap.mem_ofList_iff`, `OrderedMap.entries_ofList` — a map of a list without contradictions has the
  pairs of the list;
* `Fleet.server?_eq_some_iff` — the server with a name, where names are different;
* `RequestsAll`, `ExpandOptions.Keeps`, `Fleet.Meant`, `Fleet.Resolved` — what a request means;
* `Fleet.Resolved.unique`, `Fleet.exists_resolved` — there is one resolution, and `expand` finds it.
-/

namespace BackupFleet

/-! ## Maps of lists without contradictions -/

namespace OrderedMap

variable {β : Type} {k : String} {v : β} {e : String × β}

theorem mem_insertEntry_self (k : String) (v : β) (l : List (String × β)) :
    (k, v) ∈ insertEntry k v l := by
  induction l with
  | nil => exact List.mem_cons_self
  | cons d r ih =>
    rw [insertEntry]
    split
    · exact List.mem_cons_self
    split
    · exact List.mem_cons_of_mem _ ih
    · exact List.mem_cons_self

/-- An entry is displaced by one of its own key only. -/
theorem mem_insertEntry_of_ne {l : List (String × β)} (he : e ∈ l) (hk : e.1 ≠ k) :
    e ∈ insertEntry k v l := by
  induction l with
  | nil => cases he
  | cons d r ih =>
    rw [insertEntry]
    split
    · exact List.mem_cons_of_mem _ he
    split
    · rcases List.mem_cons.1 he with rfl | he
      · exact List.mem_cons_self
      · exact List.mem_cons_of_mem _ (ih he)
    · rename_i hkd hdk
      have hd : k = d.1 := String.le_antisymm (String.not_lt.1 hdk) (String.not_lt.1 hkd)
      rcases List.mem_cons.1 he with rfl | he
      · exact absurd hd.symm hk
      · exact List.mem_cons_of_mem _ he

/-- An entry of which every later one with its key is a copy is kept. -/
theorem mem_foldl_insert {l : List (String × β)} {m : OrderedMap β}
    (hl : ∀ d ∈ l, d.1 = e.1 → d = e) (he : e ∈ l ∨ e ∈ m.entries) :
    e ∈ (l.foldl (fun m e => m.insert e.1 e.2) m).entries := by
  induction l generalizing m with
  | nil => exact he.resolve_left List.not_mem_nil
  | cons d r ih =>
    refine ih (fun d' hd' => hl d' (List.mem_cons_of_mem _ hd')) ?_
    by_cases hd : d.1 = e.1
    · obtain rfl := hl d List.mem_cons_self hd
      exact .inr (mem_insertEntry_self _ _ _)
    · rcases he with he | he
      · rcases List.mem_cons.1 he with rfl | he
        · exact absurd rfl hd
        · exact .inl he
      · exact .inr (mem_insertEntry_of_ne he fun h => hd h.symm)

/-- **If no key of a list has two values, its map has exactly its pairs.** -/
theorem mem_ofList_iff {l : List (String × β)} (hl : ∀ d ∈ l, ∀ e ∈ l, d.1 = e.1 → d = e) :
    e ∈ (ofList l).entries ↔ e ∈ l :=
  ⟨mem_of_mem_ofList, fun he => mem_foldl_insert (fun d hd => hl d hd e he) (.inl he)⟩

/-- A list in strictly ascending order is the listing of its map. -/
theorem entries_ofList {l : List (String × β)} (h : l.Pairwise fun a b => a.1 < b.1) :
    (ofList l).entries = l :=
  eq_of_members (ofList l).ascending h fun _ => mem_ofList_iff (eq_of_key_eq h)

end OrderedMap

/-! ## Servers with different names -/

/-- No two servers of the fleet have one name. -/
def Fleet.NamesDiffer (f : Fleet) : Prop := (f.servers.map (·.name)).Nodup

instance (f : Fleet) : Decidable f.NamesDiffer := inferInstanceAs (Decidable (List.Nodup _))

/-- A name tells its server. -/
theorem Fleet.NamesDiffer.eq {f : Fleet} (h : f.NamesDiffer) {c d : ServerConfig} (hc : c ∈ f.servers)
    (hd : d ∈ f.servers) (he : c.name = d.name) : c = d :=
  List.inj_on_of_nodup_map h hc hd he

/-- The server with a name is the one that has it. -/
theorem Fleet.server?_eq_some_iff {f : Fleet} (h : f.NamesDiffer) {name : String} {c : ServerConfig} :
    f.server? name = some c ↔ c ∈ f.servers ∧ c.name = name := by
  constructor
  · exact fun hs => ⟨mem_of_server? hs, name_of_server? hs⟩
  · rintro ⟨hc, rfl⟩
    cases hs : f.server? c.name with
    | none => simpa using List.find?_eq_none.1 hs c hc
    | some d => rw [h.eq (mem_of_server? hs) hc (name_of_server? hs)]

theorem Fleet.server?_eq_none_iff {f : Fleet} {name : String} :
    f.server? name = none ↔ ∀ c ∈ f.servers, c.name ≠ name := by
  simp [server?]

/-! ## Requests -/

/-- The names ask for all servers: there is none, or the first one is `all`. -/
def RequestsAll (names : List String) : Prop := names = [] ∨ names.head? = some "all"

instance (names : List String) : Decidable (RequestsAll names) :=
  inferInstanceAs (Decidable (_ ∨ _))

theorem Request.ofNames_of_all {names : List String} (h : RequestsAll names) :
    Request.ofNames names = .all := by
  rcases h with rfl | h
  · rfl
  · cases names with
    | nil => rfl
    | cons first r =>
      obtain rfl := Option.some.inj h
      rfl

theorem Request.ofNames_of_named {names : List String} (h : ¬RequestsAll names) :
    Request.ofNames names = .named names := by
  cases names with
  | nil => exact absurd (.inl rfl) h
  | cons first r =>
    have hfirst : first ≠ "all" := fun he => h (.inr (congrArg some he))
    rw [ofNames, if_neg hfirst]

/-- A request for all servers keeps this one. -/
def ExpandOptions.Keeps (o : ExpandOptions) (c : ServerConfig) : Prop :=
  (o.skipInactive = true → c.active = true) ∧ (o.skipDisabled = true → c.disabled = false)

theorem ExpandOptions.skipText_eq_none_iff {o : ExpandOptions} {c : ServerConfig} :
    o.skipText c = none ↔ o.Keeps c := by
  unfold skipText Keeps
  cases o.skipInactive <;> cases o.skipDisabled <;> cases c.active <;> cases c.disabled <;> simp

/-- The entries that a request means: the servers that it keeps, if it is for all of them, and else one
    for each name, unknown if no server has it. -/
def Fleet.Meant (f : Fleet) (names : List String) (o : ExpandOptions) (name : String) :
    Option ServerConfig → Prop
  | some c => c ∈ f.servers ∧ c.name = name ∧ if RequestsAll names then o.Keeps c else name ∈ names
  | none => ¬RequestsAll names ∧ name ∈ names ∧ ∀ c ∈ f.servers, c.name ≠ name

/-- The entries that a request means, each once, in ascending order of names. -/
structure Fleet.Resolved (f : Fleet) (names : List String) (o : ExpandOptions)
    (entries : List (String × Option ServerConfig)) : Prop where
  ascending : entries.Pairwise fun a b => a.1 < b.1
  mem_iff : ∀ name found, (name, found) ∈ entries ↔ f.Meant names o name found

/-- **A request has one resolution.** -/
theorem Fleet.Resolved.unique {f : Fleet} {names : List String} {o : ExpandOptions}
    {l m : List (String × Option ServerConfig)} (hl : f.Resolved names o l) (hm : f.Resolved names o m) :
    l = m := by
  refine eq_of_members hl.ascending hm.ascending fun e => ?_
  rw [hl.mem_iff, hm.mem_iff]

/-- What is told of the servers that a request for all of them leaves out, in the order of the
    configuration. -/
def Fleet.skipMessages (f : Fleet) (names : List String) (o : ExpandOptions) : List Message :=
  if RequestsAll names then f.servers.filterMap fun c => (o.skipText c).map .info else []

/-- Every kept server of a fleet is in the map of a request for all servers. -/
theorem Fleet.mem_expandAll_iff {f : Fleet} (h : f.NamesDiffer) {names : List String}
    (hall : RequestsAll names) (o : ExpandOptions) (name : String) (found : Option ServerConfig) :
    (name, found) ∈ (expandAll o f.servers).2.entries ↔ f.Meant names o name found := by
  unfold expandAll
  have hfunctional : ∀ d ∈ (f.servers.filter fun c => (o.skipText c).isNone).map fun c => (c.name, some c),
      ∀ e ∈ (f.servers.filter fun c => (o.skipText c).isNone).map fun c => (c.name, some c),
      d.1 = e.1 → d = e := by
    intro d hd e he heq
    obtain ⟨c, hc, rfl⟩ := List.mem_map.1 hd
    obtain ⟨c', hc', rfl⟩ := List.mem_map.1 he
    rw [h.eq (List.mem_filter.1 hc).1 (List.mem_filter.1 hc').1 heq]
  rw [OrderedMap.mem_ofList_iff hfunctional]
  cases found with
  | none => simp [Meant, hall]
  | some c =>
    simp only [Meant, List.mem_map, List.mem_filter, Option.isNone_iff_eq_none,
      ExpandOptions.skipText_eq_none_iff, Prod.mk.injEq, Option.some.injEq, if_pos hall]
    constructor
    · rintro ⟨d, ⟨hd, hk⟩, rfl, rfl⟩
      exact ⟨hd, rfl, hk⟩
    · rintro ⟨hc, rfl, hk⟩
      exact ⟨c, ⟨hc, hk⟩, rfl, rfl⟩

/-- The map of names has each of them, with the server that a look-up finds. -/
theorem mem_expandNamed {f : Fleet} {names : List String} {name : String} {found : Option ServerConfig} :
    (name, found) ∈ (expandNamed f names).entries ↔ name ∈ names ∧ f.server? name = found := by
  have hfunctional : ∀ d ∈ names.map fun name => (name, f.server? name),
      ∀ e ∈ names.map fun name => (name, f.server? name), d.1 = e.1 → d = e := by
    intro d hd e he heq
    obtain ⟨n, -, rfl⟩ := List.mem_map.1 hd
    obtain ⟨n', -, rfl⟩ := List.mem_map.1 he
    obtain rfl : n = n' := heq
    rfl
  unfold expandNamed
  rw [OrderedMap.mem_ofList_iff hfunctional]
  simp only [List.mem_map, Prod.mk.injEq]
  exact ⟨by rintro ⟨n, hn, rfl, hs⟩; exact ⟨hn, hs⟩, fun ⟨hn, hs⟩ => ⟨name, hn, rfl, hs⟩⟩

theorem mem_keys_expandNamed {f : Fleet} {names : List String} {name : String} :
    name ∈ (expandNamed f names).keys ↔ name ∈ names := by
  simp only [OrderedMap.keys, List.mem_map, Prod.exists, exists_and_right, exists_eq_right,
    mem_expandNamed, exists_and_left, exists_eq', and_true]

/-- Every name of a request for some servers is in its map. -/
theorem Fleet.mem_expandNamed_iff {f : Fleet} (h : f.NamesDiffer) {names : List String}
    (hnamed : ¬RequestsAll names) (o : ExpandOptions) (name : String) (found : Option ServerConfig) :
    (name, found) ∈ (expandNamed f names).entries ↔ f.Meant names o name found := by
  rw [mem_expandNamed]
  cases found with
  | none => simp only [Meant, server?_eq_none_iff, hnamed, not_false_eq_true, true_and]
  | some c =>
    simp only [Meant, server?_eq_some_iff h, if_neg hnamed]
    exact ⟨fun ⟨hn, hm, he⟩ => ⟨hm, he, hn⟩, fun ⟨hn, he, hm⟩ => ⟨hm, hn, he⟩⟩

/-- **Without conflicts, a request is expanded to its resolution.** -/
theorem Fleet.exists_resolved {f : Fleet} (hc : f.conflicts = []) (h : f.NamesDiffer)
    (names : List String) (o : ExpandOptions) :
    ∃ targets : Targets, f.Resolved names o targets.entries ∧
      expand f (.ofNames names) o = (f.skipMessages names o, some targets) := by
  have hreported : (if o.silent then [] else f.conflictMessages) = [] := by
    simp [conflictMessages, hc]
  have hgo : ¬(f.conflicts ≠ [] ∧ o.stopOnConflict = true) := fun hn => hn.1 hc
  unfold expand skipMessages
  rw [hreported, if_neg hgo]
  by_cases hall : RequestsAll names
  · rw [Request.ofNames_of_all hall, if_pos hall]
    exact ⟨(expandAll o f.servers).2, ⟨OrderedMap.ascending _, mem_expandAll_iff h hall o⟩, rfl⟩
  · rw [Request.ofNames_of_named hall, if_neg hall]
    exact ⟨expandNamed f names, ⟨OrderedMap.ascending _, mem_expandNamed_iff h hall o⟩, rfl⟩

end BackupFleet
