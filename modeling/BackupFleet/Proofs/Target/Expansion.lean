import BackupFleet.Proofs.Target.Resolution

/-!
# `BackupFleet.Proofs.Target.Expansion` — what a request is expanded to

A request is for all servers or for some names, and it can ask that inactive or disabled servers be left out.
That concerns the request for all servers only: a name that is asked for is in the expansion, configured or
not. So a request for all servers that leaves none out is the request for each of their names.

Main statement: `requests_mean_servers`. What is told of a server that is left out is why it was left out, so a
server that is both inactive and disabled can be told of as disabled (`inactive_server_left_out_as_disabled`).

## Contents

* `ExpandOptions.leftOutMessage`, `leftOutMessages_eq` — what is told of the servers that are left out;
* `mem_expandAll_iff`, `mem_expandNamed_iff_configured` — the targets of either request;
* `expandAll_eq_expandNamed`, `entries_expandAll` — all servers by their names, and in their order;
* `requests_mean_servers` — the expansion of a request.
-/

namespace BackupFleet

/-! ## Servers that are left out -/

instance (o : ExpandOptions) (c : ServerConfig) : Decidable (o.Keeps c) :=
  inferInstanceAs (Decidable (_ ∧ _))

/-- What is told of a server that is left out: that it is inactive if inactive servers are left out, and else
    that it is disabled. -/
def ExpandOptions.leftOutMessage (o : ExpandOptions) (c : ServerConfig) : Message :=
  if o.skipInactive = true ∧ c.active = false then .info ("Skipping inactive server '" ++ c.name ++ "'")
  else .info ("Skipping temporarily disabled server '" ++ c.name ++ "'")

theorem ExpandOptions.skipText_of_not_keeps {o : ExpandOptions} {c : ServerConfig} (h : ¬o.Keeps c) :
    (o.skipText c).map Message.info = some (o.leftOutMessage c) := by
  unfold Keeps at h
  unfold skipText leftOutMessage
  cases ho : o.skipInactive <;> cases ho' : o.skipDisabled <;> cases hc : c.active <;>
    cases hc' : c.disabled <;> simp_all

/-- **One message is told of each server that is left out**, in the order of the configuration. -/
theorem leftOutMessages_eq (o : ExpandOptions) (servers : List ServerConfig) :
    (expandAll o servers).1 = (servers.filter fun c => ¬o.Keeps c).map o.leftOutMessage := by
  show (servers.filterMap fun c => (o.skipText c).map Message.info) = _
  induction servers with
  | nil => rfl
  | cons c r ih =>
    rw [List.filterMap_cons, List.filter_cons, ih]
    by_cases hc : o.Keeps c
    · rw [ExpandOptions.skipText_eq_none_iff.2 hc, if_neg (by simpa using hc)]
      rfl
    · rw [ExpandOptions.skipText_of_not_keeps hc, if_pos (by simpa using hc), List.map_cons]

/-! ## Targets -/

section Targets

variable {f : Fleet} {name : String} {found : Option ServerConfig}

/-- The targets of a request for all servers are those that are not left out. -/
theorem mem_expandAll_iff (h : f.NamesDiffer) (o : ExpandOptions) :
    (name, found) ∈ (expandAll o f.servers).2.entries ↔
      ∃ c ∈ f.servers, o.Keeps c ∧ c.name = name ∧ found = some c := by
  have hall : RequestsAll [] := .inl rfl
  rw [Fleet.mem_expandAll_iff h hall]
  cases found with
  | none => simp [Fleet.Meant, RequestsAll]
  | some c =>
    simp only [Fleet.Meant, RequestsAll, true_or, if_true, Option.some.injEq]
    constructor
    · rintro ⟨hc, hname, hkeeps⟩
      exact ⟨c, hc, hkeeps, hname, rfl⟩
    · rintro ⟨_, hc, hkeeps, hname, rfl⟩
      exact ⟨hc, hname, hkeeps⟩

/-- The targets of a request for names are these names, each with the server that has it, if there is one. -/
theorem mem_expandNamed_iff_configured (h : f.NamesDiffer) {names : List String} :
    (name, found) ∈ (expandNamed f names).entries ↔
      name ∈ names ∧ ∀ c, found = some c ↔ c ∈ f.servers ∧ c.name = name := by
  rw [mem_expandNamed]
  refine and_congr_right fun _ => ?_
  simp only [← Fleet.server?_eq_some_iff h]
  constructor
  · rintro rfl c
    rfl
  · exact fun hfound => (Option.ext hfound).symm

/-- **All servers, none of them left out, are the servers with their names.** -/
theorem expandAll_eq_expandNamed (h : f.NamesDiffer) {o : ExpandOptions} (ho : ∀ c, o.Keeps c) :
    (expandAll o f.servers).2 = expandNamed f (f.servers.map (·.name)) := by
  apply OrderedMap.ext_get?
  intro name
  apply Option.ext
  intro found
  rw [← OrderedMap.mem_entries_iff, ← OrderedMap.mem_entries_iff, mem_expandAll_iff h, mem_expandNamed]
  constructor
  · rintro ⟨c, hc, -, rfl, rfl⟩
    exact ⟨List.mem_map.2 ⟨c, hc, rfl⟩, (Fleet.server?_eq_some_iff h).2 ⟨hc, rfl⟩⟩
  · rintro ⟨hname, hfound⟩
    obtain ⟨c, hc, rfl⟩ := List.mem_map.1 hname
    rw [(Fleet.server?_eq_some_iff h).2 ⟨hc, rfl⟩] at hfound
    exact ⟨c, hc, ho c, rfl, hfound.symm⟩

/-- The targets of a request for all servers that leaves none out are the servers, in their order. -/
theorem entries_expandAll {servers : List ServerConfig} (h : servers.Pairwise fun a b => a.name < b.name)
    {o : ExpandOptions} (ho : ∀ c, o.Keeps c) :
    (expandAll o servers).2.entries = servers.map fun c => (c.name, some c) := by
  have hall : (servers.filter fun c => (o.skipText c).isNone) = servers := by
    refine List.filter_eq_self.2 fun c _ => ?_
    rw [ExpandOptions.skipText_eq_none_iff.2 (ho c)]
    rfl
  unfold expandAll
  rw [hall]
  exact OrderedMap.entries_ofList (List.pairwise_map.2 h)

end Targets

/-! ## Requests -/

/-- Conflicts do not end the expansion: there are none, or they are not to. -/
def Fleet.Expands (f : Fleet) (o : ExpandOptions) : Prop := f.conflicts = [] ∨ o.stopOnConflict = false

instance (f : Fleet) (o : ExpandOptions) : Decidable (f.Expands o) := inferInstanceAs (Decidable (_ ∨ _))

/-- The conflicts are told, each once and in order, unless they are to be kept silent about. -/
def Fleet.toldConflicts (f : Fleet) (o : ExpandOptions) : List Message :=
  if o.silent then [] else f.conflicts.map .error

section Expanding

variable {f : Fleet} {o : ExpandOptions}

theorem Fleet.not_expands_iff : ¬f.Expands o ↔ f.conflicts ≠ [] ∧ o.stopOnConflict = true := by
  simp [Expands]

theorem expand_all (h : f.Expands o) : expand f .all o
    = (f.toldConflicts o ++ (expandAll o f.servers).1, some (expandAll o f.servers).2) := by
  unfold expand
  rw [if_neg fun hstop => Fleet.not_expands_iff.2 hstop h]
  rfl

theorem expand_named (h : f.Expands o) (names : List String) :
    expand f (.named names) o = (f.toldConflicts o, some (expandNamed f names)) := by
  unfold expand
  rw [if_neg fun hstop => Fleet.not_expands_iff.2 hstop h]
  rfl

theorem expand_of_not_expands (h : ¬f.Expands o) (request : Request) :
    expand f request o = (f.toldConflicts o, none) := by
  unfold expand
  rw [if_pos (Fleet.not_expands_iff.1 h)]
  rfl

/-- A request for all servers that leaves none out is one for their names, also where the first name of a list
    can ask for all servers. -/
theorem expand_all_eq_named (hnames : f.NamesDiffer) (h : f.Expands o) (ho : ∀ c, o.Keeps c) :
    expand f .all o = expand f (.named (f.servers.map (·.name))) o ∧
    expand f .all o = expand f (.ofNames (f.servers.map (·.name))) o := by
  have hnone : (f.servers.filter fun c => ¬o.Keeps c) = [] := by simp [ho]
  have hall : expand f .all o = expand f (.named (f.servers.map (·.name))) o := by
    rw [expand_all h, expand_named h, leftOutMessages_eq, hnone, expandAll_eq_expandNamed hnames ho,
      List.map_nil, List.append_nil]
  refine ⟨hall, ?_⟩
  -- As a list of names they can ask for all servers, if there are none or the first one is called `all`.
  by_cases hrequest : RequestsAll (f.servers.map (·.name))
  · rw [Request.ofNames_of_all hrequest]
  · rw [Request.ofNames_of_named hrequest, hall]

end Expanding

/-- **A request means servers.** A request for all servers is expanded to those that are not left out, by name
    in ascending order, and one message is told of each that is: that it is inactive, if it is and inactive
    servers are left out, and else that it is disabled. A request for names is expanded to these names, in
    ascending order, each with the server that is configured by it, if there is one; the options do not matter.
    So a request for all servers without leaving any out is that for all their names. Conflicts are told before
    anything else, each once and in order, unless they are to be kept silent about; where they end the
    expansion, nothing else is told. -/
theorem requests_mean_servers {f : Fleet} (h : f.NamesDiffer) (o : ExpandOptions) :
    (f.Expands o →
      (∃ targets : Targets,
        expand f .all o = (f.toldConflicts o ++ (f.servers.filter fun c => ¬o.Keeps c).map o.leftOutMessage,
          some targets) ∧
        targets.entries.Pairwise (fun a b => a.1 < b.1) ∧
        ∀ name found, (name, found) ∈ targets.entries ↔
          ∃ c ∈ f.servers, o.Keeps c ∧ c.name = name ∧ found = some c) ∧
      (∀ names : List String, ∃ targets : Targets,
        expand f (.named names) o = (f.toldConflicts o, some targets) ∧
        targets.entries.Pairwise (fun a b => a.1 < b.1) ∧
        (∀ name, name ∈ targets.keys ↔ name ∈ names) ∧
        ∀ name found, (name, found) ∈ targets.entries ↔
          name ∈ names ∧ ∀ c, found = some c ↔ c ∈ f.servers ∧ c.name = name) ∧
      (o.skipInactive = false → o.skipDisabled = false →
        expand f .all o = expand f (.named (f.servers.map (·.name))) o ∧
        expand f .all o = expand f (.ofNames (f.servers.map (·.name))) o)) ∧
    (¬f.Expands o → ∀ request, expand f request o = (f.toldConflicts o, none)) := by
  refine ⟨fun hgo => ⟨?_, fun names => ?_, fun hinactive hdisabled => ?_⟩, expand_of_not_expands⟩
  · refine ⟨(expandAll o f.servers).2, ?_, OrderedMap.ascending _, fun name found => mem_expandAll_iff h o⟩
    rw [expand_all hgo, leftOutMessages_eq]
  · exact ⟨expandNamed f names, expand_named hgo names, OrderedMap.ascending _,
      fun name => mem_keys_expandNamed, fun name found => mem_expandNamed_iff_configured h⟩
  · exact expand_all_eq_named h hgo fun c => ⟨by simp [hinactive], by simp [hdisabled]⟩

/-! ### Three servers -/

namespace LeftOut

/-- An inactive server whose configuration has a problem. -/
def ada : ServerConfig := { (ServerConfig.new "ada" "srv").disable "a problem" with active := false }

/-- An inactive server. -/
def bob : ServerConfig := { ServerConfig.new "bob" "srv" with active := false }

def zoe : ServerConfig := ServerConfig.new "zoe" "srv"

def fleet : Fleet := ⟨Settings.new "bman.conf", [zoe, bob, ada], ["a conflict"]⟩

/-- Inactive and disabled servers are left out, and conflicts only told. -/
def filters : ExpandOptions := { skipInactive := true, skipDisabled := true, stopOnConflict := false }

/-- No server is left out, and conflicts are only told. -/
def noFilters : ExpandOptions := { stopOnConflict := false }

/-- Disabled servers are left out, and nothing is told of conflicts. -/
def disabledOnly : ExpandOptions := { skipDisabled := true, stopOnConflict := false, silent := true }

end LeftOut

open LeftOut in
/-- A request for all servers leaves two of three out, or else is one for three names; a request for two names
    has both of them. -/
theorem two_of_three_servers_left_out :
    fleet.NamesDiffer ∧ fleet.Expands filters ∧ fleet.Expands noFilters ∧
    expand fleet .all noFilters = expand fleet (.named ["zoe", "bob", "ada"]) noFilters ∧
    (∃ targets : Targets,
      expand fleet .all filters = ([.error "a conflict", .info "Skipping inactive server 'bob'",
        .info "Skipping inactive server 'ada'"], some targets) ∧
      ∀ name found, (name, found) ∈ targets.entries ↔
        ∃ c ∈ fleet.servers, filters.Keeps c ∧ c.name = name ∧ found = some c) ∧
    ∃ targets : Targets,
      expand fleet (.named ["eve", "ada"]) filters = ([.error "a conflict"], some targets) ∧
      ("ada", some ada) ∈ targets.entries ∧ ("eve", none) ∈ targets.entries := by
  have hnames : fleet.NamesDiffer := by decide
  have hgo : fleet.Expands filters := by decide
  have hgo' : fleet.Expands noFilters := by decide
  have hall := (((requests_mean_servers hnames noFilters).1 hgo').2.2 rfl rfl).1
  obtain ⟨⟨targets, hexpand, -, hmem⟩, hnamed, -⟩ := (requests_mean_servers hnames filters).1 hgo
  obtain ⟨targets', hexpand', -, -, hmem'⟩ := hnamed ["eve", "ada"]
  refine ⟨hnames, hgo, hgo', hall, ⟨targets, hexpand, hmem⟩, targets', hexpand', ?_, ?_⟩
  · refine (hmem' _ _).2 ⟨by decide, fun c => ?_⟩
    rw [← Fleet.server?_eq_some_iff hnames]
    exact Iff.rfl
  · refine (hmem' _ _).2 ⟨by decide, fun c => ?_⟩
    rw [← Fleet.server?_eq_some_iff hnames]
    exact Iff.rfl

open LeftOut in
/-- **A server that is inactive and disabled is told of as disabled where only disabled servers are left
    out.** -/
theorem inactive_server_left_out_as_disabled :
    fleet.NamesDiffer ∧ fleet.Expands disabledOnly ∧
    ada ∈ fleet.servers ∧ ada.active = false ∧ ada.disabled = true ∧ ¬disabledOnly.Keeps ada ∧
    (expand fleet .all disabledOnly).1 = [.info "Skipping temporarily disabled server 'ada'"] ∧
    .info "Skipping inactive server 'ada'" ∉ (expand fleet .all disabledOnly).1 := by
  decide

end BackupFleet
