import BackupFleet.Config.Load
import BackupFleet.Proofs.Config.Section
import BackupFleet.Proofs.FileSystem.Plain
import BackupFleet.Proofs.Target.Resolution

/-!
# `BackupFleet.Proofs.Config.Sources` — the configuration as its files together

The configuration file and the further files in the directory that it may name are the sources of a
configuration. They define servers in an order: those of the configuration file, then those of the further
files in the ascending order of their names. A configuration is loaded iff its sources can be read, whatever
the sections of the servers say, and the first definition of a server is the one that counts. So what the
sources say about one server is without effect on all other servers.

## Contents

* `SourcesIn`, `Sources`, `Sources.Found`, `Sources.definitions`, `Sources.fleet` — the sources;
* `load_eq_ok_iff` — what is loaded;
* `get?_firstOfEach`, `Sources.server?_fleet`, `Sources.exists_definition` — the first definition of a
  server;
* `Sources.problems_of_mem`, `Sources.enabled_of_mem` — the servers that are defined;
* `SameBeside`, `SameBeside.lookup` — definitions that differ for one server;
* `load_takes_first_definitions` — the main statement.
-/

namespace BackupFleet

open FileSystem
open Toml (Value)

/-! ## The sources of a configuration -/

/-- What the further configuration files in a directory say, by the names of the files. The files of one
    directory are in the order of their paths when they are in the order of their names. -/
structure SourcesIn (fs : FileSystem) (dir : String) (more : List (String × ConfigFile)) : Prop where
  names : ∃ entries, fs.listDirectory dir = .ok entries ∧ ∀ name, name ∈ more.map (·.1) ↔
    name ∈ entries ∧ Path.hasExtension "toml" name = true ∧ fs.isFile (Path.join dir name) = true
  ascending : (more.map (·.1)).Pairwise (· < ·)
  contents : ∀ e ∈ more, ConfigFile.read fs (Path.join dir e.1) = .ok e.2

/-- What the configuration file says, and what the further ones say. -/
structure Sources where
  main : ConfigFile
  more : List (String × ConfigFile)

namespace Sources

/-- The settings, which only the configuration file can make. -/
def settings (s : Sources) (path : String) : Settings := s.main.settings.configure path

/-- The sources stand in the files. -/
structure Found (s : Sources) (fs : FileSystem) (path : String) : Prop where
  main : ConfigFile.read fs path = .ok s.main
  none : (s.settings path).filesDirectory = none → s.more = []
  some : ∀ dir, (s.settings path).filesDirectory = some dir → SourcesIn fs dir s.more

/-- All definitions of servers, those that count first before the others. -/
def definitions (s : Sources) : List (String × Value) := s.main.servers ++ s.more.flatMap (·.2.servers)

/-- The fleet that the sources describe. -/
def fleet (s : Sources) (path : String) : Fleet :=
  .ofServers (s.settings path) ((firstOfEach s.definitions).entries.map fun (name, v) =>
    ServerConfig.ofValue name (s.settings path).home v)

end Sources

/-! ## What is loaded -/

/-- The names of the configuration files among the names in a directory. -/
def configNames (fs : FileSystem) (dir : String) (entries : List String) : List String :=
  entries.filter fun name => Path.hasExtension "toml" name && fs.isFile (Path.join dir name)

theorem mem_configNames {fs : FileSystem} {dir : String} {entries : List String} {name : String} :
    name ∈ configNames fs dir entries ↔
      name ∈ entries ∧ Path.hasExtension "toml" name = true ∧ fs.isFile (Path.join dir name) = true := by
  simp [configNames]

theorem configFilesIn_eq_ok_iff {fs : FileSystem} {dir : String} {paths : List String} :
    configFilesIn fs dir = .ok paths ↔ ∃ entries, fs.listDirectory dir = .ok entries ∧
      paths = (configNames fs dir entries).map (Path.join dir) := by
  have hpaths : ∀ entries : List String,
      ((entries.filter (Path.hasExtension "toml")).map (Path.join dir)).filter fs.isFile
        = (configNames fs dir entries).map (Path.join dir) := by
    intro entries
    rw [configNames, List.filter_map, List.filter_filter]
    simp only [Function.comp_apply, Bool.and_comm]
  unfold configFilesIn
  cases fs.listDirectory dir with
  | error e => simp
  | ok entries => simp [hpaths, eq_comm]

/-- **Sources are the contents of the configuration files that are in the directory.** -/
theorem sourcesIn_iff {fs : FileSystem} {dir : String} {more : List (String × ConfigFile)} :
    SourcesIn fs dir more ↔
      ∃ entries, fs.listDirectory dir = .ok entries ∧ more.map (·.1) = configNames fs dir entries ∧
        ∀ e ∈ more, ConfigFile.read fs (Path.join dir e.1) = .ok e.2 := by
  have hascending : ∀ entries, fs.listDirectory dir = .ok entries →
      (configNames fs dir entries).Pairwise (· < ·) := by
    intro entries hentries
    exact (pairwise_listDirectory hentries).filter _
  constructor
  · rintro ⟨⟨entries, hentries, hmem⟩, hmore, hread⟩
    refine ⟨entries, hentries, ?_, hread⟩
    apply eq_of_ascending_of_mem_iff hmore (hascending entries hentries)
    intro name
    rw [hmem, mem_configNames]
  · rintro ⟨entries, hentries, hnames, hread⟩
    refine ⟨⟨entries, hentries, ?_⟩, ?_, hread⟩
    · intro name
      rw [hnames, mem_configNames]
    · rw [hnames]
      exact hascending entries hentries

/-- **Files are read iff each of them is**, one after the other. -/
theorem readServers_eq_ok_iff {fs : FileSystem} {dir : String} {names : List String}
    {servers : List (String × Value)} :
    readServers fs (names.map (Path.join dir)) = .ok servers ↔
      ∃ more : List (String × ConfigFile), more.map (·.1) = names ∧
        (∀ e ∈ more, ConfigFile.read fs (Path.join dir e.1) = .ok e.2) ∧
        servers = more.flatMap (·.2.servers) := by
  induction names generalizing servers with
  | nil =>
    constructor
    · intro h
      cases h
      exact ⟨[], rfl, by simp, rfl⟩
    · rintro ⟨more, hnames, -, rfl⟩
      rw [List.map_eq_nil_iff.1 hnames]
      rfl
  | cons name r ih =>
    constructor
    · intro h
      rw [List.map_cons, readServers] at h
      cases hfirst : ConfigFile.read fs (Path.join dir name) with
      | error e =>
        rw [hfirst] at h
        cases h
      | ok first =>
        rw [hfirst] at h
        simp only [bind, Except.bind] at h
        cases hrest : readServers fs (r.map (Path.join dir)) with
        | error e =>
          rw [hrest] at h
          cases h
        | ok rest =>
          rw [hrest] at h
          cases h
          obtain ⟨more, hnames, hread, rfl⟩ := ih.1 hrest
          refine ⟨(name, first) :: more, by simp [hnames], ?_, by simp⟩
          exact List.forall_mem_cons.2 ⟨hfirst, hread⟩
    · rintro ⟨more, hnames, hread, rfl⟩
      obtain ⟨e, more, rfl, rfl, rfl⟩ := List.map_eq_cons_iff.1 hnames
      obtain ⟨hfirst, hread⟩ := List.forall_mem_cons.1 hread
      have hrest := ih.2 ⟨more, rfl, hread, rfl⟩
      rw [List.map_cons, readServers, hfirst, hrest]
      rfl

theorem readMoreServers_some {fs : FileSystem} {dir : String} {servers : List (String × Value)} :
    readMoreServers fs (some dir) = .ok servers ↔
      ∃ more, SourcesIn fs dir more ∧ servers = more.flatMap (·.2.servers) := by
  have hread : readMoreServers fs (some dir) = .ok servers ↔
      ∃ paths, configFilesIn fs dir = .ok paths ∧ readServers fs paths = .ok servers := by
    show (configFilesIn fs dir >>= readServers fs) = _ ↔ _
    cases configFilesIn fs dir <;> simp [bind, Except.bind]
  rw [hread]
  constructor
  · rintro ⟨paths, hpaths, hservers⟩
    obtain ⟨entries, hentries, rfl⟩ := configFilesIn_eq_ok_iff.1 hpaths
    obtain ⟨more, hnames, hcontents, rfl⟩ := readServers_eq_ok_iff.1 hservers
    exact ⟨more, sourcesIn_iff.2 ⟨entries, hentries, hnames, hcontents⟩, rfl⟩
  · rintro ⟨more, hmore, rfl⟩
    obtain ⟨entries, hentries, hnames, hcontents⟩ := sourcesIn_iff.1 hmore
    refine ⟨_, configFilesIn_eq_ok_iff.2 ⟨entries, hentries, rfl⟩, ?_⟩
    exact readServers_eq_ok_iff.2 ⟨more, hnames, hcontents, rfl⟩

/-- **Further files are read iff a directory with them is named and holds sources**, or none is named. -/
theorem readMoreServers_eq_ok_iff {fs : FileSystem} {dir : Option String}
    {servers : List (String × Value)} :
    readMoreServers fs dir = .ok servers ↔ ∃ more : List (String × ConfigFile),
      (dir = none → more = []) ∧ (∀ d, dir = some d → SourcesIn fs d more) ∧
        servers = more.flatMap (·.2.servers) := by
  cases dir with
  | none => simp [readMoreServers, eq_comm]
  | some dir => simp [readMoreServers_some]

/-- **A configuration is loaded iff its sources are found, and it is the fleet that they describe.** What
    the sections of the servers say is no reason not to load it. -/
theorem load_eq_ok_iff {fs : FileSystem} {path : String} {f : Fleet} :
    Fleet.load fs path = .ok f ↔ ∃ s : Sources, s.Found fs path ∧ f = s.fleet path := by
  unfold Fleet.load
  cases hmain : ConfigFile.read fs path with
  | error e =>
    simp only [bind, Except.bind, reduceCtorEq, false_iff]
    rintro ⟨s, hfound, -⟩
    rw [hfound.main] at hmain
    cases hmain
  | ok main =>
    simp only [bind, Except.bind]
    constructor
    · intro h
      cases hmore : readMoreServers fs (main.settings.configure path).filesDirectory with
      | error e =>
        rw [hmore] at h
        cases h
      | ok servers =>
        rw [hmore] at h
        cases h
        obtain ⟨more, hnone, hsome, rfl⟩ := readMoreServers_eq_ok_iff.1 hmore
        exact ⟨⟨main, more⟩, ⟨hmain, hnone, hsome⟩, rfl⟩
    · rintro ⟨⟨main', more⟩, hfound, rfl⟩
      obtain rfl : main = main' := Except.ok.inj (hmain.symm.trans hfound.main)
      have hmore : readMoreServers fs (main.settings.configure path).filesDirectory
          = .ok (more.flatMap (·.2.servers)) :=
        readMoreServers_eq_ok_iff.2 ⟨more, hfound.none, hfound.some, rfl⟩
      rw [hmore]
      rfl

/-! ## The first definition of a server -/

/-- **A name is mapped to the first of its values.** -/
theorem get?_firstOfEach {α : Type} (l : List (String × α)) (k : String) :
    (firstOfEach l).get? k = l.lookup k := by
  -- What is in the map already counts before the rest of the list.
  have hgen : ∀ (l : List (String × α)) (m : OrderedMap α),
      (l.foldl (fun m e => if m.contains e.1 then m else m.insert e.1 e.2) m).get? k
        = (m.get? k).or (l.lookup k) := by
    intro l
    induction l with
    | nil => simp
    | cons e r ih =>
      intro m
      rw [List.foldl_cons, ih, List.lookup_cons]
      by_cases hk : k = e.1
      · subst hk
        cases hm : m.get? e.1 <;> simp [OrderedMap.contains, hm]
      · rw [beq_false_of_ne hk]
        split <;> simp [hk]
  exact (hgen l .empty).trans (by simp)

/-- **A server is what its first definition describes.** -/
theorem find?_ofValue (home name : String) (l : List (String × Value)) :
    (l.map fun (name, v) => ServerConfig.ofValue name home v).find? (·.name = name)
      = (l.lookup name).map (ServerConfig.ofValue name home) := by
  induction l with
  | nil => rfl
  | cons e r ih =>
    rw [List.map_cons, List.find?_cons, List.lookup_cons, ih, name_ofValue]
    by_cases h : name = e.1
    · simp [h]
    · rw [beq_false_of_ne h, decide_eq_false (Ne.symm h)]

namespace Sources

variable {s s' : Sources} {path path' : String}

theorem server?_fleet (name : String) :
    (s.fleet path).server? name
      = (s.definitions.lookup name).map (ServerConfig.ofValue name (s.settings path).home) := by
  rw [← get?_firstOfEach]
  exact find?_ofValue _ name _

/-- The servers go by the names under which they are defined. -/
theorem names_fleet : (s.fleet path).servers.map (·.name) = (firstOfEach s.definitions).keys := by
  show ((firstOfEach s.definitions).entries.map _).map _ = _
  rw [List.map_map]
  apply List.map_congr_left
  intro e _
  exact name_ofValue e.1 _ e.2

/-- The servers of a configuration are those that its sources define. -/
theorem mem_names_fleet {name : String} :
    name ∈ (s.fleet path).servers.map (·.name) ↔ name ∈ s.definitions.map (·.1) := by
  rw [names_fleet, OrderedMap.mem_keys_iff, get?_firstOfEach, List.lookup_isSome_iff, List.mem_map]
  refine exists_congr fun e => and_congr_right fun _ => ?_
  exact beq_iff_eq.trans eq_comm

theorem ascending_fleet : (s.fleet path).servers.Pairwise fun a b => a.name < b.name := by
  apply List.pairwise_map.1
  rw [names_fleet]
  exact List.pairwise_map.2 (firstOfEach s.definitions).ascending

theorem namesDiffer_fleet : (s.fleet path).NamesDiffer := by
  show ((s.fleet path).servers.map (·.name)).Pairwise _
  exact List.pairwise_map.2 (ascending_fleet.imp Std.ne_of_lt)

/-- **Each server is what its first definition describes.** -/
theorem exists_definition {c : ServerConfig} (hc : c ∈ (s.fleet path).servers) :
    ∃ v, s.definitions.lookup c.name = some v ∧
      c = ServerConfig.ofValue c.name (s.settings path).home v := by
  have hserver : (s.fleet path).server? c.name = some c :=
    (Fleet.server?_eq_some_iff namesDiffer_fleet).2 ⟨hc, rfl⟩
  rw [server?_fleet] at hserver
  obtain ⟨v, hv, hvalue⟩ := Option.map_eq_some_iff.1 hserver
  exact ⟨v, hv, hvalue.symm⟩

/-- The problems of a server are those that hold of its first definition, in order. -/
theorem problems_of_mem {c : ServerConfig} (hc : c ∈ (s.fleet path).servers) :
    ∃ v, s.definitions.lookup c.name = some v ∧
      (c.disabled = true ↔ ∃ p : ConfigProblem, p.Holds c.name v) ∧
      ∃ ps : List ConfigProblem, c.problems = ps.map (ConfigProblem.message c.name) ∧
        (∀ p, p ∈ ps ↔ p.Holds c.name v) ∧ ps.Pairwise fun p q => p.rank < q.rank := by
  obtain ⟨v, hlookup, hvalue⟩ := exists_definition hc
  refine ⟨v, hlookup, ?_, problemsOf c.name v, ?_, fun p => mem_problemsOf, pairwise_problemsOf c.name v⟩
  · conv_lhs => rw [hvalue]
    exact disabled_ofValue_iff
  · conv_lhs => rw [hvalue]
    exact problems_ofValue _ _ _

/-- **An enabled server has a backup command, and another name than the reserved one.** -/
theorem enabled_of_mem {c : ServerConfig} (hc : c ∈ (s.fleet path).servers) (h : c.disabled = false) :
    c.backupCommand ≠ none ∧ c.name ≠ reservedName := by
  obtain ⟨v, -, hvalue⟩ := exists_definition hc
  rw [hvalue] at h ⊢
  constructor
  · exact backupCommand_of_enabled h
  · rw [name_ofValue]
    exact name_ne_reserved_of_enabled h

end Sources

/-! ## Definitions that differ for one server -/

/-- Apart from the definitions under one name, the definitions are the same. -/
def SameBeside (changed : String) (l l' : List (String × Value)) : Prop :=
  l.filter (fun e => decide (e.1 ≠ changed)) = l'.filter fun e => decide (e.1 ≠ changed)

/-- **All other names have the same first definition.** -/
theorem SameBeside.lookup {changed name : String} {l l' : List (String × Value)}
    (h : SameBeside changed l l') (hname : name ≠ changed) : l.lookup name = l'.lookup name := by
  have hfilter : ∀ l : List (String × Value),
      (l.filter fun e => decide (e.1 ≠ changed)).lookup name = l.lookup name := by
    intro l
    exact (lookup_filter (fun k => decide (k ≠ changed)) name l).trans (by simp [hname])
  rw [← hfilter l, ← hfilter l', h]

/-! ## The servers that are configured -/

/-- **A configuration has a server for each name that a source defines, as its first definition describes
    it.** The definitions of the configuration file are the first ones, and the other files follow in the
    order of their names. The servers are in strictly ascending order of their names, under which they are
    defined and found. Sources that differ for one server only are loaded as well, and all other servers are
    the same. -/
theorem load_takes_first_definitions {fs : FileSystem} {path : String} {f : Fleet}
    (h : Fleet.load fs path = .ok f) :
    ∃ s : Sources, s.Found fs path ∧ f.settings = s.settings path ∧
      (∀ name, name ∈ f.servers.map (·.name) ↔
        name ∈ s.main.servers.map (·.1) ∨ ∃ e ∈ s.more, name ∈ e.2.servers.map (·.1)) ∧
      (∀ name, f.server? name
        = (s.definitions.lookup name).map (ServerConfig.ofValue name f.settings.home)) ∧
      f.servers.Pairwise (fun a b => a.name < b.name) ∧
      (∀ name c, f.server? name = some c ↔ c ∈ f.servers ∧ c.name = name) ∧
      f.servers.map (·.name) = (firstOfEach s.definitions).keys ∧
      ∀ changed fs' path' (s' : Sources), s'.Found fs' path' →
        (s'.settings path').home = f.settings.home →
        SameBeside changed s.definitions s'.definitions →
        ∃ f', Fleet.load fs' path' = .ok f' ∧
          ∀ name, name ≠ changed → f'.server? name = f.server? name := by
  obtain ⟨s, hfound, rfl⟩ := load_eq_ok_iff.1 h
  have hdiffer : (s.fleet path).NamesDiffer := Sources.namesDiffer_fleet
  refine ⟨s, hfound, rfl, ?_, Sources.server?_fleet, Sources.ascending_fleet, ?_,
    Sources.names_fleet, ?_⟩
  · intro name
    have hserver : name ∈ (s.fleet path).servers.map (·.name)
        ↔ ((s.fleet path).server? name).isSome = true := by
      simp [Fleet.server?]
    have hdefined : (s.definitions.lookup name).isSome = true ↔ name ∈ s.definitions.map (·.1) := by
      rw [List.lookup_isSome_iff, List.mem_map]
      refine exists_congr fun e => and_congr_right fun _ => ?_
      exact beq_iff_eq.trans eq_comm
    rw [hserver, Sources.server?_fleet, Option.isSome_map, hdefined]
    simp only [Sources.definitions, List.map_append, List.map_flatMap, List.mem_append, List.mem_flatMap]
  · intro name c
    exact Fleet.server?_eq_some_iff hdiffer
  · intro changed fs' path' s' hfound' hhome hsame
    refine ⟨s'.fleet path', load_eq_ok_iff.2 ⟨s', hfound', rfl⟩, ?_⟩
    intro name hname
    rw [Sources.server?_fleet, Sources.server?_fleet, hsame.lookup hname, hhome]
    rfl

/-! ### Two further files -/

/-- What can be read is what the configuration says. -/
theorem Fleet.load_of_toOption {fs : FileSystem} {path : String} {f : Fleet}
    (h : (Fleet.load fs path).toOption = some f) : Fleet.load fs path = .ok f := by
  cases hl : Fleet.load fs path with
  | error e =>
    rw [hl] at h
    cases h
  | ok g =>
    rw [hl] at h
    cases h
    rfl

namespace FurtherFiles

/-- The configuration file defines one server and names a directory with more files. -/
def mainText : String :=
  "[global]\nhome = \"srv\"\nconfiguration_files_directory = \"conf.d\"\n" ++
    "[servers.m]\nbackup_command = \"true\"\n"

/-- The first one of the further files defines that server once more, and another one by a section that may
    say anything. -/
def firstText (said : String) : String :=
  "[servers.m]\nbackup_command = \"false\"\n[servers]\nx = " ++ said ++ "\n"

/-- The second one defines this one once more, and a third one. -/
def secondText : String :=
  "[servers.x]\nbackup_command = \"false\"\n[servers.w]\nbackup_command = \"true\"\n"

/-- The configuration file, and the directory with the further files and one that is none. -/
def files (said : String) : FileSystem :=
  let dir : Location := ["conf.d"]
  let text (s : String) : Entry := .file (Text.encode s.toList)
  let tree := ((((FileTree.empty.put ["bman.toml"] (text mainText)).put dir .directory).put
    ("b.toml" :: dir) (text secondText)).put ("a.toml" :: dir) (text (firstText said))).put
    ("note.txt" :: dir) (text "none")
  ⟨tree, [], []⟩

/-- A server stored in `srv` that runs the command `true`. -/
def server (name : String) : ServerConfig :=
  { ServerConfig.new name "srv" with backupCommand := some "true" }

/-- The fleet whose server `x` is defined by a flag, which is no section. -/
def fleet : Fleet :=
  .ofServers { Settings.new "bman.toml" with
      home := "srv", lockDirectory := "srv", filesDirectory := some "conf.d" }
    [server "m", server "w", ServerConfig.ofValue "x" "srv" (.boolean true)]

end FurtherFiles

open FurtherFiles in
/-- A section that is none spoils the server that it defines first, and no other one. -/
theorem flag_as_section_spoils_one_server :
    ∃ s : Sources, s.Found (files "true") "bman.toml" ∧
      (∀ name, name ∈ ["m", "w", "x"] ↔
        name ∈ s.main.servers.map (·.1) ∨ ∃ e ∈ s.more, name ∈ e.2.servers.map (·.1)) ∧
      (s.definitions.lookup "x").map (ServerConfig.ofValue "x" "srv")
        = some (ServerConfig.ofValue "x" "srv" (.boolean true)) ∧
      (fleet.servers.map fun c => (c.name, c.disabled)) = [("m", false), ("w", false), ("x", true)] := by
  have hload : Fleet.load (files "true") "bman.toml" = .ok fleet :=
    Fleet.load_of_toOption (by decide +kernel)
  obtain ⟨s, hfound, -, hnames, hserver, -⟩ := load_takes_first_definitions hload
  refine ⟨s, hfound, hnames, ?_, by decide +kernel⟩
  exact (hserver "x").symm.trans (by decide +kernel)

end BackupFleet
