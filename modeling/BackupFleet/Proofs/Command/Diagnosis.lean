import BackupFleet.Proofs.Command.Step
import BackupFleet.Proofs.Config.Conflict
import BackupFleet.Proofs.Json
import BackupFleet.Proofs.Storage.Readability
import BackupFleet.Proofs.Storage.WalCatalog
import BackupFleet.Proofs.Target.Expansion

/-!
# `BackupFleet.Proofs.Command.Diagnosis` — one report of the whole fleet

A diagnosis is asked for when something is wrong, so it must work where no other command does: with conflicts
in the configuration, and with servers that are disabled or inactive. It leaves the list of conflicts out
where there is no server to report. That drops nothing, since a conflict needs a server; and every server
that is configured is reported, since a diagnosis expands the request for all servers, leaves none out and
does not mind conflicts.

Main statement: `diagnosis_complete_and_harmless`.

## Contents

* `CatalogsReadable`, `exists_diagnose_iff` — a server that can be diagnosed;
* `diagnoseEach_of_readable`, `diagnoseEach_of_unreadable` — one server after the other;
* `fleetReport`, `diagnose_apply` — the report;
* `execute_diagnose_of_readable`, `execute_diagnose_of_unreadable` — a diagnosis from its start.
-/

namespace BackupFleet

/-! ## One server -/

namespace Storage

/-- Both catalogs of a server can be read: that of the backups, and the text of that of the WAL files. -/
structure CatalogsReadable (c : ServerConfig) (fs : FileSystem) : Prop where
  backups : CatalogReadable c fs
  wals : ∃ cs, CatalogText c fs cs

/-- **A server can be diagnosed iff both of its catalogs can be read**, active or not, disabled or not. -/
theorem exists_diagnose_iff {c : ServerConfig} {fs : FileSystem} :
    (∃ j, diagnose c fs = .ok j) ↔ CatalogsReadable c fs := by
  have hwals : (∃ names, readWalCatalog c fs = .ok names) ↔ ∃ cs, CatalogText c fs cs := by
    simp only [readWalCatalog_eq_ok_iff]
    exact ⟨fun ⟨_, cs, hcs, _⟩ => ⟨cs, hcs⟩, fun ⟨cs, hcs⟩ => ⟨walNames cs, cs, hcs, rfl⟩⟩
  have hboth : (∃ j, diagnose c fs = .ok j) ↔
      (∃ l, listBackups c fs = .ok l) ∧ ∃ names, readWalCatalog c fs = .ok names := by
    unfold diagnose
    cases listBackups c fs with
    | error f => simp [bind, Except.bind]
    | ok l => cases readWalCatalog c fs <;> simp [bind, Except.bind, pure, Except.pure]
  rw [hboth, exists_listBackups_iff, hwals]
  exact ⟨fun ⟨hbackups, hwals⟩ => ⟨hbackups, hwals⟩, fun h => ⟨h.backups, h.wals⟩⟩

end Storage

/-! ## One server after the other -/

namespace Run

variable {σ : Type} (s : Services σ) (session : Session σ) {servers : List ServerConfig}

/-- Servers that can be diagnosed are reported each under its name, in their order. -/
theorem diagnoseEach_of_readable (h : ∀ c ∈ servers, ∃ j, s.diagnose c session.world = .ok j) :
    ∃ entries, diagnoseEach s (servers.map fun c => (c.name, some c)) session = .ok entries session ∧
      entries.map (·.1) = servers.map (·.name) ∧
      ∀ c ∈ servers, ∃ j, (c.name, j) ∈ entries ∧ s.diagnose c session.world = .ok j := by
  induction servers with
  | nil => exact ⟨[], rfl, rfl, fun c hc => absurd hc List.not_mem_nil⟩
  | cons c r ih =>
    obtain ⟨⟨j, hj⟩, hr⟩ := List.forall_mem_cons.1 h
    obtain ⟨entries, hrest, hnames, hstates⟩ := ih hr
    refine ⟨(c.name, j) :: entries, ?_, by simp [hnames], List.forall_mem_cons.2 ⟨?_, fun d hd => ?_⟩⟩
    · rw [List.map_cons, diagnoseEach, Effect.bind_apply, ask_apply, hj]
      dsimp only
      rw [Effect.bind_apply, hrest]
      rfl
    · exact ⟨j, List.mem_cons_self, hj⟩
    · obtain ⟨j', hmem, hj'⟩ := hstates d hd
      exact ⟨j', List.mem_cons_of_mem _ hmem, hj'⟩

/-- A server that cannot be diagnosed ends the diagnosis, with the fault of such a server. -/
theorem diagnoseEach_of_unreadable (h : ∃ c ∈ servers, ∃ f, s.diagnose c session.world = .error f) :
    ∃ c ∈ servers, ∃ f, s.diagnose c session.world = .error f ∧
      diagnoseEach s (servers.map fun c => (c.name, some c)) session = .error f session := by
  induction servers with
  | nil =>
    obtain ⟨c, hc, -⟩ := h
    exact absurd hc List.not_mem_nil
  | cons c r ih =>
    rw [List.map_cons, diagnoseEach, Effect.bind_apply, ask_apply]
    cases hfirst : s.diagnose c session.world with
    | error f => exact ⟨c, List.mem_cons_self, f, hfirst, rfl⟩
    | ok j =>
      obtain ⟨d, hd, f, hf⟩ := h
      have hdr : d ∈ r := by
        rcases List.mem_cons.1 hd with rfl | hdr
        · rw [hfirst] at hf
          cases hf
        · exact hdr
      obtain ⟨d', hd', f', hf', hrest⟩ := ih ⟨d, hdr, f, hf⟩
      refine ⟨d', List.mem_cons_of_mem _ hd', f', hf', ?_⟩
      dsimp only
      rw [Effect.bind_apply, hrest]

/-! ## The report -/

/-- Two fields in ascending order are an object as they are. -/
theorem ofFields_pair {k k' : String} (h : k < k') (v v' : Json) :
    Json.ofFields [(k, v), (k', v')] = .object [(k, v), (k', v')] :=
  congrArg Json.object (sortOn_eq_of_perm (List.pairwise_pair.2 h) (.refl _))

/-- The settings and all conflicts of a fleet, and the states of its servers. -/
def fleetReport (f : Fleet) (servers : List (String × Json)) : Json :=
  .object [("global", .object [("config", f.settings.toJson), ("errors_list", .list (f.conflicts.map .text))]),
    ("servers", .object servers)]

/-- **A diagnosis goes through all servers, and then tells one report with all conflicts**, if there is no
    conflict without a server. -/
theorem diagnose_apply {f : Fleet} (hascending : f.servers.Pairwise fun a b => a.name < b.name)
    (hnone : f.servers = [] → f.conflicts = []) :
    diagnose f s session
      = match diagnoseEach s (f.servers.map fun c => (c.name, some c)) session with
        | .ok entries session =>
          .ok () { session with messages := session.messages ++ [.result (fleetReport f entries).render] }
        | .error fault session => .error fault session := by
  let o : ExpandOptions := { stopOnConflict := false, silent := true }
  have ho : ∀ c, o.Keeps c := fun c => ⟨by simp [o], by simp [o]⟩
  have hexpand : expand f .all o = ([], some (expandAll o f.servers).2) := by
    rw [expand_all (.inr rfl), leftOutMessages_eq]
    simp [Fleet.toldConflicts, o, ho]
  have herrors : (if (expandAll o f.servers).2.entries.isEmpty then [] else f.conflicts) = f.conflicts := by
    rw [entries_expandAll hascending ho]
    split
    · rename_i hempty
      exact (hnone (by simpa using hempty)).symm
    · rfl
  have hreport : ∀ entries, Json.ofFields [("global", Json.ofFields [("config", f.settings.toJson),
      ("errors_list", .list (f.conflicts.map .text))]), ("servers", .object entries)]
        = fleetReport f entries := by
    intro entries
    rw [ofFields_pair (by decide), ofFields_pair (by decide), fleetReport]
  unfold diagnose
  rw [hexpand]
  dsimp only
  rw [Effect.bind_apply, say_apply]
  dsimp only
  rw [Option.getD_some, herrors, entries_expandAll hascending ho, Effect.bind_apply, List.append_nil]
  cases diagnoseEach s (f.servers.map fun c => (c.name, some c)) session with
  | error fault session => rfl
  | ok entries session =>
    dsimp only
    rw [hreport]
    rfl

end Run

/-! ## A diagnosis from its start -/

section Diagnosis

variable {f : Fleet} (hooks : HookRunner) (zone : Time.Zone) (host : Host)

/-- What came of a diagnosis is what came of going through the servers. -/
theorem execute_diagnose (hascending : f.servers.Pairwise fun a b => a.name < b.name)
    (hfound : f.conflicts = (findConflicts f.servers).map Conflict.message) :
    Command.diagnose.execute f (Storage.services hooks) zone host
      = match Run.diagnoseEach (Storage.services hooks) (f.servers.map fun c => (c.name, some c))
          ⟨[], host⟩ with
        | .ok entries session =>
          ⟨session.messages ++ [.result (Run.fleetReport f entries).render], session.world, none⟩
        | .error fault session => ⟨session.messages, session.world, some fault⟩ := by
  -- A conflict needs a server.
  have hnone : f.servers = [] → f.conflicts = [] := by
    intro hservers
    rw [hfound, hservers]
    rfl
  have hrun := Run.diagnose_apply (Storage.services hooks) ⟨[], host⟩ hascending hnone
  rw [Command.execute_eq, Command.run, hrun]
  cases Run.diagnoseEach (Storage.services hooks) (f.servers.map fun c => (c.name, some c)) ⟨[], host⟩ <;> rfl

/-- **If all catalogs can be read, one report is told**, with the state of each server. -/
theorem execute_diagnose_of_readable (hascending : f.servers.Pairwise fun a b => a.name < b.name)
    (hfound : f.conflicts = (findConflicts f.servers).map Conflict.message)
    (h : ∀ c ∈ f.servers, Storage.CatalogsReadable c host.files) :
    ∃ servers, Command.diagnose.execute f (Storage.services hooks) zone host
        = ⟨[.result (Run.fleetReport f servers).render], host, none⟩ ∧
      servers.map (·.1) = f.servers.map (·.name) ∧
      ∀ c ∈ f.servers, ∃ j, (c.name, j) ∈ servers ∧ Storage.diagnose c host.files = .ok j := by
  obtain ⟨servers, hrun, hnames, hstates⟩ := Run.diagnoseEach_of_readable (Storage.services hooks)
    ⟨[], host⟩ fun c hc => Storage.exists_diagnose_iff.2 (h c hc)
  refine ⟨servers, ?_, hnames, hstates⟩
  rw [execute_diagnose hooks zone host hascending hfound, hrun]
  rfl

/-- If a catalog cannot be read, nothing is told. -/
theorem execute_diagnose_of_unreadable (hascending : f.servers.Pairwise fun a b => a.name < b.name)
    (hfound : f.conflicts = (findConflicts f.servers).map Conflict.message)
    (h : ∃ c ∈ f.servers, ¬Storage.CatalogsReadable c host.files) :
    ∃ c ∈ f.servers, ∃ fault, Storage.diagnose c host.files = .error fault ∧
      Command.diagnose.execute f (Storage.services hooks) zone host = ⟨[], host, some fault⟩ := by
  obtain ⟨c, hc, hnot⟩ := h
  have hfault : ∃ fault, Storage.diagnose c host.files = .error fault := by
    cases hdiagnose : Storage.diagnose c host.files with
    | error fault => exact ⟨fault, rfl⟩
    | ok j => exact absurd (Storage.exists_diagnose_iff.1 ⟨j, hdiagnose⟩) hnot
  obtain ⟨d, hd, fault, hdiagnose, hrun⟩ := Run.diagnoseEach_of_unreadable (Storage.services hooks)
    ⟨[], host⟩ ⟨c, hc, hfault⟩
  refine ⟨d, hd, fault, hdiagnose, ?_⟩
  rw [execute_diagnose hooks zone host hascending hfound, hrun]

end Diagnosis

/-- **A diagnosis is complete and harmless.** Whatever configuration was loaded, with conflicts or without, and
    whatever the files are, a diagnosis changes nothing. If both catalogs of every server can be read, it tells
    one message, a report as JSON, and no other report has this text. Its list of errors is the list of all
    conflicts, in their order, and it has one entry for each server that a source of the configuration defines,
    active or not, disabled or not: the state of that server under its name. If a catalog cannot be read, the
    diagnosis ends with the fault of such a server and tells nothing. -/
theorem diagnosis_complete_and_harmless {configuration : FileSystem} {path : String} {f : Fleet}
    (hload : Fleet.load configuration path = .ok f) (hooks : HookRunner) (zone : Time.Zone) (host : Host) :
    let e := Command.diagnose.execute f (Storage.services hooks) zone host
    e.world = host ∧
    ((∀ c ∈ f.servers, Storage.CatalogsReadable c host.files) →
      ∃ (report : Json) (servers : List (String × Json)),
        e.fault = none ∧ e.messages = [.result report.render] ∧
        (∀ j : Json, j.render = report.render → j = report) ∧
        report = .object [
          ("global", .object [("config", f.settings.toJson),
            ("errors_list", .list ((findConflicts f.servers).map fun c => .text c.message))]),
          ("servers", .object servers)] ∧
        f.conflicts = (findConflicts f.servers).map Conflict.message ∧
        servers.map (·.1) = f.servers.map (·.name) ∧ (servers.map (·.1)).Nodup ∧
        (∃ s : Sources, s.Found configuration path ∧
          ∀ name, name ∈ servers.map (·.1) ↔ name ∈ s.definitions.map (·.1)) ∧
        ∀ c ∈ f.servers, ∃ j, (c.name, j) ∈ servers ∧ Storage.diagnose c host.files = .ok j) ∧
    ((∃ c ∈ f.servers, ¬Storage.CatalogsReadable c host.files) →
      e.messages = [] ∧ ∃ c ∈ f.servers, ∃ fault,
        Storage.diagnose c host.files = .error fault ∧ e.fault = some fault) := by
  obtain ⟨s, hsources, rfl⟩ := load_eq_ok_iff.1 hload
  have hascending : (s.fleet path).servers.Pairwise fun a b => a.name < b.name := Sources.ascending_fleet
  have hfound := conflicts_of_load hload
  by_cases hreadable : ∀ c ∈ (s.fleet path).servers, Storage.CatalogsReadable c host.files
  · obtain ⟨servers, hrun, hnames, hstates⟩ :=
      execute_diagnose_of_readable hooks zone host hascending hfound hreadable
    dsimp only
    rw [hrun]
    refine ⟨rfl, fun _ => ?_, fun ⟨c, hc, hnot⟩ => absurd (hreadable c hc) hnot⟩
    refine ⟨Run.fleetReport (s.fleet path) servers, servers, rfl, rfl, fun j hj => Json.render_injective hj, ?_,
      hfound, hnames, ?_, ⟨s, hsources, fun name => ?_⟩, hstates⟩
    · rw [Run.fleetReport, hfound, List.map_map]
      rfl
    · rw [hnames]
      exact Sources.namesDiffer_fleet
    · rw [hnames]
      exact Sources.mem_names_fleet
  · have hunreadable : ∃ c ∈ (s.fleet path).servers, ¬Storage.CatalogsReadable c host.files := by
      simpa using hreadable
    obtain ⟨c, hc, fault, hdiagnose, hrun⟩ :=
      execute_diagnose_of_unreadable hooks zone host hascending hfound hunreadable
    dsimp only
    rw [hrun]
    exact ⟨rfl, fun h => absurd h hreadable, fun _ => ⟨rfl, c, hc, fault, hdiagnose, rfl⟩⟩

/-! ### Three servers with a conflict -/

namespace InConflict

/-- An inactive server, one without a backup command, and one that archives where the first one does. -/
def text : String :=
  "[global]\nhome = \"srv\"\n[servers.ada]\nbackup_command = \"true\"\nactive = false\n" ++
    "[servers.bob]\n[servers.eve]\nbackup_command = \"true\"\nwals_directory = \"srv/ada/wals\"\n"

/-- The configuration, a backup of the first server, and a catalog of two WAL files. -/
def files : FileSystem :=
  let home : Location := ["ada", "srv"]
  let record := { Catalog.Record.new "ada" "b1" .epoch with status := .done }
  let stores := (FileTree.empty.put ["srv"] .directory).put home .directory
  let directories := ((stores.put ("base" :: home) .directory).put ("b1" :: "base" :: home) .directory).put
    ("wals" :: home) .directory
  let tree := ((directories.put ("backup.info" :: "b1" :: "base" :: home) (.file record.encode)).put
    ("xlog.db" :: "wals" :: home) (.file (Text.encode "w1\nw2\n".toList))).put ["bman.toml"]
    (.file (Text.encode text.toList))
  ⟨tree, [], []⟩

def host : Host := { (default : Host) with files }

def ada : ServerConfig := { ServerConfig.new "ada" "srv" with backupCommand := some "true", active := false }

def bob : ServerConfig := (ServerConfig.new "bob" "srv").disable "backup_command: option is required"

def eve : ServerConfig :=
  { ServerConfig.new "eve" "srv" with backupCommand := some "true", walsDirectory := "srv/ada/wals" }

def fleet : Fleet :=
  .ofServers { Settings.new "bman.toml" with home := "srv", lockDirectory := "srv" } [ada, bob, eve]

end InConflict

open InConflict in
/-- All three servers are reported, with the one conflict among them. -/
theorem three_servers_diagnosed_in_conflict :
    Fleet.load files "bman.toml" = .ok fleet ∧ ada.active = false ∧ bob.disabled = true ∧
    (∀ c ∈ fleet.servers, Storage.CatalogsReadable c host.files) ∧
    let e := Command.diagnose.execute fleet (Storage.services .idle) .utc host
    e.world = host ∧ e.fault = none ∧ ∃ servers : List (String × Json),
      servers.map (·.1) = ["ada", "bob", "eve"] ∧
      e.messages = [.result (Json.object [
        ("global", .object [("config", fleet.settings.toJson),
          ("errors_list", .list [.text ("Conflicting path: wals_directory=srv/ada/wals for server 'eve': " ++
            "wals_directory=srv/ada/wals for server 'ada'")])]),
        ("servers", .object servers)]).render] := by
  have hload : Fleet.load files "bman.toml" = .ok fleet := Fleet.load_of_toOption (by decide +kernel)
  have hreadable : ∀ c ∈ fleet.servers, Storage.CatalogsReadable c host.files := by
    have hdiagnosed : ∀ c ∈ fleet.servers, (Storage.diagnose c host.files).toBool = true := by decide +kernel
    intro c hc
    have hc := hdiagnosed c hc
    cases hdiagnose : Storage.diagnose c host.files with
    | ok j => exact Storage.exists_diagnose_iff.1 ⟨j, hdiagnose⟩
    | error fault =>
      rw [hdiagnose] at hc
      cases hc
  obtain ⟨hworld, htold, -⟩ := diagnosis_complete_and_harmless hload .idle .utc host
  obtain ⟨report, servers, hfault, hmessages, -, hreport, -, hnames, -⟩ := htold hreadable
  have hconflicts : (findConflicts fleet.servers).map Conflict.message
      = ["Conflicting path: wals_directory=srv/ada/wals for server 'eve': " ++
          "wals_directory=srv/ada/wals for server 'ada'"] := by decide +kernel
  have herrors := congrArg (List.map Json.text) hconflicts
  rw [List.map_map] at herrors
  refine ⟨hload, rfl, rfl, hreadable, hworld, hfault, servers, hnames, ?_⟩
  rw [hmessages, hreport]
  exact congrArg (fun errors => [Message.result (Json.object [("global", .object [("config",
    fleet.settings.toJson), ("errors_list", .list errors)]), ("servers", .object servers)]).render]) herrors

end BackupFleet
