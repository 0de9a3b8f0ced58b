import BackupFleet.Proofs.Command.Step
import BackupFleet.Proofs.Storage.Deletion

/-!
# `BackupFleet.Proofs.Command.Deletion` — what `delete` removes

The command looks a backup up by the name of its directory and then removes the directory that the
record names. Nothing compares the two names. The main statement says for every run that ends without a
complaint when it has deleted the backup that was asked for and nothing else: exactly when the path with
the recorded id takes only what it has to.

## Contents

* `Run.deleteRecord_apply`, `removed_of_delete` — a deletion as a step on the files;
* `delete_takes_only_the_backup_iff` — the main statement.
-/

namespace BackupFleet

open Storage

/-- A literal id is looked up as it is. -/
theorem resolve_literal {σ : Type} (s : Services σ) (c : ServerConfig) (world : σ) {id : String}
    (h : Catalog.Identifier.read id = .literal id) :
    (Catalog.Identifier.read id).resolve (s.lookup c world) = s.getBackup c id world := by
  rw [h]
  rfl

/-- What a deletion does with the record that was found. -/
def Run.deleteRecord {σ : Type} (s : Services σ) (name : String) (c : ServerConfig)
    (r : Catalog.Record) : Run σ Unit := do
  info ("Deleting backup " ++ r.id ++ " for server " ++ name)
  perform (s.deleteBackup c r)
  info "Done"

theorem Run.delete_eq {σ : Type} (f : Fleet) (s : Services σ) (name id : String) :
    Run.delete f s name id
      = withServer f name .blocking fun c => withBackup s c id (deleteRecord s name c) := rfl

/-- With the record found, all that is done to the files is one removal, of the directory that the record
    names. -/
theorem Run.deleteRecord_apply (hooks : HookRunner) (name : String) (c : ServerConfig)
    (r : Catalog.Record) (session : Session Host) :
    ∃ ms ms', deleteRecord (services hooks) name c r session
      = match FileSystem.removeAll (backupDir c r.id) session.world.files with
        | .ok () fs => .ok () ⟨ms, { session.world with files := fs }⟩
        | .error e fs => .error (.file .deleteBackup (backupDir c r.id) e)
            ⟨ms', { session.world with files := fs }⟩ := by
  let first := Message.info ("Deleting backup " ++ r.id ++ " for server " ++ name)
  refine ⟨session.messages ++ [first] ++ [.info "Done"], session.messages ++ [first], ?_⟩
  unfold deleteRecord
  simp only [Effect.bind_apply, info_apply, perform_apply, services, deleteBackup, Host.onFiles]
  cases FileSystem.removeAll (backupDir c r.id) session.world.files <;> rfl

/-- A deletion that ends without a complaint has found the server and the backup, and has removed the
    directory that the record names. -/
theorem removed_of_delete {f : Fleet} {hooks : HookRunner} {zone : Time.Zone} {name id : String}
    {host : Host} {e : Execution Host} (hliteral : Catalog.Identifier.read id = .literal id)
    (he : Command.execute f (services hooks) zone (.delete name id) host = e)
    (hquiet : failed e.messages = false) (hfault : e.fault = none) :
    ∃ c r, f.server? name = some c ∧ c.disabled = false ∧ c.active = true ∧
      getBackup c id host.files = .ok (some r) ∧
      FileSystem.removeAll (backupDir c r.id) host.files = .ok () e.world.files := by
  rw [Command.execute_eq] at he
  subst he
  have hrun : Command.run f (services hooks) zone (.delete name id) ⟨[], host⟩
      = Run.delete f (services hooks) name id ⟨[], host⟩ := rfl
  rw [hrun, Run.delete_eq] at hquiet hfault ⊢
  rcases Run.withServer_cases f name (fun c => Run.withBackup (services hooks) c id
      (Run.deleteRecord (services hooks) name c)) ⟨[], host⟩ with
    ⟨c, -, hserver, henabled, hactive, hact⟩ | ⟨ms, hms, hact⟩
  · rw [hact] at hquiet hfault ⊢
    rcases Run.withBackup_cases (services hooks) c id (Run.deleteRecord (services hooks) name c)
        ⟨[], host⟩ with ⟨r, hr, hdo⟩ | ⟨ms, hms, hdo⟩ | ⟨fault, hdo⟩
    · rw [resolve_literal _ _ _ hliteral] at hr
      refine ⟨c, r, hserver, henabled, hactive, hr, ?_⟩
      obtain ⟨ms, ms', happly⟩ := Run.deleteRecord_apply hooks name c r ⟨[], host⟩
      rw [hdo, happly] at hfault ⊢
      cases hremove : FileSystem.removeAll (backupDir c r.id) host.files with
      | ok _ fs => rfl
      | error err fs =>
        rw [hremove] at hfault
        cases hfault
    · rw [hdo] at hquiet
      simp [Execution.ofResult, hms] at hquiet
    · rw [hdo] at hfault
      cases hfault
  · rw [hact] at hquiet
    simp [Execution.ofResult, hms] at hquiet

/-- **A deletion without a complaint takes the backup that was asked for, and nothing else, exactly when
    the path with the recorded id takes only what it has to.** With a base directory whose path does not
    lead through its own backups, a record that names its own directory is enough for that, and a record
    that names another one rules it out. -/
theorem delete_takes_only_the_backup_iff {f : Fleet} {hooks : HookRunner} {zone : Time.Zone}
    {name id : String} {host : Host} {e : Execution Host}
    (hliteral : Catalog.Identifier.read id = .literal id)
    (he : Command.execute f (services hooks) zone (.delete name id) host = e)
    (hquiet : failed e.messages = false) (hfault : e.fault = none) :
    ∃ c r, f.server? name = some c ∧ c.disabled = false ∧ c.active = true ∧
      getBackup c id host.files = .ok (some r) ∧
      (DeletedAlone c id host.files e.world.files ↔ TakesOnly c id (backupDir c r.id) host.files) ∧
      (ClearBase c host.files → r.id = id → DeletedAlone c id host.files e.world.files) ∧
      (ClearBase c host.files → Path.IsName r.id → r.id ≠ id →
        ¬DeletedAlone c id host.files e.world.files) := by
  obtain ⟨c, r, hserver, henabled, hactive, hr, hremoved⟩ :=
    removed_of_delete hliteral he hquiet hfault
  have hid : HasBackup c id host.files := hasBackup_of_getBackup hr
  have hiff := deletedAlone_iff_takesOnly hremoved hid
  refine ⟨c, r, hserver, henabled, hactive, hr, hiff, fun hclear hsame => ?_,
    fun hclear hname hne hd => ?_⟩
  · rw [hsame] at hiff
    exact hiff.2 (takesOnly_own hclear hid)
  · exact not_takesOnly_other hclear hid hname hne (hiff.1 hd)

/-! ### A copied directory -/

namespace CopiedBackup

/-- One server, stored in `srv`. -/
def server : ServerConfig := { ServerConfig.new "main" "srv" with active := true }

def fleet : Fleet := ⟨Settings.new "bman.conf", [server], []⟩

/-- The record of the backup `b2`. -/
def record : Catalog.Record := Catalog.Record.new "main" "b2" .epoch

/-- The directory of `b2`, and a copy of it that is called `b1`. -/
def host : Host :=
  let base : Location := ["base", "main", "srv"]
  let tree := (((((FileTree.empty.put ["srv"] .directory).put ["main", "srv"] .directory).put base
    .directory).put ("b1" :: base) .directory).put ("b2" :: base) .directory)
  { (default : Host) with
    files := ⟨(tree.put (recordName :: "b1" :: base) (.file record.encode)).put
      (recordName :: "b2" :: base) (.file record.encode), [], []⟩ }

end CopiedBackup

open CopiedBackup in
/-- Asked to delete the copy, the command takes the original. -/
theorem delete_of_copied_directory :
    ∃ e, Command.execute fleet (services .idle) .utc (.delete "main" "b1") host = e ∧
      failed e.messages = false ∧ e.fault = none ∧
      ¬DeletedAlone server "b1" host.files e.world.files := by
  refine ⟨_, rfl, by decide +kernel, by decide +kernel, ?_⟩
  obtain ⟨c, r, hserver, -, -, hr, -, -, hother⟩ :=
    @delete_takes_only_the_backup_iff fleet .idle .utc "main" "b1" host _ (by decide) rfl
      (by decide +kernel) (by decide +kernel)
  have hc : fleet.server? "main" = some server := by decide
  obtain rfl : server = c := Option.some.inj (hc.symm.trans hserver)
  have hrecord : getBackup server "b1" host.files = .ok (some record) := by rfl
  obtain rfl : record = r := Option.some.inj (Except.ok.inj (hrecord.symm.trans hr))
  exact hother (by decide) (by decide) (by decide)

end BackupFleet
