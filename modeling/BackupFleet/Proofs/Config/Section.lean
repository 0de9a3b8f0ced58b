import BackupFleet.Config.Section
import BackupFleet.Proofs.Text.Pieces

/-!
# `BackupFleet.Proofs.Config.Section` — what is wrong with the section of a server

Four things can be wrong with the configuration of a server. Its name may be the reserved one; its section
may not be one; and a section may choose what is not known for unchanged files, and lack a backup command.
A server has a problem for each of these that holds, in this order, and it is disabled iff one holds. So a
server that is not disabled has a backup command.

## Contents

* `ServerConfig.unread`, `ofValue_eq`, `name_ofValue` — the server before its section is read;
* `ConfigProblem`, `ConfigProblem.Holds`, `ConfigProblem.message`, `ConfigProblem.rank` — the problems;
* `problemsOf`, `mem_problemsOf`, `pairwise_problemsOf`, `problems_ofValue` — the problems that a server has;
* `disabled_ofValue_iff`, `name_ne_reserved_of_enabled`, `backupCommand_of_enabled` — disabled servers, and
  enabled ones.
-/

namespace BackupFleet

open Toml (Value)

/-! ## A server before its section is read -/

/-- A server of which only the name is known, with a problem if that is the reserved one. -/
def ServerConfig.unread (name home : String) : ServerConfig :=
  if name = reservedName then
    (ServerConfig.new name home).disable
      ("'" ++ reservedName ++ "' is a reserved word and cannot be used as server name")
  else ServerConfig.new name home

theorem ofValue_eq (name home : String) (v : Value) :
    ServerConfig.ofValue name home v = match ServerSection.read v with
      | .ok s => s.configure (ServerConfig.unread name home)
      | .error e => (ServerConfig.unread name home).disable
          ("invalid configuration for server '" ++ name ++ "': " ++ e.message) := rfl

theorem name_unread (name home : String) : (ServerConfig.unread name home).name = name := by
  unfold ServerConfig.unread
  split <;> rfl

namespace ServerSection

variable (s : ServerSection) (c : ServerConfig)

/-! ### What a section leaves alone -/

theorem name_placeFiles : (s.placeFiles c).name = c.name := by
  unfold placeFiles
  cases s.backupDirectory <;> rfl

theorem problems_placeFiles : (s.placeFiles c).problems = c.problems := by
  unfold placeFiles
  cases s.backupDirectory <;> rfl

theorem name_chooseReuse : (s.chooseReuse c).name = c.name := by
  unfold chooseReuse
  cases s.reuseBackup with
  | none => rfl
  | some value =>
    dsimp only
    cases ReuseBackup.read value <;> rfl

theorem name_chooseBackupCommand : (s.chooseBackupCommand c).name = c.name := by
  unfold chooseBackupCommand
  split <;> rfl

/-- A section cannot give its server another name. -/
theorem name_configure : (s.configure c).name = c.name := by
  rw [configure, name_chooseBackupCommand, name_chooseReuse, name_placeFiles]

end ServerSection

@[simp] theorem name_ofValue (name home : String) (v : Value) :
    (ServerConfig.ofValue name home v).name = name := by
  rw [ofValue_eq]
  cases ServerSection.read v with
  | ok s =>
    show (s.configure _).name = name
    rw [s.name_configure, name_unread]
  | error e => exact name_unread name home

/-! ## Problems -/

/-- Something that is wrong with the configuration of a server. -/
inductive ConfigProblem where
  | reserved
  | noSection (e : SectionError)
  | unknownReuse (value : String)
  | noBackupCommand

namespace ConfigProblem

/-- The problem is there. A command of blanks only is none. -/
def Holds (name : String) (v : Value) : ConfigProblem → Prop
  | reserved => name = reservedName
  | noSection e => ServerSection.read v = .error e
  | unknownReuse value => ∃ s, ServerSection.read v = .ok s ∧ s.reuseBackup = some value ∧
      ∀ r : ReuseBackup, r.name ≠ value
  | noBackupCommand => ∃ s, ServerSection.read v = .ok s ∧
      ∀ command, s.backupCommand = some command → ∀ ch ∈ command.toList, Text.isBlank ch = true

/-- How the problem is told. -/
def message (name : String) : ConfigProblem → String
  | reserved => "'" ++ reservedName ++ "' is a reserved word and cannot be used as server name"
  | noSection e => "invalid configuration for server '" ++ name ++ "': " ++ e.message
  | unknownReuse value => "reuse_backup: " ++ ReuseBackup.complaint value
  | noBackupCommand => "backup_command: option is required"

/-- The place of the problem among others. -/
def rank : ConfigProblem → Nat
  | reserved => 0
  | noSection _ => 1
  | unknownReuse _ => 2
  | noBackupCommand => 3

end ConfigProblem

/-! ### The problems of a section -/

/-- A value is no choice for unchanged files iff it is the name of none. -/
theorem ReuseBackup.read_eq_error_iff {value complaint : String} :
    ReuseBackup.read value = .error complaint ↔
      (∀ r : ReuseBackup, r.name ≠ value) ∧ complaint = ReuseBackup.complaint value := by
  constructor
  · intro h
    constructor
    · intro r hr
      rw [← hr, ReuseBackup.read_name] at h
      cases h
    · unfold ReuseBackup.read at h
      repeat' split at h
      all_goals cases h
      rfl
  · rintro ⟨hnone, rfl⟩
    have hoff : value ≠ "off" := (hnone .off).symm
    have hcopy : value ≠ "copy" := (hnone .copy).symm
    have hlink : value ≠ "link" := (hnone .link).symm
    rw [ReuseBackup.read, if_neg hoff, if_neg hcopy, if_neg hlink]

namespace ServerSection

/-- What is wrong with the choice for unchanged files. -/
def reuseProblems (s : ServerSection) : List ConfigProblem :=
  match s.reuseBackup with
  | none => []
  | some value =>
    match ReuseBackup.read value with
    | .ok _ => []
    | .error _ => [.unknownReuse value]

/-- The backup command, if it is more than blanks. -/
def givenCommand (s : ServerSection) : Option String :=
  s.backupCommand.filter fun command => decide (Text.trim command.toList ≠ [])

/-- What is wrong with the backup command. -/
def commandProblems (s : ServerSection) : List ConfigProblem :=
  match s.givenCommand with
  | some _ => []
  | none => [.noBackupCommand]

variable (s : ServerSection) (c : ServerConfig)

theorem problems_chooseReuse (name : String) : (s.chooseReuse c).problems
    = c.problems ++ s.reuseProblems.map (ConfigProblem.message name) := by
  unfold chooseReuse reuseProblems
  cases s.reuseBackup with
  | none => simp
  | some value =>
    dsimp only
    cases hread : ReuseBackup.read value with
    | ok r => simp
    | error complaint =>
      obtain ⟨-, rfl⟩ := ReuseBackup.read_eq_error_iff.1 hread
      rfl

theorem chooseBackupCommand_eq : s.chooseBackupCommand c = match s.givenCommand with
    | some command => { c with backupCommand := some command }
    | none => c.disable "backup_command: option is required" := rfl

theorem problems_chooseBackupCommand (name : String) : (s.chooseBackupCommand c).problems
    = c.problems ++ s.commandProblems.map (ConfigProblem.message name) := by
  rw [chooseBackupCommand_eq]
  unfold commandProblems
  cases s.givenCommand with
  | none => rfl
  | some command => simp

/-- A section adds its problems to those that are there already. -/
theorem problems_configure (name : String) : (s.configure c).problems
    = c.problems ++ (s.reuseProblems ++ s.commandProblems).map (ConfigProblem.message name) := by
  rw [configure, problems_chooseBackupCommand _ _ name, problems_chooseReuse _ _ name,
    problems_placeFiles, List.map_append, List.append_assoc]

theorem mem_reuseProblems {s : ServerSection} {p : ConfigProblem} :
    p ∈ s.reuseProblems ↔ ∃ value, p = .unknownReuse value ∧ s.reuseBackup = some value ∧
      ∀ r : ReuseBackup, r.name ≠ value := by
  unfold reuseProblems
  constructor
  · intro h
    cases hvalue : s.reuseBackup with
    | none => simp [hvalue] at h
    | some value =>
      cases hread : ReuseBackup.read value with
      | ok r => simp [hvalue, hread] at h
      | error complaint =>
        have hp : p = .unknownReuse value := by simpa [hvalue, hread] using h
        exact ⟨value, hp, rfl, (ReuseBackup.read_eq_error_iff.1 hread).1⟩
  · rintro ⟨value, rfl, hvalue, hnone⟩
    rw [hvalue]
    dsimp only
    rw [ReuseBackup.read_eq_error_iff.2 ⟨hnone, rfl⟩]
    exact List.mem_singleton.2 rfl

theorem mem_commandProblems {s : ServerSection} {p : ConfigProblem} :
    p ∈ s.commandProblems ↔ p = .noBackupCommand ∧
      ∀ command, s.backupCommand = some command → ∀ ch ∈ command.toList, Text.isBlank ch = true := by
  have hgiven : s.givenCommand = none ↔
      ∀ command, s.backupCommand = some command → ∀ ch ∈ command.toList, Text.isBlank ch = true := by
    simp [givenCommand, Option.filter_eq_none_iff, Text.trim_eq_nil_iff]
  rw [← hgiven]
  unfold commandProblems
  cases s.givenCommand <;> simp

end ServerSection

/-! ### The problems of a server -/

/-- What is wrong with a name. -/
def nameProblems (name : String) : List ConfigProblem :=
  if name = reservedName then [.reserved] else []

/-- All problems with a name and a section, in the order in which they are told. -/
def problemsOf (name : String) (v : Value) : List ConfigProblem :=
  nameProblems name ++
    match ServerSection.read v with
    | .ok s => s.reuseProblems ++ s.commandProblems
    | .error e => [.noSection e]

theorem mem_nameProblems {name : String} {p : ConfigProblem} :
    p ∈ nameProblems name ↔ p = .reserved ∧ name = reservedName := by
  unfold nameProblems
  by_cases h : name = reservedName <;> simp [h]

/-- **The problems are those that hold.** -/
theorem mem_problemsOf {name : String} {v : Value} {p : ConfigProblem} :
    p ∈ problemsOf name v ↔ p.Holds name v := by
  unfold problemsOf
  rw [List.mem_append, mem_nameProblems]
  cases hread : ServerSection.read v with
  | error e =>
    cases p with
    | noSection e' =>
      simp only [ConfigProblem.Holds, hread]
      simp [eq_comm]
    | reserved => simp [ConfigProblem.Holds]
    | unknownReuse value => simp [ConfigProblem.Holds, hread]
    | noBackupCommand => simp [ConfigProblem.Holds, hread]
  | ok s =>
    simp only [List.mem_append, ServerSection.mem_reuseProblems, ServerSection.mem_commandProblems]
    cases p <;> simp [ConfigProblem.Holds, hread]

/-- Each problem is told once, and in its place. -/
theorem pairwise_problemsOf (name : String) (v : Value) :
    (problemsOf name v).Pairwise fun p q => p.rank < q.rank := by
  have hsection : ∀ s : ServerSection,
      (s.reuseProblems ++ s.commandProblems).Pairwise fun p q => p.rank < q.rank := by
    intro s
    unfold ServerSection.reuseProblems ServerSection.commandProblems
    repeat' split
    all_goals simp [ConfigProblem.rank]
  unfold problemsOf
  apply List.pairwise_append.2
  refine ⟨?_, ?_, ?_⟩
  · unfold nameProblems
    split <;> simp
  · cases ServerSection.read v with
    | ok s => exact hsection s
    | error e => exact List.pairwise_singleton _ _
  · intro p hp q hq
    obtain ⟨rfl, -⟩ := mem_nameProblems.1 hp
    cases hread : ServerSection.read v with
    | error e =>
      rw [hread] at hq
      obtain rfl := List.mem_singleton.1 hq
      exact Nat.one_pos
    | ok s =>
      rw [hread] at hq
      rcases List.mem_append.1 hq with hq | hq
      · obtain ⟨value, rfl, -⟩ := ServerSection.mem_reuseProblems.1 hq
        exact Nat.two_pos
      · obtain ⟨rfl, -⟩ := ServerSection.mem_commandProblems.1 hq
        exact Nat.succ_pos 2

theorem problems_unread (name home : String) : (ServerConfig.unread name home).problems
    = (nameProblems name).map (ConfigProblem.message name) := by
  unfold ServerConfig.unread nameProblems
  split <;> rfl

/-- **A server has the messages of its problems, one after the other.** -/
theorem problems_ofValue (name home : String) (v : Value) :
    (ServerConfig.ofValue name home v).problems = (problemsOf name v).map (ConfigProblem.message name) := by
  rw [ofValue_eq, problemsOf, List.map_append, ← problems_unread name home]
  cases ServerSection.read v with
  | ok s => exact s.problems_configure _ name
  | error e => rfl

/-- **A server is disabled iff it has a problem.** -/
theorem disabled_ofValue_iff {name home : String} {v : Value} :
    (ServerConfig.ofValue name home v).disabled = true ↔ ∃ p : ConfigProblem, p.Holds name v := by
  unfold ServerConfig.disabled
  rw [problems_ofValue]
  simp only [← mem_problemsOf]
  cases problemsOf name v with
  | nil => simp
  | cons p r =>
    simp only [List.map_cons, List.isEmpty_cons, Bool.not_false, true_iff]
    exact ⟨p, List.mem_cons_self⟩

/-- A server that is not disabled has another name than the reserved one. -/
theorem name_ne_reserved_of_enabled {name home : String} {v : Value}
    (h : (ServerConfig.ofValue name home v).disabled = false) : name ≠ reservedName := by
  intro hname
  have hdisabled : (ServerConfig.ofValue name home v).disabled = true :=
    disabled_ofValue_iff.2 ⟨.reserved, hname⟩
  rw [h] at hdisabled
  cases hdisabled

/-- **A server that is not disabled has a backup command.** -/
theorem backupCommand_of_enabled {name home : String} {v : Value}
    (h : (ServerConfig.ofValue name home v).disabled = false) :
    (ServerConfig.ofValue name home v).backupCommand ≠ none := by
  rw [ofValue_eq] at h ⊢
  cases hread : ServerSection.read v with
  | error e =>
    rw [hread] at h
    simp at h
  | ok s =>
    rw [hread] at h
    dsimp only at h ⊢
    rw [ServerSection.configure, ServerSection.chooseBackupCommand_eq] at h ⊢
    cases hgiven : s.givenCommand with
    | none =>
      rw [hgiven] at h
      simp at h
    | some command => simp

end BackupFleet
