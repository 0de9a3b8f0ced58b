import BackupFleet.Proofs.Recovery.Rules
import BackupFleet.Proofs.Text.Pieces
import BackupFleet.Storage.Backup

/-!
# `BackupFleet.Proofs.Storage.Handover` — the relocations a recovery hook reads

A recovery hook is told the relocations in one variable, one relocation on each line. The rules they come
from were read and compared with the tablespaces of the backup before, so a hook might trust that what it
reads line by line are these relocations. Reading a rule excludes no character but the colon of a name,
though, and a relocation with a line feed in it takes several lines.

Main statement: `relocations_handed_over_iff` — the hook reads the relocations that were checked iff none of
them has a line feed, and only the further lines of a relocation can name a tablespace that the backup has
not (`second_line_relocates_unknown_tablespace`).

## Contents

* `linesOf`, `rulesIn`, `namesIn` — a value, as a hook reads it;
* `rulesIn_intercalate` — the lines of relocations;
* `readRules_rulesIn_iff`, `names_known_iff` — what the lines say;
* `recover_congr` — hooks are told nothing else.
-/

namespace BackupFleet.Storage

open Recovery

/-! ## A value as a hook reads it -/

/-- The pieces of a text between line feeds. -/
def linesOf (text : String) : List String :=
  (Text.splitWhen (· == '\n') text.toList).map String.ofList

/-- The rules in a value that has one on each line; an empty value has none. -/
def rulesIn (value : String) : List String := if value = "" then [] else linesOf value

/-- The names that texts relocate; a text that is not a rule names nothing. -/
def namesIn (rules : List String) : List String :=
  rules.filterMap fun rule => (splitRule rule).map (·.1)

theorem mem_namesIn {rules : List String} {name : String} :
    name ∈ namesIn rules ↔ ∃ rule ∈ rules, ∃ location, splitRule rule = some (name, location) := by
  simp [namesIn]

theorem not_mem_of_mem_linesOf {text line : String} (h : line ∈ linesOf text) :
    '\n' ∉ line.toList := by
  obtain ⟨cs, hcs, rfl⟩ := List.mem_map.1 h
  intro hmem
  rw [String.toList_ofList] at hmem
  simpa using (Text.of_mem_splitWhen hcs _ hmem).1

/-- A text without a line feed is one line. -/
theorem linesOf_of_not_mem {text : String} (h : '\n' ∉ text.toList) : linesOf text = [text] := by
  have hone : Text.splitWhen (· == '\n') text.toList = [text.toList] :=
    Text.splitWhen_of_forall fun c hc => beq_false_of_ne fun he => h (he ▸ hc)
  rw [linesOf, hone, List.map_singleton, String.ofList_toList]

/-- The first line is what the text starts with. -/
theorem exists_linesOf (text : String) : ∃ first rest tail,
    linesOf text = first :: tail ∧ text = first ++ rest := by
  unfold linesOf
  cases hs : Text.splitWhen (· == '\n') text.toList with
  | nil => exact absurd hs (Text.splitWhen_ne_nil _ _)
  | cons first tail =>
    obtain ⟨rest, hrest⟩ := Text.prefix_of_splitWhen hs
    refine ⟨_, String.ofList rest, _, List.map_cons, String.toList_inj.1 ?_⟩
    simp [hrest]

/-- **The lines of relocations are the lines of one after the other.** -/
theorem rulesIn_intercalate {es : List (String × String)} :
    rulesIn ("\n".intercalate (es.map ruleText)) = es.flatMap fun e => linesOf (ruleText e) := by
  cases es with
  | nil => rfl
  | cons e r =>
    have hne : "\n".intercalate ((e :: r).map ruleText) ≠ "" := by
      -- There is a colon in it, at least.
      intro he
      have hcolon : ':' ∈ ("\n".intercalate ((e :: r).map ruleText)).toList := by
        cases r <;> simp [ruleText]
      rw [he] at hcolon
      exact absurd hcolon (by decide)
    have hsplit : Text.splitWhen (· == '\n') ("\n".intercalate ((e :: r).map ruleText)).toList
        = (e :: r).flatMap fun e => Text.splitWhen (· == '\n') (ruleText e).toList := by
      rw [String.toList_intercalate]
      exact (Text.splitWhen_intercalate (c := '\n') (by decide) (List.cons_ne_nil _ _)).trans
        (by simp [List.flatMap_map])
    rw [rulesIn, if_neg hne, linesOf, hsplit, List.map_flatMap]
    rfl

/-! ## What the lines say -/

section Reading

variable {rules known : List String} {m : Relocations}

/-- **The relocations of rules are read back from their lines iff none of them has a line feed.** -/
theorem readRules_rulesIn_iff (h : readRules rules = .ok m) :
    readRules (rulesIn ("\n".intercalate (m.entries.map ruleText))) = .ok m ↔
      ∀ e ∈ m.entries, '\n' ∉ (ruleText e).toList := by
  rw [rulesIn_intercalate]
  constructor
  · intro hread e he
    obtain ⟨other, -, hline⟩ := List.mem_flatMap.1 (ruleText_of_mem_entries hread he).1
    exact not_mem_of_mem_linesOf hline
  · intro hnone
    have hlines : (m.entries.flatMap fun e => linesOf (ruleText e)) = m.entries.map ruleText := by
      rw [List.map_eq_flatMap]
      exact List.flatMap_congr fun e he => linesOf_of_not_mem (hnone e he)
    rw [hlines]
    exact readRules_ruleTexts fun e he => (ruleText_of_mem_entries h he).2

/-- The first line of a relocation names what the relocation names, if it names anything. -/
theorem name_of_first_line {e : String × String} {first rest name location : String}
    (he : splitRule (ruleText e) = some e) (htext : ruleText e = first ++ rest)
    (hs : splitRule first = some (name, location)) : name = e.1 := by
  have := splitRule_append hs rest
  rw [← htext, he] at this
  exact (congrArg Prod.fst (Option.some.inj this)).symm

/-- **Only the further lines of a relocation can name what is not known.** -/
theorem names_known_iff (h : readRules rules = .ok m) (hknown : checkNames m known = .ok ()) :
    (∀ name ∈ namesIn (rulesIn ("\n".intercalate (m.entries.map ruleText))), name ∈ known) ↔
      ∀ e ∈ m.entries, ∀ name ∈ namesIn (linesOf (ruleText e)).tail, name ∈ known := by
  rw [rulesIn_intercalate]
  constructor
  · intro hall e he name hname
    obtain ⟨line, hline, location, hs⟩ := mem_namesIn.1 hname
    refine hall name (mem_namesIn.2 ⟨line, ?_, location, hs⟩)
    exact List.mem_flatMap.2 ⟨e, he, List.mem_of_mem_tail hline⟩
  · intro hall name hname
    obtain ⟨line, hline, location, hs⟩ := mem_namesIn.1 hname
    obtain ⟨e, he, hline⟩ := List.mem_flatMap.1 hline
    obtain ⟨first, rest, tail, hlines, htext⟩ := exists_linesOf (ruleText e)
    rw [hlines] at hline
    rcases List.mem_cons.1 hline with rfl | htail
    · rw [name_of_first_line (ruleText_of_mem_entries h he).2 htext hs]
      exact checkNames_eq_ok_iff_keys.1 hknown _ (List.mem_map.2 ⟨e, he, rfl⟩)
    · refine hall e he name (mem_namesIn.2 ⟨line, ?_, location, hs⟩)
      rwa [hlines, List.tail_cons]

end Reading

/-! ## What a hook is told -/

/-- The variable that holds the relocations. -/
def relocationsKey : String := "BMAN_TABLESPACES"

/-- Hooks that do the same wherever they are told these relocations make the same recovery. -/
theorem recover_congr {hooks hooks' : HookRunner} (c : ServerConfig) (r : Catalog.Record)
    (q : RecoveryRequest) {value : String}
    (hvalue : (recoveryParameters c r q).lookup relocationsKey = some value)
    (h : ∀ run call fs, call.environment.lookup relocationsKey = some value →
      hooks run call fs = hooks' run call fs) : recover hooks c r q = recover hooks' c r q := by
  have hrun : ∀ command, runHook hooks c command (recoveryParameters c r q)
      = runHook hooks' c command (recoveryParameters c r q) := by
    intro command
    funext host
    unfold runHook
    dsimp only
    rw [h _ ⟨command, ("BMAN_SERVER", c.name) :: recoveryParameters c r q⟩ _ hvalue]
  unfold recover runHookWithRetry
  simp only [hrun]

/-- **A recovery hook reads the relocations that were checked iff none of them has a line feed.** Hooks are
    told the relocations in one variable. What its lines say is what was read and compared with the
    tablespaces of the backup iff no name and no location has a line feed; and all names in it are
    tablespaces of the backup iff those in the further lines of each relocation are. -/
theorem relocations_handed_over_iff (c : ServerConfig) {r : Catalog.Record} {q : RecoveryRequest}
    {rules : List String} (hread : readRules rules = .ok q.relocations)
    (hnames : checkNames q.relocations r.tablespaceNames = .ok ()) :
    ∃ value, (recoveryParameters c r q).lookup relocationsKey = some value ∧
      (∀ hooks hooks' : HookRunner,
        (∀ run call fs, call.environment.lookup relocationsKey = some value →
          hooks run call fs = hooks' run call fs) → recover hooks c r q = recover hooks' c r q) ∧
      (readRules (rulesIn value) = .ok q.relocations ↔
        ∀ e ∈ q.relocations.entries, '\n' ∉ e.1.toList ∧ '\n' ∉ e.2.toList) ∧
      ((∀ name ∈ namesIn (rulesIn value), name ∈ r.tablespaceNames) ↔
        ∀ e ∈ q.relocations.entries, ∀ name ∈ namesIn (linesOf (ruleText e)).tail,
          name ∈ r.tablespaceNames) := by
  have hvalue : (recoveryParameters c r q).lookup relocationsKey
      = some ("\n".intercalate (q.relocations.entries.map ruleText)) := rfl
  refine ⟨_, hvalue, fun hooks hooks' h => recover_congr c r q hvalue h, ?_, names_known_iff hread hnames⟩
  rw [readRules_rulesIn_iff hread]
  simp [ruleText]

/-! ### A relocation of two lines -/

namespace TwoLines

/-- One server, stored in `srv`. -/
def server : ServerConfig := ServerConfig.new "main" "srv"

/-- A backup with one tablespace. -/
def record : Catalog.Record :=
  { Catalog.Record.new "main" "b1" .epoch with tablespaces := [⟨"a", 1, "/a"⟩] }

/-- One rule, whose location has a line feed. -/
def rules : List String := ["a:/x\nb:/y"]

/-- That rule as a relocation, with nothing else asked for. -/
def request : RecoveryRequest :=
  { destination := "dest", relocations := OrderedMap.ofList [("a", "/x\nb:/y")]
    target := ⟨none, none, none, none, false⟩, remoteCommand := none, retryTimes := 0, retrySleep := 0 }

end TwoLines

open TwoLines in
/-- The rule names the one tablespace that there is; its second line relocates another. -/
theorem second_line_relocates_unknown_tablespace :
    readRules rules = .ok request.relocations ∧
    checkNames request.relocations record.tablespaceNames = .ok () ∧
    ∃ value, (recoveryParameters server record request).lookup relocationsKey = some value ∧
      readRules (rulesIn value) ≠ .ok request.relocations ∧
      ∃ name ∈ namesIn (rulesIn value), name ∉ record.tablespaceNames := by
  have hread : readRules rules = .ok request.relocations := by rfl
  have hnames : checkNames request.relocations record.tablespaceNames = .ok () := by rfl
  refine ⟨hread, hnames, ?_⟩
  obtain ⟨value, hvalue, -, hback, hknown⟩ := relocations_handed_over_iff server hread hnames
  have hentry : ("a", "/x\nb:/y") ∈ request.relocations.entries := by decide
  refine ⟨value, hvalue, fun hsame => ?_, ?_⟩
  · exact absurd (hback.1 hsame _ hentry).2 (by decide)
  · have hb : "b" ∈ namesIn (linesOf (ruleText ("a", "/x\nb:/y"))).tail := by decide +kernel
    by_contra hall
    push Not at hall
    exact absurd (hknown.1 hall _ hentry _ hb) (by decide)

end BackupFleet.Storage
