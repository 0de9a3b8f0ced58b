import BackupFleet.Proofs.Order
import BackupFleet.Recovery.Relocation
import Mathlib.Data.List.Basic

/-!
# `BackupFleet.Proofs.Recovery.Rules` — what a list of rules relocates

A rule is read in one way only, and the text of what was read is the rule again. So the relocations that
were read can be written as rules, and those rules say the same.

Main statement: `readRules_ruleTexts` — the relocations of any rules, written as rules, are read back.

## Contents

* `splitRule_eq_some_iff`, `ruleText_of_splitRule`, `splitRule_append` — a rule and its parts;
* `lastLocation`, `get?_of_readRules` — which location a name gets;
* `ruleText_of_mem_entries`, `readRules_ruleTexts` — relocations as rules;
* `checkNames_eq_ok_iff_keys`, `checkNames_eq_ok_iff` — rules for known tablespaces.
-/

namespace BackupFleet.Recovery

/-! ## A rule and its parts -/

/-- What is before the first colon has none. -/
theorem eq_of_splitColon {cs a b : List Char} (h : splitColon cs = some (a, b)) :
    cs = a ++ ':' :: b ∧ ':' ∉ a := by
  induction cs generalizing a with
  | nil => cases h
  | cons c r ih =>
    rw [splitColon] at h
    split at h
    · rename_i hc
      obtain ⟨rfl, rfl⟩ : [] = a ∧ r = b := by simpa using h
      exact ⟨by rw [hc, List.nil_append], List.not_mem_nil⟩
    · rename_i hc
      obtain ⟨⟨first, rest⟩, hr, he⟩ := Option.map_eq_some_iff.1 h
      obtain ⟨rfl, rfl⟩ : c :: first = a ∧ rest = b := by simpa using he
      obtain ⟨rfl, hfirst⟩ := ih hr
      exact ⟨rfl, fun hmem => (List.mem_cons.1 hmem).elim (fun he => hc he.symm) hfirst⟩

/-- A rule is a name without a colon, a colon and a location. -/
theorem splitRule_eq_some_iff {rule name location : String} :
    splitRule rule = some (name, location) ↔
      rule = ruleText (name, location) ∧ ':' ∉ name.toList ∧ name ≠ "" ∧ location ≠ "" := by
  unfold splitRule ruleText
  constructor
  · intro h
    split at h
    · rename_i a b hs
      split at h
      · rename_i hne
        obtain ⟨rfl, rfl⟩ : String.ofList a = name ∧ String.ofList b = location := by simpa using h
        obtain ⟨htext, hcolon⟩ := eq_of_splitColon hs
        refine ⟨String.toList_inj.1 (by simpa using htext), by simpa using hcolon, ?_, ?_⟩
        · simpa using hne.1
        · simpa using hne.2
      · cases h
    · cases h
  · rintro ⟨rfl, hcolon, hname, hlocation⟩
    have htext : (name ++ ":" ++ location).toList = name.toList ++ ':' :: location.toList := by simp
    rw [htext, splitColon_append hcolon]
    simp [hname, hlocation]

theorem ruleText_of_splitRule {rule : String} {e : String × String} (h : splitRule rule = some e) :
    ruleText e = rule :=
  (splitRule_eq_some_iff.1 h).1.symm

/-- Text after a rule belongs to its location. -/
theorem splitRule_append {rule name location : String} (h : splitRule rule = some (name, location))
    (rest : String) : splitRule (rule ++ rest) = some (name, location ++ rest) := by
  obtain ⟨rfl, hcolon, hname, hlocation⟩ := splitRule_eq_some_iff.1 h
  refine splitRule_eq_some_iff.2 ⟨by simp [ruleText, String.append_assoc], hcolon, hname, ?_⟩
  simp [hlocation]

/-! ## The last rule for a name -/

/-- The location of the last of the rules for a name. -/
def lastLocation (rules : List String) (name : String) : Option String :=
  (rules.filterMap splitRule).reverse.lookup name

theorem lastLocation_cons {rule name location : String} {rules : List String}
    (h : splitRule rule = some (name, location)) (n : String) :
    lastLocation (rule :: rules) n
      = (lastLocation rules n).or (if n = name then some location else none) := by
  unfold lastLocation
  rw [List.filterMap_cons_some h, List.reverse_cons, List.lookup_append]
  by_cases hn : n = name
  · simp [hn]
  · simp [List.lookup_cons, beq_false_of_ne hn, hn]

/-- Rules that are read on top of others: a name has its last location, or the one it had before. -/
theorem get?_of_readRulesInto {rules : List String} {acc m : Relocations}
    (h : readRulesInto acc rules = .ok m) (n : String) :
    m.get? n = (lastLocation rules n).or (acc.get? n) := by
  induction rules generalizing acc with
  | nil =>
    obtain rfl : acc = m := by simpa [readRulesInto] using h
    simp [lastLocation]
  | cons rule r ih =>
    rw [readRulesInto] at h
    split at h
    · rename_i name location hs
      rw [ih h, lastLocation_cons hs, OrderedMap.get?_insert, Option.or_assoc]
      by_cases hn : n = name <;> simp [hn]
    · cases h

/-- **Of several rules for a name the last counts**, and no other name is relocated. -/
theorem get?_of_readRules {rules : List String} {m : Relocations} (h : readRules rules = .ok m)
    (n : String) : m.get? n = lastLocation rules n := by
  rw [get?_of_readRulesInto h, OrderedMap.get?_empty, Option.or_none]

/-- A name is relocated iff some rule names it. -/
theorem lastLocation_isSome_iff {rules : List String} {name : String} :
    (lastLocation rules name).isSome ↔
      ∃ rule ∈ rules, ∃ location, splitRule rule = some (name, location) := by
  unfold lastLocation
  rw [List.lookup_isSome_iff]
  simp only [List.mem_reverse, List.mem_filterMap]
  constructor
  · rintro ⟨⟨n, location⟩, ⟨rule, hr, hs⟩, hn⟩
    obtain rfl : name = n := by simpa using hn
    exact ⟨rule, hr, location, hs⟩
  · rintro ⟨rule, hr, location, hs⟩
    exact ⟨(name, location), ⟨rule, hr, hs⟩, by simp⟩

/-! ## Relocations as rules -/

/-- The text of a relocation that was read is one of the rules, and is read as that relocation. -/
theorem ruleText_of_mem_entries {rules : List String} {m : Relocations} (h : readRules rules = .ok m)
    {e : String × String} (he : e ∈ m.entries) :
    ruleText e ∈ rules ∧ splitRule (ruleText e) = some e := by
  have hlast : lastLocation rules e.1 = some e.2 := by
    rw [← get?_of_readRules h]
    exact OrderedMap.mem_entries_iff.1 he
  obtain ⟨rule, hrule, hs⟩ := List.mem_filterMap.1 (List.mem_reverse.1 (mem_of_lookup hlast))
  rw [ruleText_of_splitRule hs]
  exact ⟨hrule, hs⟩

/-- Where every text is a rule, there is nothing to complain about. -/
theorem exists_readRulesInto {rules : List String} (h : ∀ rule ∈ rules, (splitRule rule).isSome)
    (acc : Relocations) : ∃ m, readRulesInto acc rules = .ok m := by
  induction rules generalizing acc with
  | nil => exact ⟨acc, rfl⟩
  | cons rule r ih =>
    obtain ⟨hrule, hr⟩ := List.forall_mem_cons.1 h
    obtain ⟨⟨name, location⟩, hs⟩ := Option.isSome_iff_exists.1 hrule
    rw [readRulesInto, hs]
    exact ih hr _

/-- **Relocations that are written as rules are read back.** -/
theorem readRules_ruleTexts {m : Relocations}
    (h : ∀ e ∈ m.entries, splitRule (ruleText e) = some e) :
    readRules (m.entries.map ruleText) = .ok m := by
  have hall : ∀ rule ∈ m.entries.map ruleText, (splitRule rule).isSome := by
    intro rule hrule
    obtain ⟨e, he, rfl⟩ := List.mem_map.1 hrule
    rw [h e he]
    rfl
  obtain ⟨n, hn⟩ := exists_readRulesInto hall .empty
  have hrules : (m.entries.map ruleText).filterMap splitRule = m.entries := by
    rw [List.filterMap_map]
    exact (List.filterMap_congr h).trans List.filterMap_some
  have hnodup : (m.entries.reverse.map (·.1)).Nodup :=
    ((List.reverse_perm m.entries).map _).nodup_iff.2 m.nodup_keys
  have hsame : n = m := OrderedMap.ext_get? fun k => by
    -- A key is listed once, so it does not matter from which end the listing is searched.
    rw [get?_of_readRules hn, lastLocation, hrules]
    refine Option.ext fun v => ⟨fun hv => ?_, fun hv => ?_⟩
    · exact OrderedMap.mem_entries_iff.1 (List.mem_reverse.1 (mem_of_lookup hv))
    · exact lookup_of_mem hnodup (List.mem_reverse.2 (OrderedMap.mem_entries_iff.2 hv))
  exact hn.trans (congrArg Except.ok hsame)

/-! ## Known tablespaces -/

/-- The names pass iff they are all known. -/
theorem checkNames_eq_ok_iff_keys {m : Relocations} {known : List String} :
    checkNames m known = .ok () ↔ ∀ name ∈ m.keys, name ∈ known := by
  unfold checkNames
  cases hf : m.keys.find? (fun name => !known.contains name) with
  | some name =>
    have hk : known.contains name = false := by simpa using List.find?_some hf
    have hm : name ∈ m.keys := List.mem_of_find?_eq_some hf
    constructor
    · intro hc; cases hc
    · intro hall; exact absurd (hall name hm) (by simpa using hk)
  | none =>
    rw [List.find?_eq_none] at hf
    exact ⟨fun _ name hn => by simpa using hf name hn, fun _ => rfl⟩

/-- **The names pass iff every rule names a known tablespace.** -/
theorem checkNames_eq_ok_iff {rules : List String} {m : Relocations} {known : List String}
    (h : readRules rules = .ok m) :
    checkNames m known = .ok () ↔
      ∀ rule ∈ rules, ∀ name location, splitRule rule = some (name, location) → name ∈ known := by
  rw [checkNames_eq_ok_iff_keys]
  constructor
  · intro hall rule hr name location hs
    refine hall name (OrderedMap.mem_keys_iff.2 ?_)
    rw [get?_of_readRules h]
    exact lastLocation_isSome_iff.2 ⟨rule, hr, location, hs⟩
  · intro hall name hn
    rw [OrderedMap.mem_keys_iff, get?_of_readRules h] at hn
    obtain ⟨rule, hr, location, hs⟩ := lastLocation_isSome_iff.1 hn
    exact hall rule hr name location hs

end BackupFleet.Recovery
