import BackupFleet.Proofs.Recovery.Rules

/-!
# `BackupFleet.Proofs.Recovery.RuleLists` — lists of rules as maps

A list of rules is either refused because of its first text that is no rule, or it is the map from each name
to the location of the last rule for it. So lists of rules behave like the maps they stand for: putting one
list after another is putting one map on top of another, and a map is read back from its own rules.

Main statement: `rule_lists_stand_for_maps`.

## Contents

* `Malformed`, `malformed_iff`, `Gives` — texts that are no rules, and rules;
* `readRulesInto_eq_error_iff` — which text is reported;
* `LastFor`, `lastLocation_eq_some_iff` — the last rule for a name;
* `readRulesInto_append`, `readRulesInto_eq_map` — one list after another;
* `LeastUnknown`, `checkNames_eq_error_iff` — the name that is reported.
-/

namespace BackupFleet.Recovery

/-! ## Texts that are no rules -/

/-- A text that is no rule: it has no colon, or nothing before its first colon, or nothing after it. -/
inductive Malformed (rule : String) : Prop where
  | noColon (h : ':' ∉ rule.toList) : Malformed rule
  | noName (location : String) (h : rule = ":" ++ location) : Malformed rule
  | noLocation (name : String) (hname : ':' ∉ name.toList) (h : rule = name ++ ":") : Malformed rule

theorem splitRule_eq_none {rule : String} (h : Malformed rule) : splitRule rule = none := by
  cases h with
  | noColon hcolon =>
    cases hs : splitRule rule with
    | none => rfl
    | some e =>
      have hrule := (splitRule_eq_some_iff.1 hs).1
      refine absurd ?_ hcolon
      rw [hrule, ruleText]
      simp
  | noName location hrule =>
    have htext : rule.toList = [] ++ ':' :: location.toList := by rw [hrule]; simp
    rw [splitRule, htext, splitColon_append List.not_mem_nil]
    simp
  | noLocation name hname hrule =>
    have htext : rule.toList = name.toList ++ ':' :: [] := by rw [hrule]; simp
    rw [splitRule, htext, splitColon_append hname]
    simp

/-- **Malformed texts are those that have no name and location.** -/
theorem malformed_iff {rule : String} : Malformed rule ↔ splitRule rule = none := by
  refine ⟨splitRule_eq_none, fun hnone => ?_⟩
  by_cases hcolon : ':' ∈ rule.toList
  · obtain ⟨a, b, htext, ha⟩ := List.eq_append_cons_of_mem hcolon
    have hrule : rule = String.ofList a ++ ":" ++ String.ofList b := String.toList_inj.1 (by simp [htext])
    by_cases hname : a = []
    · refine .noName (String.ofList b) ?_
      rw [hrule, hname]
      simp
    by_cases hlocation : b = []
    · refine .noLocation (String.ofList a) (by simpa using ha) ?_
      rw [hrule, hlocation]
      simp
    · rw [splitRule, htext, splitColon_append ha] at hnone
      simp [hname, hlocation] at hnone
  · exact .noColon hcolon

instance (rule : String) : Decidable (Malformed rule) := decidable_of_iff _ malformed_iff.symm

/-- A rule that gives a tablespace its location: the two stand around the first colon. -/
structure Gives (rule name location : String) : Prop where
  text : rule = name ++ ":" ++ location
  noColon : ':' ∉ name.toList
  name_ne : name ≠ ""
  location_ne : location ≠ ""

theorem gives_iff {rule name location : String} :
    Gives rule name location ↔ splitRule rule = some (name, location) := by
  rw [splitRule_eq_some_iff]
  constructor
  · exact fun h => ⟨h.text, h.noColon, h.name_ne, h.location_ne⟩
  · exact fun h => ⟨h.1, h.2.1, h.2.2.1, h.2.2.2⟩

/-- **The first text that is no rule is reported**, whatever was read before it. -/
theorem readRulesInto_eq_error_iff {rules : List String} {acc : Relocations} {e : UserError} :
    readRulesInto acc rules = .error e ↔
      ∃ rule, rules.find? (fun r => Malformed r) = some rule ∧ e = .malformedRule rule := by
  induction rules generalizing acc with
  | nil => simp [readRulesInto]
  | cons rule r ih =>
    rw [readRulesInto]
    by_cases h : Malformed rule
    · rw [splitRule_eq_none h, List.find?_cons_of_pos (by simpa using h)]
      constructor
      · intro he
        exact ⟨rule, rfl, (Except.error.inj he).symm⟩
      · rintro ⟨_, hr, rfl⟩
        rw [Option.some.inj hr]
    · obtain ⟨⟨name, location⟩, hs⟩ := Option.ne_none_iff_exists'.1 (mt malformed_iff.2 h)
      rw [hs, List.find?_cons_of_neg (by simpa using h)]
      exact ih

/-- Nothing is reported of rules. -/
theorem exists_readRules {rules : List String} (h : ∀ rule ∈ rules, ¬Malformed rule) :
    ∃ m, readRules rules = .ok m := by
  refine exists_readRulesInto (fun rule hr => ?_) .empty
  exact Option.isSome_iff_ne_none.2 (mt malformed_iff.2 (h rule hr))

/-! ## The last rule for a name -/

/-- Of these rules for `name`, the last one gives `location`. -/
def LastFor (rules : List String) (name location : String) : Prop :=
  ∃ before rule after, rules = before ++ rule :: after ∧ Gives rule name location ∧
    ∀ later ∈ after, ∀ other, ¬Gives later name other

theorem lookup_eq_none_of_not_gives {rules : List String} {name : String}
    (h : ∀ rule ∈ rules, ∀ location, ¬Gives rule name location) :
    (rules.filterMap splitRule).reverse.lookup name = none := by
  refine List.lookup_eq_none_iff.2 fun e he => bne_iff_ne.2 fun hn => ?_
  obtain ⟨rule, hr, hs⟩ := List.mem_filterMap.1 (List.mem_reverse.1 he)
  refine h rule hr e.2 (gives_iff.2 ?_)
  rw [hs, hn]

theorem lastLocation_eq_some_iff {rules : List String} {name location : String} :
    lastLocation rules name = some location ↔ LastFor rules name location := by
  constructor
  · intro h
    obtain ⟨newer, older, hpairs, hnewer⟩ := List.lookup_eq_some_iff.1 h
    have hsplit : rules.filterMap splitRule = older.reverse ++ (name, location) :: newer.reverse := by
      have hreverse := congrArg List.reverse hpairs
      simpa using hreverse
    obtain ⟨before, rest, rfl, -, hrest⟩ := List.filterMap_eq_append_iff.1 hsplit
    obtain ⟨skipped, rule, after, rfl, -, hrule, hafter⟩ := List.filterMap_eq_cons_iff.1 hrest
    refine ⟨before ++ skipped, rule, after, by simp, gives_iff.2 hrule, fun later hlater other hgives => ?_⟩
    have hmem : (name, other) ∈ newer.reverse := by
      rw [← hafter]
      exact List.mem_filterMap.2 ⟨later, hlater, gives_iff.1 hgives⟩
    exact bne_iff_ne.1 (hnewer _ (List.mem_reverse.1 hmem)) rfl
  · rintro ⟨before, rule, after, rfl, hrule, hafter⟩
    rw [lastLocation, List.filterMap_append, List.filterMap_cons_some (gives_iff.1 hrule),
      List.reverse_append, List.reverse_cons, List.lookup_append, List.lookup_append,
      lookup_eq_none_of_not_gives hafter, List.lookup_cons_self]
    rfl

/-! ## One list after another -/

theorem readRulesInto_append (acc : Relocations) (xs ys : List String) :
    readRulesInto acc (xs ++ ys) = (readRulesInto acc xs).bind fun m => readRulesInto m ys := by
  induction xs generalizing acc with
  | nil => rfl
  | cons rule r ih =>
    rw [List.cons_append, readRulesInto, readRulesInto]
    cases splitRule rule with
    | none => rfl
    | some e => exact ih _

/-- What is read on top of a map is what is read by itself, put on top of it. -/
theorem readRulesInto_eq_map (m : Relocations) (ys : List String) :
    readRulesInto m ys = (readRules ys).map m.override := by
  cases hys : readRules ys with
  | error e => exact readRulesInto_eq_error_iff.2 (readRulesInto_eq_error_iff.1 hys)
  | ok n =>
    cases hm : readRulesInto m ys with
    | error e =>
      have herror : readRules ys = .error e := readRulesInto_eq_error_iff.2 (readRulesInto_eq_error_iff.1 hm)
      rw [herror] at hys
      cases hys
    | ok joint =>
      have hjoint : joint = m.override n := OrderedMap.ext_get? fun name => by
        rw [get?_of_readRulesInto hm, OrderedMap.get?_override, get?_of_readRules hys]
      rw [hjoint]
      rfl

/-! ## Unknown tablespaces -/

/-- The smallest of the relocated names that are not known. -/
structure LeastUnknown (m : Relocations) (known : List String) (name : String) : Prop where
  key : name ∈ m.keys
  unknown : name ∉ known
  least : ∀ other ∈ m.keys, other ∉ known → name ≤ other

theorem LeastUnknown.unique {m : Relocations} {known : List String} {a b : String}
    (ha : LeastUnknown m known a) (hb : LeastUnknown m known b) : a = b :=
  String.le_antisymm (ha.least b hb.key hb.unknown) (hb.least a ha.key ha.unknown)

theorem leastUnknown_of_checkNames {m : Relocations} {known : List String} {e : UserError}
    (h : checkNames m known = .error e) :
    ∃ name, LeastUnknown m known name ∧ e = .unknownTablespace name known := by
  have hascending : m.keys.Pairwise (· < ·) := List.pairwise_map.2 m.ascending
  rw [checkNames] at h
  split at h
  · rename_i name hfind
    obtain ⟨hunknown, before, after, hkeys, hbefore⟩ := List.find?_eq_some_iff_append.1 hfind
    refine ⟨name, ⟨List.mem_of_find?_eq_some hfind, by simpa using hunknown, ?_⟩,
      (Except.error.inj h).symm⟩
    intro other hother hnot
    rw [hkeys] at hother hascending
    -- Names before the reported one are known, and those after it are larger.
    rcases List.mem_append.1 hother with hother | hother
    · exact absurd (by simpa using hbefore other hother) hnot
    rcases List.mem_cons.1 hother with rfl | hother
    · exact String.le_refl _
    · have hrest := (List.pairwise_append.1 hascending).2.1
      exact Std.le_of_lt ((List.pairwise_cons.1 hrest).1 other hother)
  · cases h

/-- **The smallest unknown name is reported.** -/
theorem checkNames_eq_error_iff {m : Relocations} {known : List String} {e : UserError} :
    checkNames m known = .error e ↔
      ∃ name, LeastUnknown m known name ∧ e = .unknownTablespace name known := by
  refine ⟨leastUnknown_of_checkNames, ?_⟩
  rintro ⟨name, hname, rfl⟩
  cases hc : checkNames m known with
  | ok u => exact absurd (checkNames_eq_ok_iff_keys.1 hc name hname.key) hname.unknown
  | error e =>
    obtain ⟨other, hother, rfl⟩ := leastUnknown_of_checkNames hc
    rw [hname.unique hother]

/-! ## Lists and maps -/

/-- **Lists of rules stand for maps.**

    A list is refused iff one of its texts is no rule, and the first such text is reported; otherwise it is
    the map that has exactly the locations of the last rule for each name. One list after another is the
    second map on top of the first one, refused like the first list, or else like the second one. The rules
    of a map, one for each of its entries, are read as this map. Names are refused iff one of them is not
    known, and the smallest such name is reported. -/
theorem rule_lists_stand_for_maps (rules : List String) :
    (∀ e, readRules rules = .error e ↔
      ∃ rule, rules.find? (fun r => Malformed r) = some rule ∧ e = .malformedRule rule) ∧
    ((∀ rule ∈ rules, ¬Malformed rule) →
      ∃ m, readRules rules = .ok m ∧
        (∀ name location, m.get? name = some location ↔ LastFor rules name location) ∧
        readRules (m.entries.map ruleText) = .ok m) ∧
    (∀ more, readRules (rules ++ more)
      = (readRules rules).bind fun m => (readRules more).map fun n => m.override n) ∧
    (∀ (m n : Relocations) name, (m.override n).get? name = (n.get? name).or (m.get? name)) ∧
    ∀ (m : Relocations) known,
      (checkNames m known = .ok () ↔ ∀ name ∈ m.keys, name ∈ known) ∧
      ∀ e, checkNames m known = .error e ↔
        ∃ name, LeastUnknown m known name ∧ e = .unknownTablespace name known := by
  refine ⟨fun e => readRulesInto_eq_error_iff, fun hrules => ?_, fun more => ?_, OrderedMap.get?_override,
    fun m known => ⟨checkNames_eq_ok_iff_keys, fun e => checkNames_eq_error_iff⟩⟩
  · obtain ⟨m, hm⟩ := exists_readRules hrules
    refine ⟨m, hm, fun name location => ?_, readRules_ruleTexts fun e he => (ruleText_of_mem_entries hm he).2⟩
    rw [get?_of_readRules hm]
    exact lastLocation_eq_some_iff
  · have happend := readRulesInto_append .empty rules more
    simp only [readRulesInto_eq_map _ more] at happend
    exact happend

/-- Three rules for two names, where one location has a colon; the text after them has none. -/
theorem three_rules_two_names :
    (∀ rule ∈ ["b:/x", "a:/y", "b:/z:w"], ¬Malformed rule) ∧
    (∃ m, readRules ["b:/x", "a:/y", "b:/z:w"] = .ok m ∧ m.get? "b" = some "/z:w" ∧
      readRules (m.entries.map ruleText) = .ok m) ∧
    readRules (["b:/x", "a:/y", "b:/z:w"] ++ ["c", ":/x"]) = .error (.malformedRule "c") := by
  have hrules : ∀ rule ∈ ["b:/x", "a:/y", "b:/z:w"], ¬Malformed rule := by decide +kernel
  obtain ⟨-, hmap, -⟩ := rule_lists_stand_for_maps ["b:/x", "a:/y", "b:/z:w"]
  obtain ⟨m, hm, hlast, hback⟩ := hmap hrules
  have hgives : Gives "b:/z:w" "b" "/z:w" := gives_iff.2 (by decide +kernel)
  have hb : LastFor ["b:/x", "a:/y", "b:/z:w"] "b" "/z:w" :=
    ⟨["b:/x", "a:/y"], "b:/z:w", [], rfl, hgives, fun _ hnil => absurd hnil List.not_mem_nil⟩
  refine ⟨hrules, ⟨m, hm, (hlast "b" "/z:w").2 hb, hback⟩, ?_⟩
  obtain ⟨hrefused, -⟩ := rule_lists_stand_for_maps (["b:/x", "a:/y", "b:/z:w"] ++ ["c", ":/x"])
  exact (hrefused _).2 ⟨"c", by decide +kernel, rfl⟩

end BackupFleet.Recovery
