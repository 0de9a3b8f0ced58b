import Mathlib.Tactic.Push
import BackupFleet.Proofs.Text.Numeral
import BackupFleet.Proofs.Text.Pieces
import BackupFleet.Recovery.Target

/-!
# `BackupFleet.Proofs.Recovery.Acceptance` — which points to stop at are accepted

A recovery that stops at a wrong point restores a wrong state, so the parts of a point are either taken as they
were given or refused. There are four objections to them, and the first one that applies is told, in an order
that does not depend on the parts: several stops, `exclusive` without a point to exclude, a bad time and a bad
transaction.

A transaction is given by a numeral: ASCII digits, after a plus sign or not, with any Unicode white space
around it. Leading zeros do not matter. Zero is no transaction, and neither is what does not fit into 64 bits.

Main statement: `accepted_unless_objected`.

## Contents

* `IsTransaction`, `readTransaction_eq_ok_iff` — transactions;
* `AtMostOneStop`, `stops_le_one_iff` — how many stops are given;
* `Objection`, `Objection.unique` — what is wrong with the parts;
* `Acceptable`, `HasParts`, `exists_outcome` — what becomes of the parts;
* `accepted_unless_objected` — all parts.
-/

namespace BackupFleet.Recovery

open Text

/-! ## Transactions -/

/-- With blanks around it or not, the text is a numeral of this number, which is positive and has 64 bits. -/
def IsTransaction (text : String) (n : Nat) : Prop :=
  (∃ before numeral after, text.toList = before ++ numeral ++ after ∧ (∀ c ∈ before, isBlank c = true) ∧
    (∀ c ∈ after, isBlank c = true) ∧ IsNumeral numeral n) ∧ 1 ≤ n ∧ n ≤ bound64 - 1

/-- **A transaction is read iff the text is its numeral among blanks.** -/
theorem readTransaction_eq_ok_iff {text : String} {n : Nat} :
    readTransaction text = .ok n ↔ IsTransaction text n := by
  have hread : readTransaction text = .ok n ↔
      (readUnsigned bound64 (trim text.toList)).filter (0 < ·) = some n := by
    unfold readTransaction
    cases (readUnsigned bound64 (trim text.toList)).filter (0 < ·) <;> simp
  have hbound : n < bound64 ↔ n ≤ bound64 - 1 := by
    unfold bound64
    omega
  rw [hread, Option.filter_eq_some_iff, readUnsigned_eq_some_iff, hbound, decide_eq_true_eq]
  constructor
  · rintro ⟨⟨hnumeral, hle⟩, hpos⟩
    obtain ⟨before, after, htext, hbefore, hafter⟩ := exists_blanks_around text.toList
    exact ⟨⟨before, _, after, htext, hbefore, hafter, hnumeral⟩, hpos, hle⟩
  · rintro ⟨⟨before, numeral, after, htext, hbefore, hafter, hnumeral⟩, hpos, hle⟩
    have htrim : trim text.toList = numeral := by
      rw [htext, trim_blanks_around hbefore hafter, trim_eq_self_iff.2 hnumeral.ends]
    rw [htrim]
    exact ⟨⟨hnumeral, hle⟩, hpos⟩

/-- A text that is no transaction is told as it was given. -/
theorem readTransaction_of_not {text : String} (h : ∀ n, ¬IsTransaction text n) :
    readTransaction text = .error (.badTransaction text) := by
  unfold readTransaction
  split
  · rename_i n hn
    have hread : readTransaction text = .ok n := by
      unfold readTransaction
      rw [hn]
    exact absurd (readTransaction_eq_ok_iff.1 hread) (h n)
  · rfl

/-! ## Times -/

/-- A text that is no time is told without the blanks around it. -/
theorem readTime_of_not {zone : Time.Zone} {text : String} (h : ∀ stamp, readTime zone text ≠ .ok stamp) :
    readTime zone text = .error (.badTime (String.ofList (trim text.toList))) := by
  unfold readTime at h ⊢
  dsimp only at h ⊢
  split
  · rename_i stamp hstamp
    rw [hstamp] at h
    exact absurd rfl (h stamp)
  · rfl

/-! ## Stops -/

/-- At most one of time, transaction and name is given. -/
def TargetRequest.AtMostOneStop (r : TargetRequest) : Prop :=
  (r.transaction = none ∧ r.name = none) ∨ (r.time = none ∧ r.name = none) ∨
    (r.time = none ∧ r.transaction = none)

instance (r : TargetRequest) : Decidable r.AtMostOneStop := inferInstanceAs (Decidable (_ ∨ _ ∨ _))

theorem stops_le_one_iff {r : TargetRequest} : r.stops ≤ 1 ↔ r.AtMostOneStop := by
  unfold TargetRequest.stops TargetRequest.AtMostOneStop
  cases r.time <;> cases r.transaction <;> cases r.name <;> simp

/-- `exclusive` is off, or there is a time or a transaction to stop before. -/
def TargetRequest.ExcludesPoint (r : TargetRequest) : Prop :=
  r.exclusive = false ∨ r.time ≠ none ∨ r.transaction ≠ none

instance (r : TargetRequest) : Decidable r.ExcludesPoint := inferInstanceAs (Decidable (_ ∨ _ ∨ _))

section Combined

variable {zone : Time.Zone} {r : TargetRequest}

theorem read_of_severalStops (h : ¬r.AtMostOneStop) : r.read zone = .error .severalStops := by
  unfold TargetRequest.read
  rw [if_pos]
  exact Nat.not_le.1 fun hle => h (stops_le_one_iff.1 hle)

theorem read_of_exclusiveAlone (hstop : r.AtMostOneStop) (h : ¬r.ExcludesPoint) :
    r.read zone = .error .exclusiveAlone := by
  have halone : r.exclusive = true ∧ r.time = none ∧ r.transaction = none := by
    simpa [TargetRequest.ExcludesPoint] using h
  unfold TargetRequest.read
  rw [if_neg (Nat.not_lt.2 (stops_le_one_iff.2 hstop)), if_pos halone]

/-- Parts that may be combined are read one after the other. -/
theorem read_of_combined (hstop : r.AtMostOneStop) (h : r.ExcludesPoint) :
    r.read zone = (readPart (readTime zone) r.time).bind fun time =>
      (readPart readTransaction r.transaction).bind fun transaction =>
        .ok ⟨r.timeline, time, transaction, r.name, r.exclusive⟩ := by
  have hpoint : ¬(r.exclusive = true ∧ r.time = none ∧ r.transaction = none) := by
    simpa [TargetRequest.ExcludesPoint, imp_iff_not_or] using h
  unfold TargetRequest.read
  rw [if_neg (Nat.not_lt.2 (stops_le_one_iff.2 hstop)), if_neg hpoint]
  rfl

end Combined

/-! ## Objections -/

/-- What is wrong with the parts, by its rank among the objections, in the words in which it is told. -/
inductive Objection (zone : Time.Zone) (r : TargetRequest) : Nat → String → Prop
  | severalStops (h : ¬r.AtMostOneStop) :
      Objection zone r 0 "only one of --target-time, --target-xid and --target-name can be used"
  | exclusiveAlone (h : ¬r.ExcludesPoint) :
      Objection zone r 1 "--exclusive requires --target-time or --target-xid"
  | badTime {text : String} (given : r.time = some text) (h : ∀ stamp, readTime zone text ≠ .ok stamp) :
      Objection zone r 2 ("'" ++ String.ofList (trim text.toList) ++ "' is not a valid target time")
  | badTransaction {text : String} (given : r.transaction = some text) (h : ∀ n, ¬IsTransaction text n) :
      Objection zone r 3 ("'" ++ text ++ "' is not a valid transaction ID")

/-- Objections of one rank are one objection. -/
theorem Objection.unique {zone : Time.Zone} {r : TargetRequest} {rank : Nat} {a b : String}
    (ha : Objection zone r rank a) (hb : Objection zone r rank b) : a = b := by
  cases ha with
  | severalStops h => cases hb; rfl
  | exclusiveAlone h => cases hb; rfl
  | badTime given h =>
    cases hb with
    | badTime given' h' =>
      rw [given] at given'
      obtain rfl := Option.some.inj given'
      rfl
  | badTransaction given h =>
    cases hb with
    | badTransaction given' h' =>
      rw [given] at given'
      obtain rfl := Option.some.inj given'
      rfl

/-- The objection applies, and none of a lower rank does. -/
def FirstObjection (zone : Time.Zone) (r : TargetRequest) (reason : String) : Prop :=
  ∃ rank, Objection zone r rank reason ∧ ∀ rank' reason', Objection zone r rank' reason' → rank ≤ rank'

/-- There is one first objection. -/
theorem FirstObjection.unique {zone : Time.Zone} {r : TargetRequest} {a b : String}
    (ha : FirstObjection zone r a) (hb : FirstObjection zone r b) : a = b := by
  obtain ⟨rank, hrank, hfirst⟩ := ha
  obtain ⟨rank', hrank', hfirst'⟩ := hb
  obtain rfl : rank = rank' := Nat.le_antisymm (hfirst _ _ hrank') (hfirst' _ _ hrank)
  exact hrank.unique hrank'

/-! ## What becomes of the parts -/

/-- The parts may be combined, the time can be read, and the transaction is one. -/
structure Acceptable (zone : Time.Zone) (r : TargetRequest) : Prop where
  oneStop : r.AtMostOneStop
  exclusive : r.ExcludesPoint
  time : ∀ text, r.time = some text → ∃ stamp, readTime zone text = .ok stamp
  transaction : ∀ text, r.transaction = some text → ∃ n, IsTransaction text n

/-- The point has the parts that were given, and no other ones. -/
structure HasParts (zone : Time.Zone) (r : TargetRequest) (t : Target) : Prop where
  timeline : t.timeline = r.timeline
  time : Option.Rel (fun text stamp => readTime zone text = .ok stamp) r.time t.time
  transaction : Option.Rel IsTransaction r.transaction t.transaction
  name : t.name = r.name
  exclusive : t.exclusive = r.exclusive

/-- A part that may be missing is read iff it is missing or can be read. -/
theorem readPart_eq_ok_iff {α β ε : Type} {read : α → Except ε β} {given : Option α} {found : Option β} :
    readPart read given = .ok found ↔ Option.Rel (fun a b => read a = .ok b) given found := by
  cases given with
  | none => cases found <;> simp [readPart, Option.rel_none_none]
  | some a =>
    cases hread : read a with
    | error e => cases found <;> simp [readPart, hread, Except.map]
    | ok b => cases found <;> simp [readPart, hread, Except.map]

section Outcome

variable {zone : Time.Zone} {r : TargetRequest}

/-- Nothing is wrong with acceptable parts. -/
theorem Acceptable.not_objection (h : Acceptable zone r) (rank : Nat) (reason : String) :
    ¬Objection zone r rank reason := by
  rintro (hstop | hexclusive | ⟨given, hnone⟩ | ⟨given, hnone⟩)
  · exact hstop h.oneStop
  · exact hexclusive h.exclusive
  · obtain ⟨stamp, hstamp⟩ := h.time _ given
    exact hnone stamp hstamp
  · obtain ⟨n, hn⟩ := h.transaction _ given
    exact hnone n hn

theorem exists_readPart {α β ε : Type} {read : α → Except ε β} {given : Option α}
    (h : ∀ a, given = some a → ∃ b, read a = .ok b) : ∃ found, readPart read given = .ok found := by
  cases given with
  | none => exact ⟨none, rfl⟩
  | some a =>
    obtain ⟨b, hb⟩ := h a rfl
    exact ⟨some b, by rw [readPart, hb]; rfl⟩

/-- **Parts are taken as they were given, or refused with the first objection.** -/
theorem exists_outcome (zone : Time.Zone) (r : TargetRequest) :
    (Acceptable zone r ∧ ∃ t, r.read zone = .ok t ∧ HasParts zone r t) ∨
    ∃ p reason, r.read zone = .error p ∧ p.toUserError = .invalidTarget reason ∧ FirstObjection zone r reason := by
  by_cases hstop : r.AtMostOneStop
  case neg =>
    exact .inr ⟨_, _, read_of_severalStops hstop, rfl, 0, .severalStops hstop, fun _ _ _ => Nat.zero_le _⟩
  by_cases hpoint : r.ExcludesPoint
  case neg =>
    refine .inr ⟨_, _, read_of_exclusiveAlone hstop hpoint, rfl, 1, .exclusiveAlone hpoint, ?_⟩
    rintro _ _ (h | _ | _ | _)
    · exact absurd hstop h
    all_goals omega
  rw [read_of_combined hstop hpoint]
  by_cases htime : ∀ text, r.time = some text → ∃ stamp, readTime zone text = .ok stamp
  case neg =>
    push Not at htime
    obtain ⟨text, given, hnone⟩ := htime
    refine .inr ⟨.badTime (String.ofList (trim text.toList)), _, ?_, rfl, 2, .badTime given hnone, ?_⟩
    · rw [given, readPart, readTime_of_not hnone]
      rfl
    · rintro _ _ (h | h | _ | _)
      · exact absurd hstop h
      · exact absurd hpoint h
      all_goals omega
  obtain ⟨stamp, hstamp⟩ := exists_readPart htime
  by_cases htransaction : ∀ text, r.transaction = some text → ∃ n, IsTransaction text n
  case neg =>
    push Not at htransaction
    obtain ⟨text, given, hnone⟩ := htransaction
    refine .inr ⟨.badTransaction text, _, ?_, rfl, 3, .badTransaction given hnone, ?_⟩
    · rw [hstamp, given, readPart, readTransaction_of_not hnone]
      rfl
    · rintro _ _ (h | h | ⟨given, h⟩ | _)
      · exact absurd hstop h
      · exact absurd hpoint h
      · obtain ⟨stamp, hread⟩ := htime _ given
        exact absurd hread (h stamp)
      · omega
  obtain ⟨n, hn⟩ := exists_readPart fun text given =>
    (htransaction text given).imp fun _ h => readTransaction_eq_ok_iff.2 h
  refine .inl ⟨⟨hstop, hpoint, htime, htransaction⟩, ⟨r.timeline, stamp, n, r.name, r.exclusive⟩, ?_,
    rfl, readPart_eq_ok_iff.1 hstamp, ?_, rfl, rfl⟩
  · rw [hstamp, hn]
    rfl
  · have hrel := readPart_eq_ok_iff.1 hn
    simpa only [readTransaction_eq_ok_iff] using hrel

end Outcome

/-! ## All parts -/

/-- **A point to stop at is accepted unless there is an objection, and then the first one is told.** The parts
    are accepted iff at most one of time, transaction and name is given, `exclusive` is off or a time or a
    transaction is given, a given time can be read, and a given transaction is, with blanks around it or not, a
    numeral of a positive number of 64 bits. The point then has exactly the parts that were given, the
    transaction as its number. Otherwise the objection is told that comes first in this order; it quotes the
    time without the blanks around it, and the transaction as it was given. -/
theorem accepted_unless_objected (zone : Time.Zone) (r : TargetRequest) :
    ((∃ t, r.read zone = .ok t) ↔ Acceptable zone r) ∧
    (∀ t, r.read zone = .ok t → HasParts zone r t) ∧
    ∀ reason, (∃ p, r.read zone = .error p ∧ p.toUserError = .invalidTarget reason) ↔
      FirstObjection zone r reason := by
  rcases exists_outcome zone r with ⟨hacceptable, t, hread, hparts⟩ | ⟨p, reason, hread, htold, hfirst⟩
  · refine ⟨iff_of_true ⟨t, hread⟩ hacceptable, fun t' hread' => ?_, fun reason => ?_⟩
    · rw [hread] at hread'
      cases hread'
      exact hparts
    · refine iff_of_false ?_ ?_
      · rintro ⟨p, hp, -⟩
        rw [hread] at hp
        cases hp
      · rintro ⟨rank, hobjection, -⟩
        exact hacceptable.not_objection rank reason hobjection
  · refine ⟨iff_of_false ?_ fun hacceptable => ?_, fun t ht => ?_, fun reason' => ⟨?_, fun hfirst' => ?_⟩⟩
    · rintro ⟨t, ht⟩
      rw [hread] at ht
      cases ht
    · obtain ⟨rank, hobjection, -⟩ := hfirst
      exact hacceptable.not_objection rank reason hobjection
    · rw [hread] at ht
      cases ht
    · rintro ⟨p', hread', htold'⟩
      rw [hread] at hread'
      cases hread'
      rw [htold] at htold'
      cases htold'
      exact hfirst
    · exact ⟨p, hread, by rw [htold, hfirst.unique hfirst']⟩

/-- White space of any kind, a plus sign and leading zeros do not matter, and 64 bits are the limit. -/
example : (readTransaction "\u3000\t+0042\n").toOption = some 42 ∧
    (readTransaction "18446744073709551615").toOption = some (bound64 - 1) ∧
    (readTransaction "18446744073709551616").toOption = none ∧ (readTransaction "+").toOption = none := by
  decide +kernel

end BackupFleet.Recovery
