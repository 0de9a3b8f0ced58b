import BackupFleet.Text.Blank
import BackupFleet.Text.Numeral

/-!
# `BackupFleet.Proofs.Text.Numeral` — which texts are numerals

A numeral is read iff it consists of ASCII digits, after a plus sign or not, and its value is below a bound.
Leading zeros do not matter, and no other digits, signs or separators are taken.

## Contents

* `toNat_of_isDigit`, `isBlank_of_isDigit` — digits;
* `IsNumeral`, `readUnsigned_eq_some_iff` — the numerals that are read;
* `IsNumeral.ends` — what they start and end with.
-/

namespace BackupFleet.Text

/-! ## Digits -/

theorem toNat_of_isDigit {c : Char} (h : c.isDigit = true) : 48 ≤ c.toNat ∧ c.toNat ≤ 57 := by
  unfold Char.isDigit at h
  simp only [Bool.and_eq_true, decide_eq_true_eq] at h
  exact ⟨UInt32.le_iff_toNat_le.1 h.1, UInt32.le_iff_toNat_le.1 h.2⟩

/-- A digit is no blank. -/
theorem isBlank_of_isDigit {c : Char} (h : c.isDigit = true) : isBlank c = false := by
  obtain ⟨h0, h9⟩ := toNat_of_isDigit h
  unfold isBlank
  simp
  omega

/-! ## Numerals -/

/-- One or more ASCII digits of this value, after a plus sign or not. -/
def IsNumeral (cs : List Char) (n : Nat) : Prop :=
  ∃ sign digits, cs = sign ++ digits ∧ (sign = [] ∨ sign = ['+']) ∧ digits ≠ [] ∧
    (∀ c ∈ digits, c.isDigit = true) ∧ n = Nat.ofDigitChars 10 digits 0

theorem readDigits_eq_some_iff {cs : List Char} {n : Nat} :
    readDigits cs = some n ↔ cs ≠ [] ∧ (∀ c ∈ cs, c.isDigit = true) ∧ n = Nat.ofDigitChars 10 cs 0 := by
  have hall : (∀ c ∈ cs, c.isDigit = true) ↔ cs.all Char.isDigit = true := List.all_eq_true.symm
  rw [hall]
  unfold readDigits
  split
  · rename_i h
    rw [Option.some.injEq, eq_comm]
    exact ⟨fun hn => ⟨h.1, h.2, hn⟩, fun hn => hn.2.2⟩
  · rename_i h
    exact ⟨fun hn => absurd hn (by simp), fun hn => absurd ⟨hn.1, hn.2.1⟩ h⟩

/-- Without a plus sign, all of the text has to be digits. -/
theorem readUnsigned_of_no_plus {bound : Nat} {cs : List Char} (h : ∀ r, cs ≠ '+' :: r) :
    readUnsigned bound cs = (readDigits cs).filter (· < bound) := by
  unfold readUnsigned
  split
  · rename_i r
    exact absurd rfl (h r)
  · rfl

/-- **A number is read iff the text is its numeral and it is below the bound.** -/
theorem readUnsigned_eq_some_iff {bound : Nat} {cs : List Char} {n : Nat} :
    readUnsigned bound cs = some n ↔ IsNumeral cs n ∧ n < bound := by
  by_cases hplus : ∃ r, cs = '+' :: r
  · obtain ⟨r, rfl⟩ := hplus
    have hread : readUnsigned bound ('+' :: r) = (readDigits r).filter (· < bound) := rfl
    rw [hread, Option.filter_eq_some_iff, decide_eq_true_eq, readDigits_eq_some_iff]
    refine and_congr_left fun _ => ⟨fun h => ⟨['+'], r, rfl, .inr rfl, h⟩, ?_⟩
    rintro ⟨sign, digits, hcs, rfl | rfl, hne, hdigits, hn⟩
    · -- A plus sign is no digit.
      rw [List.nil_append] at hcs
      have hplus := hdigits '+' (by rw [← hcs]; exact List.mem_cons_self)
      exact absurd hplus (by decide)
    · obtain rfl : r = digits := (List.cons.inj hcs).2
      exact ⟨hne, hdigits, hn⟩
  · have hno : ∀ r, cs ≠ '+' :: r := fun r hr => hplus ⟨r, hr⟩
    rw [readUnsigned_of_no_plus hno, Option.filter_eq_some_iff, decide_eq_true_eq, readDigits_eq_some_iff]
    refine and_congr_left fun _ => ⟨fun h => ⟨[], cs, rfl, .inl rfl, h⟩, ?_⟩
    rintro ⟨sign, digits, rfl, rfl | rfl, h⟩
    · exact h
    · exact absurd rfl (hno digits)

/-- A numeral starts and ends with no blank. -/
theorem IsNumeral.ends {cs : List Char} {n : Nat} (h : IsNumeral cs n) :
    (∀ c, cs.head? = some c → isBlank c = false) ∧ ∀ c, cs.getLast? = some c → isBlank c = false := by
  obtain ⟨sign, digits, rfl, hsign, hne, hdigits, -⟩ := h
  constructor
  · intro c hc
    rcases hsign with rfl | rfl
    · exact isBlank_of_isDigit (hdigits c (List.mem_of_mem_head? hc))
    · obtain rfl := Option.some.inj hc
      decide
  · intro c hc
    obtain ⟨d, hd⟩ := Option.ne_none_iff_exists'.1 fun he => hne (List.getLast?_eq_none_iff.1 he)
    rw [List.getLast?_append, hd, Option.some_or] at hc
    obtain rfl := Option.some.inj hc
    exact isBlank_of_isDigit (hdigits d (List.mem_of_getLast? hd))

end BackupFleet.Text
