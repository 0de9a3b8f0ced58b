import Mathlib.Algebra.GroupWithZero.Nat
import BackupFleet.Proofs.Text.Numeral
import BackupFleet.Time.Reader

/-!
# `BackupFleet.Proofs.Time.Numeral` — the numerals of a time

The steps of the readers take numerals off the front of a text. What a numeral of digits is read as is its
value, and a zero-padded number has the digits that such a step expects.

## Contents

* `Digits`, `accumulate_digits`, `readNumeral_digits` — texts of digits, and what they are read as;
* `digits_padded`, `value_padded`, `length_padded` — padded numbers;
* `readNumeral_padded`, `readField_padded`, `expect_mark` — the steps.
-/

namespace BackupFleet.Time

open Text

/-! ## Digits -/

/-- Every character is a digit, and there is one. -/
structure Digits (ds : List Char) : Prop where
  ne_nil : ds ≠ []
  digit : ∀ c ∈ ds, c.isDigit = true

theorem le_ofDigitChars (ds : List Char) (acc : Nat) : acc ≤ Nat.ofDigitChars 10 ds acc := by
  induction ds generalizing acc with
  | nil => simp
  | cons d r ih =>
    rw [Nat.ofDigitChars_cons]
    exact Nat.le_trans (by omega) (ih _)

/-- Digits are summed up to their value, as long as it has 63 bits. -/
theorem accumulate_digits (ds : List Char) {acc : Nat} (h : Nat.ofDigitChars 10 ds acc < bound63) :
    accumulate acc ds = .ok (Nat.ofDigitChars 10 ds acc) := by
  induction ds generalizing acc with
  | nil => simp [accumulate]
  | cons d r ih =>
    rw [Nat.ofDigitChars_cons, Nat.mul_comm 10] at h
    rw [accumulate, Nat.ofDigitChars_cons, Nat.mul_comm 10]
    have hle := le_ofDigitChars r (acc * 10 + (d.toNat - '0'.toNat))
    rw [if_pos (Nat.lt_of_le_of_lt hle h), ih h]

/-- The step stops after these digits: it takes no more, or no digit follows. -/
def Stops (width : Option Nat) (ds rest : List Char) : Prop :=
  width = some ds.length ∨
    (∀ w, width = some w → ds.length ≤ w) ∧ ∀ c, rest.head? = some c → c.isDigit = false

/-- The digits at the front of a text. -/
theorem takeWhile_digits {ds : List Char} (h : ∀ c ∈ ds, c.isDigit = true) (rest : List Char) :
    (ds ++ rest).takeWhile Char.isDigit = ds ++ rest.takeWhile Char.isDigit := by
  rw [List.takeWhile_append_of_pos h]

/-- **A numeral is read as its value.** -/
theorem readNumeral_digits (width : Option Nat) {ds : List Char} (rest : List Char) (hd : Digits ds)
    (hv : Nat.ofDigitChars 10 ds 0 < bound63) (hs : Stops width ds rest) :
    readNumeral width (ds ++ rest) = .ok (Nat.ofDigitChars 10 ds 0, rest) := by
  obtain ⟨d, r, rfl⟩ := List.exists_cons_of_ne_nil hd.ne_nil
  have hfront := takeWhile_digits hd.digit rest
  have hnone : (∀ c, rest.head? = some c → c.isDigit = false) → rest.takeWhile Char.isDigit = [] := by
    intro hstop
    cases rest with
    | nil => rfl
    | cons c s => rw [List.takeWhile_cons, if_neg (by simp [hstop c rfl])]
  unfold readNumeral
  rw [List.cons_append]
  dsimp only
  rw [if_neg (by simp [hd.digit d List.mem_cons_self]), ← List.cons_append, hfront]
  cases width with
  | none =>
    rw [hnone (hs.resolve_left (by simp)).2, List.append_nil]
    dsimp only
    rw [accumulate_digits _ hv, List.drop_left]
    rfl
  | some w =>
    have htake : (d :: r ++ rest.takeWhile Char.isDigit).take w = d :: r := by
      rcases hs with hw | ⟨hw, hstop⟩
      · obtain rfl := Option.some.inj hw
        exact List.take_left
      · rw [hnone hstop, List.append_nil]
        exact List.take_of_length_le (hw w rfl)
    dsimp only
    rw [htake, accumulate_digits _ hv, List.drop_left]
    rfl

/-! ## Padded numbers -/

theorem digits_padded (width n : Nat) : Digits (padded width n) := by
  unfold padded List.leftpad
  refine ⟨fun he => decimal_ne_nil n (List.append_eq_nil_iff.1 he).2, fun c hc => ?_⟩
  rcases List.mem_append.1 hc with hc | hc
  · rw [List.eq_of_mem_replicate hc]
    rfl
  · exact isDigit_of_mem_decimal hc

@[simp] theorem value_padded (width n : Nat) : Nat.ofDigitChars 10 (padded width n) 0 = n := by
  unfold padded List.leftpad decimal
  rw [Nat.ofDigitChars_append, Nat.ofDigitChars_replicate_zero, Nat.mul_zero,
    Nat.ofDigitChars_ten_toDigits]

/-- A number that has room is padded to the width. -/
theorem length_padded {width n : Nat} (hw : 0 < width) (h : n < 10 ^ width) :
    (padded width n).length = width := by
  have hle := (Nat.length_toDigits_le_iff (by decide) hw).2 h
  unfold padded decimal
  rw [List.length_leftpad, Nat.max_eq_left hle]

/-- Padding makes no number longer than it is or than the width. -/
theorem length_padded_le (width : Nat) {n k : Nat} (hw : width ≤ k) (hk : 0 < k) (h : n < 10 ^ k) :
    (padded width n).length ≤ k := by
  have hle := (Nat.length_toDigits_le_iff (by decide) hk).2 h
  unfold padded decimal
  rw [List.length_leftpad]
  omega

/-! ## Steps -/

/-- A padded number is read back by a step that takes as many digits. -/
theorem readNumeral_padded {width n : Nat} (hw : 0 < width) (h : n < 10 ^ width) (hn : n < bound63)
    (rest : List Char) : readNumeral (some width) (padded width n ++ rest) = .ok (n, rest) := by
  have hread := readNumeral_digits (some width) rest (digits_padded width n) (by rwa [value_padded])
    (.inl (by rw [length_padded hw h]))
  rwa [value_padded] at hread

/-- What starts with digits starts with no blank. -/
theorem trimStart_digits {ds : List Char} (h : Digits ds) (rest : List Char) :
    trimStart (ds ++ rest) = ds ++ rest := by
  obtain ⟨d, r, rfl⟩ := List.exists_cons_of_ne_nil h.ne_nil
  exact trimStart_cons_of_not_blank _ (isBlank_of_isDigit (h.digit d List.mem_cons_self))

/-- A field of two digits is read back. -/
theorem readField_padded {low high n : Nat} (hlow : low ≤ n) (hhigh : n ≤ high) (hn : n < 100)
    (rest : List Char) : readField low high (padded 2 n ++ rest) = .ok (n, rest) := by
  unfold readField
  rw [trimStart_digits (digits_padded 2 n),
    readNumeral_padded (by decide) hn (by simp only [bound63]; omega)]
  simp only [bind, Except.bind, within]
  rw [if_pos ⟨hlow, hhigh⟩]
  rfl

/-- A mark is taken off, whatever follows. -/
theorem expect_mark (mark : Char) (rest : List Char) : expect mark (mark :: rest) = .ok ((), rest) := by
  simp [expect]

end BackupFleet.Time
