/-!
# `BackupFleet.Text.Numeral` — decimal numerals

Counts, retry limits, object ids, transaction ids and the fields of a date are written and read in
decimal. Writing is `Nat.toDigits 10`; this module adds the readers, which accept ASCII digits only, and
the zero-padded form.

## Contents

* `readDigits` — one or more digits and nothing else;
* `readUnsigned` — digits below a bound, with an optional plus sign;
* `decimal`, `padded` — the written forms.
-/

namespace BackupFleet.Text

/-! ## Reading -/

/-- The number that one or more digits denote; `none` if anything else occurs. -/
def readDigits (cs : List Char) : Option Nat :=
  if cs ≠ [] ∧ cs.all Char.isDigit then some (Nat.ofDigitChars 10 cs 0) else none

/-- A number below `bound`, written as digits after an optional plus sign. -/
def readUnsigned (bound : Nat) (cs : List Char) : Option Nat :=
  let digits := match cs with
    | '+' :: r => r
    | _ => cs
  (readDigits digits).filter (· < bound)

/-- Numbers of 31 bits. -/
def bound31 : Nat := 2147483648

/-- Numbers of 32 bits. -/
def bound32 : Nat := 4294967296

/-- Numbers of 63 bits. -/
def bound63 : Nat := 9223372036854775808

/-- Numbers of 64 bits. -/
def bound64 : Nat := 18446744073709551616

/-! ## Writing -/

/-- The digits of `n`, without leading zeros. -/
def decimal (n : Nat) : List Char := Nat.toDigits 10 n

/-- The digits of `n`, filled up with zeros to `width`. -/
def padded (width n : Nat) : List Char := List.leftpad width '0' (decimal n)

theorem decimal_ne_nil (n : Nat) : decimal n ≠ [] :=
  List.ne_nil_of_length_pos (Nat.length_toDigits_pos (b := 10))

theorem isDigit_of_mem_decimal {n : Nat} {c : Char} (h : c ∈ decimal n) : c.isDigit = true :=
  Nat.isDigit_of_mem_toDigits (by decide) (by decide) h

@[simp] theorem readDigits_decimal (n : Nat) : readDigits (decimal n) = some n := by
  rw [readDigits, if_pos ⟨decimal_ne_nil n, List.all_eq_true.2 fun c h => isDigit_of_mem_decimal h⟩]
  exact congrArg some (Nat.ofDigitChars_toDigits (by decide) (by decide))

/-- A number below the bound is read back from its digits. -/
theorem readUnsigned_decimal {bound n : Nat} (h : n < bound) :
    readUnsigned bound (decimal n) = some n := by
  have hd : readUnsigned bound (decimal n) = (readDigits (decimal n)).filter (· < bound) := by
    unfold readUnsigned
    split
    · rename_i r hr
      have := isDigit_of_mem_decimal (n := n) (c := '+') (by rw [hr]; exact List.mem_cons_self)
      simp [Char.isDigit] at this
    · rfl
  simp [hd, h]

end BackupFleet.Text
