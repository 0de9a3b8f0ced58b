import BackupFleet.Toml.Quoted
import BackupFleet.Toml.Value

/-!
# `BackupFleet.Toml.Number` — numbers in a configuration file

Digits may have an underscore between any two of them. A whole number is decimal with an optional sign
and no leading zero, or it is hexadecimal, octal or binary without a sign; it has 64 bits. A fractional
number has a decimal whole part, and a fraction, an exponent or both.

## Contents

* `Reader.digits` — digits with underscores;
* `Reader.integer`, `Reader.float` — numbers.
-/

namespace BackupFleet.Toml.Reader

open BackupFleet.Reader

/-! ## Digits -/

/-- One or more characters of a class, with single underscores between them left out. -/
def digits (p : Char → Bool) : Reader (List Char) := do
  let first ← next p
  let rest ← many (do
    let _ ← maybe (word "_")
    next p)
  pure (first :: rest)

/-- Whether a minus sign stands here; a plus sign may. -/
def sign : Reader Bool := (do word "-"; pure true) <|> (do let _ ← maybe (word "+"); pure false)

/-- A sign, and digits of which the first is a zero only if it is the only one. -/
def wholePart : Reader (Bool × List Char) := do
  let negative ← sign
  let ds ← (do
    let ds ← digits Char.isDigit
    if ds.head? = some '0' then failure else pure ds) <|> (do pure [← next (· == '0')])
  pure (negative, ds)

/-! ## Whole numbers -/

/-- The numbers that 64 bits with a sign hold. -/
def inRange (n : Int) : Bool := -(Text.bound63 : Int) ≤ n && n < Text.bound63

/-- A whole number after a word that announces its base. -/
def based (opening : String) (base : Nat) : Reader Int := do
  word opening
  let ds ← digits (isBaseDigit base)
  pure (valueInBase base ds)

/-- A decimal whole number. -/
def decimal : Reader Int := do
  let (negative, ds) ← wholePart
  let n : Int := valueInBase 10 ds
  pure (if negative then -n else n)

/-- A whole number of 64 bits. -/
def integer : Reader Int := do
  let n ← based "0x" 16 <|> based "0o" 8 <|> based "0b" 2 <|> decimal
  if inRange n then pure n else failure

/-! ## Fractional numbers -/

/-- The digits after a point. -/
def fraction : Reader (List Char) := do
  word "."
  digits Char.isDigit

/-- An exponent. -/
def exponent : Reader Int := do
  let _ ← next fun c => c == 'e' || c == 'E'
  let negative ← sign
  let n : Int := valueInBase 10 (← digits Char.isDigit)
  pure (if negative then -n else n)

/-- A decimal number with a fraction or an exponent. One that is too large has no value, unless it is
    negative. -/
def decimalFloat : Reader Binary64 := do
  let (negative, whole) ← wholePart
  let (fractional, power) ← (do pure ([], ← exponent)) <|> (do
    let ds ← fraction
    pure (ds, (← maybe exponent).getD 0))
  let x := Binary64.ofDecimal negative (valueInBase 10 (whole ++ fractional))
    (power - fractional.length)
  if x = .infinite false then failure else pure x

/-- A number that is none, or not finite. -/
def namedFloat : Reader Binary64 := do
  let negative ← sign
  (do word "inf"; pure (.infinite negative)) <|> (do word "nan"; pure .nan)

/-- A fractional number. -/
def float : Reader Binary64 := decimalFloat <|> namedFloat

end BackupFleet.Toml.Reader
