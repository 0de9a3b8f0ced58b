import BackupFleet.Text.Numeral

/-!
# `BackupFleet.Number.Binary64` — double precision numbers as text

A configuration file may hold a fractional number, and a message about it shows the number that a
double can hold. All arithmetic here is on naturals: a magnitude is a significand times a power of two,
counted in the smallest magnitude there is, 2⁻¹⁰⁷⁴.

Reading rounds a decimal to the nearest magnitude, a tie to the even significand. Writing tries decimals
of 1, 2, … 17 digits next to the number and takes the first that reads back, of two the nearer one.

## Contents

* `Binary64`, `ofDecimal` — doubles, and the one nearest to a decimal;
* `shortest` — the fewest digits that read back;
* `positional` — a double in positional notation.
-/

namespace BackupFleet

/-- A double. A finite one is `significand · 2 ^ scale` times 2⁻¹⁰⁷⁴. -/
inductive Binary64 where
  | finite (negative : Bool) (significand scale : Nat)
  | infinite (negative : Bool)
  | nan
deriving DecidableEq, Repr

namespace Binary64

/-! ## From decimals -/

/-- `2 ^ k`. -/
def powerOfTwo (k : Nat) : Nat := Nat.pow 2 k

/-- `10 ^ k`. -/
def powerOfTen (k : Nat) : Nat := Nat.pow 10 k

/-- The quotient rounded to the nearest number, a tie to the even one. -/
def roundDiv (num den : Nat) : Nat :=
  let q := num / den
  let r := 2 * (num % den)
  if r < den then q else if den < r then q + 1 else q + q % 2

/-- The largest `scale` of a finite double. -/
def maxScale : Nat := 2045

/-- The double nearest to `num / den` times 2⁻¹⁰⁷⁴. -/
def ofRatio (negative : Bool) (num den : Nat) : Binary64 :=
  let scale := (num / den).log2 - 52
  let significand := roundDiv num (den * powerOfTwo scale)
  -- Rounding up may need one bit more; the significand is then a power of two.
  let (significand, scale) :=
    if significand = powerOfTwo 53 then (powerOfTwo 52, scale + 1) else (significand, scale)
  if maxScale < scale then infinite negative else finite negative significand scale

/-- The double nearest to `digits · 10 ^ exponent`. Decimals far out of range are decided by the place of
    their first digit. -/
def ofDecimal (negative : Bool) (digits : Nat) (exponent : Int) : Binary64 :=
  let place := (Text.decimal digits).length + exponent
  if digits = 0 ∨ place < -400 then finite negative 0 0
  else if 400 < place then infinite negative
  else ofRatio negative (digits * powerOfTen exponent.toNat * powerOfTwo 1074)
    (powerOfTen (-exponent).toNat)

/-! ## The fewest digits -/

/-- The decimals that read back as one magnitude. All three bounds are in units of 2⁻¹⁰⁷⁶; the outer two
    belong to it iff `closed`. -/
structure Span where
  low : Nat
  value : Nat
  high : Nat
  closed : Bool

/-- The decimals that read back as a magnitude. Below a power of two the numbers lie twice as close. -/
def spanOf (significand scale : Nat) : Span where
  low :=
    (if significand = powerOfTwo 52 ∧ 0 < scale then 4 * significand - 1 else 4 * significand - 2) *
      powerOfTwo scale
  value := 4 * significand * powerOfTwo scale
  high := (4 * significand + 2) * powerOfTwo scale
  closed := significand % 2 = 0

/-- The decimal `c · 10 ^ k` reads back. -/
def Span.holds (s : Span) (k : Int) (c : Nat) : Bool :=
  let up := powerOfTen (-k).toNat
  let x := c * powerOfTwo 1076 * powerOfTen k.toNat
  if s.closed then s.low * up ≤ x && x ≤ s.high * up else s.low * up < x && x < s.high * up

/-- The nearer of the two neighbours on the grid of multiples of `10 ^ k`, of those that read back. -/
def Span.onGrid (s : Span) (k : Int) : Option Nat :=
  let num := s.value * powerOfTen (-k).toNat
  let den := powerOfTwo 1076 * powerOfTen k.toNat
  let below := num / den
  match s.holds k below, s.holds k (below + 1) with
  -- Of two neighbours that read back the nearer counts, and in the middle the upper one.
  | true, true => some (if 2 * (num % den) < den then below else below + 1)
  | true, false => some below
  | false, true => some (below + 1)
  | false, false => none

/-- The place of the first digit, 0 for the ones. -/
def Span.place (s : Span) : Int :=
  (Text.decimal (s.value * powerOfTen 400 / powerOfTwo 1076)).length - 401

/-- The fewest digits that read back as a magnitude, and the power of ten they count. -/
def shortest (significand scale : Nat) : Nat × Int :=
  let s := spanOf significand scale
  -- Seventeen digits tell any two doubles apart.
  let grids := (List.range 17).map fun (n : Nat) => s.place - n
  (grids.findSome? fun k => (s.onGrid k).map (·, k)).getD (0, 0)

/-! ## Writing -/

/-- `digits · 10 ^ exponent` with a point and at least one digit on both sides of it. -/
def positionalDecimal (digits : Nat) (exponent : Int) : List Char :=
  let ds := Text.decimal digits
  if 0 ≤ exponent then ds ++ List.replicate exponent.toNat '0' ++ ['.', '0']
  else
    let places := (-exponent).toNat
    let ds := List.leftpad (places + 1) '0' ds
    ds.take (ds.length - places) ++ '.' :: ds.drop (ds.length - places)

/-- A double in positional notation, whatever its size. -/
def positional : Binary64 → List Char
  | nan => "NaN".toList
  | infinite false => "inf".toList
  | infinite true => "-inf".toList
  | finite negative significand scale =>
    let (digits, exponent) := if significand = 0 then (0, 0) else shortest significand scale
    (if negative then ['-'] else []) ++ positionalDecimal digits exponent

end Binary64

end BackupFleet
