/-!
# `BackupFleet.Time.Calendar` — days and dates

The Gregorian calendar, extended without end in both directions, as a numbering of the days: day 0 is
1970-01-01. `dayOf` numbers a date and `dateOf` names a day. Both count the months from March, so that
the leap day is the last day of its counting year and drops out of every formula but one.

## Contents

* `Date`, `isLeap`, `daysInMonth`, `Date.Valid` — what a date is;
* `dayOf`, `dateOf` — the two directions;
* `weekday`, `monthName`, `weekdayName` — the short names that listings print.
-/

namespace BackupFleet.Time

/-! ## Dates -/

/-- A year, a month and a day of the month, both counted from 1. -/
structure Date where
  year : Int
  month : Nat
  day : Nat
deriving DecidableEq, Repr

/-- Whether February has 29 days. -/
def isLeap (year : Int) : Bool :=
  year % 4 == 0 && (year % 100 != 0 || year % 400 == 0)

/-- The length of a month. -/
def daysInMonth (year : Int) : Nat → Nat
  | 2 => if isLeap year then 29 else 28
  | 4 | 6 | 9 | 11 => 30
  | _ => 31

/-- The date exists. -/
def Date.Valid (d : Date) : Prop :=
  1 ≤ d.month ∧ d.month ≤ 12 ∧ 1 ≤ d.day ∧ d.day ≤ daysInMonth d.year d.month

instance (d : Date) : Decidable d.Valid := inferInstanceAs (Decidable (_ ∧ _ ∧ _ ∧ _))

/-! ## Numbering -/

/-- The days before a month, counted from the first of March; `m` is 0 for March and 11 for February. -/
def daysBeforeMonth (m : Nat) : Nat := (153 * m + 2) / 5

/-- The days before the March of a year, counted from the March of year 0. -/
def daysBeforeYear (y : Int) : Int := 365 * y + y / 4 - y / 100 + y / 400

/-- How many days 1970-01-01 comes after the first of March of year 0. -/
def epochOffset : Int := 719468

/-- The number of a date. -/
def dayOf (d : Date) : Int :=
  let y := if d.month ≤ 2 then d.year - 1 else d.year
  daysBeforeYear y + (daysBeforeMonth ((d.month + 9) % 12) : Nat) + d.day - 1 - epochOffset

/-- The date of a day. A period of 400 years is four centuries, a century 25 spans of four years and a
    span four years; the last of each may have one day more, which is why two quotients stop at 3. -/
def dateOf (n : Int) : Date :=
  let z := n + epochOffset
  let inPeriod := (z % 146097).toNat
  let century := min (inPeriod / 36524) 3
  let inCentury := inPeriod - 36524 * century
  let inSpan := inCentury % 1461
  let inFour := min (inSpan / 365) 3
  let inYear := inSpan - 365 * inFour
  let year := z / 146097 * 400 + (100 * century + 4 * (inCentury / 1461) + inFour : Nat)
  let m := (5 * inYear + 2) / 153
  let month := if m < 10 then m + 3 else m - 9
  ⟨if month ≤ 2 then year + 1 else year, month, inYear - daysBeforeMonth m + 1⟩

/-! ## Names -/

/-- The day of the week, 0 for Sunday. -/
def weekday (n : Int) : Nat := ((n + 4) % 7).toNat

/-- Three letters for a day of the week. -/
def weekdayName : Nat → String
  | 0 => "Sun"
  | 1 => "Mon"
  | 2 => "Tue"
  | 3 => "Wed"
  | 4 => "Thu"
  | 5 => "Fri"
  | _ => "Sat"

/-- Three letters for a month. -/
def monthName : Nat → String
  | 1 => "Jan"
  | 2 => "Feb"
  | 3 => "Mar"
  | 4 => "Apr"
  | 5 => "May"
  | 6 => "Jun"
  | 7 => "Jul"
  | 8 => "Aug"
  | 9 => "Sep"
  | 10 => "Oct"
  | 11 => "Nov"
  | _ => "Dec"

example : dayOf ⟨1970, 1, 1⟩ = 0 ∧ dateOf 0 = ⟨1970, 1, 1⟩ := by decide
example : dateOf (dayOf ⟨2024, 2, 29⟩) = ⟨2024, 2, 29⟩ := by decide
example : dateOf (dayOf ⟨-262143, 1, 1⟩) = ⟨-262143, 1, 1⟩ := by decide
example : weekdayName (weekday (dayOf ⟨2024, 6, 1⟩)) = "Sat" := by decide

end BackupFleet.Time
