import BackupFleet.Time.Calendar

/-!
# `BackupFleet.Proofs.Time.Calendar` — every day has a date

The two directions of the numbering of the days fit together: the date of a day exists, and its number is
that day. Both follow from how a day lies in its period of 400 years (`exists_position`): the century, the
span of four years, the year and the day of the year that `dateOf` takes out one after the other.

## Contents

* `Position`, `exists_position` — a day in its period;
* `dateOf_valid`, `dayOf_dateOf` — the date of a day.
-/

namespace BackupFleet.Time

/-- Where a day is: a period of 400 years, a century in it, a span of four years, a year, and a day, all of
    them counted from 0. Years start in March; a leap day is the last day of the last year of its span, and
    the last span of a century has one only at the end of a period. -/
structure Position where
  period : Int
  century : Nat
  span : Nat
  year : Nat
  day : Nat
  century_le : century ≤ 3
  span_le : span ≤ 24
  year_le : year ≤ 3
  day_le : day ≤ 365
  leap : day = 365 → year = 3 ∧ (span = 24 → century = 3)

namespace Position

/-- The number of the day, from the first of March of year 0. -/
def count (p : Position) : Int :=
  146097 * p.period + (36524 * p.century + 1461 * p.span + 365 * p.year + p.day : Nat)

/-- The year that began in the March before the day. -/
def marchYear (p : Position) : Int := p.period * 400 + (100 * p.century + 4 * p.span + p.year : Nat)

/-- The month, 0 for March. -/
def marchMonth (p : Position) : Nat := (5 * p.day + 2) / 153

end Position

/-- **Every day has a position**, and its date is taken from there. -/
theorem exists_position (n : Int) : ∃ p : Position, n + epochOffset = p.count ∧
    dateOf n = ⟨if p.marchMonth < 10 then p.marchYear else p.marchYear + 1,
      if p.marchMonth < 10 then p.marchMonth + 3 else p.marchMonth - 9,
      p.day - daysBeforeMonth p.marchMonth + 1⟩ := by
  let z := n + epochOffset
  let inPeriod := (z % 146097).toNat
  let century := min (inPeriod / 36524) 3
  let inCentury := inPeriod - 36524 * century
  let inSpan := inCentury % 1461
  let year := min (inSpan / 365) 3
  have hperiod : (inPeriod : Int) = z % 146097 := by omega
  have hinPeriod : inPeriod < 146097 := by omega
  have hinCentury : inCentury ≤ 36524 ∧ (inCentury = 36524 → century = 3) := by omega
  refine ⟨⟨z / 146097, century, inCentury / 1461, year, inSpan - 365 * year, by omega, by omega,
    by omega, by omega, by omega⟩, ?_, ?_⟩
  · show z = _
    unfold Position.count
    dsimp only
    omega
  · -- The year turns between the tenth and the eleventh month, counted from March.
    let m := (5 * (inSpan - 365 * year) + 2) / 153
    have hm : m ≤ 11 := by omega
    have hdate : dateOf n = ⟨if (if m < 10 then m + 3 else m - 9) ≤ 2
        then z / 146097 * 400 + (100 * century + 4 * (inCentury / 1461) + year : Nat) + 1
        else z / 146097 * 400 + (100 * century + 4 * (inCentury / 1461) + year : Nat),
      if m < 10 then m + 3 else m - 9, inSpan - 365 * year - daysBeforeMonth m + 1⟩ := rfl
    rw [hdate]
    show _ = (⟨if m < 10 then _ else _, if m < 10 then m + 3 else m - 9, _⟩ : Date)
    by_cases hlate : m < 10
    · rw [if_pos hlate, if_pos hlate, if_neg (by omega)]
      rfl
    · rw [if_neg hlate, if_neg hlate, if_pos (by omega)]
      rfl

theorem marchMonth_le (p : Position) : p.marchMonth ≤ 11 := by
  have := p.day_le
  unfold Position.marchMonth
  omega

/-- A day comes after the days before its month. -/
theorem daysBeforeMonth_le (p : Position) : daysBeforeMonth p.marchMonth ≤ p.day := by
  unfold daysBeforeMonth Position.marchMonth
  omega

/-- **The number of the date of a day is the day.** -/
theorem dayOf_dateOf (n : Int) : dayOf (dateOf n) = n := by
  obtain ⟨p, hn, hdate⟩ := exists_position n
  have hm := marchMonth_le p
  have hday := daysBeforeMonth_le p
  have hmonth : ((if p.marchMonth < 10 then p.marchMonth + 3 else p.marchMonth - 9) + 9) % 12
      = p.marchMonth := by
    split <;> omega
  have hyear : (if (if p.marchMonth < 10 then p.marchMonth + 3 else p.marchMonth - 9) ≤ 2
      then (if p.marchMonth < 10 then p.marchYear else p.marchYear + 1) - 1
      else if p.marchMonth < 10 then p.marchYear else p.marchYear + 1) = p.marchYear := by
    by_cases hlate : p.marchMonth < 10
    · rw [if_pos hlate, if_pos hlate, if_neg (by omega)]
    · rw [if_neg hlate, if_neg hlate, if_pos (by omega)]
      omega
  have hbefore : daysBeforeYear p.marchYear
      = 146097 * p.period + (36524 * p.century + 1461 * p.span + 365 * p.year : Nat) := by
    obtain ⟨period, century, span, year, day, hc, hs, hy, -, -⟩ := p
    unfold daysBeforeYear Position.marchYear
    dsimp only
    omega
  rw [hdate]
  unfold dayOf
  dsimp only
  rw [hmonth, hyear, hbefore]
  unfold Position.count at hn
  omega

/-- A day comes before the days of the next month. -/
theorem lt_daysBeforeMonth (p : Position) : p.day < daysBeforeMonth (p.marchMonth + 1) := by
  unfold daysBeforeMonth Position.marchMonth
  omega

/-- The lengths of the months before the last one. -/
theorem daysBeforeMonth_succ {m : Nat} (h : m < 11) (year : Int) :
    daysBeforeMonth (m + 1)
      = daysBeforeMonth m + daysInMonth year (if m < 10 then m + 3 else m - 9) := by
  have hm : m = 0 ∨ m = 1 ∨ m = 2 ∨ m = 3 ∨ m = 4 ∨ m = 5 ∨ m = 6 ∨ m = 7 ∨ m = 8 ∨ m = 9 ∨ m = 10 := by
    omega
  rcases hm with rfl | rfl | rfl | rfl | rfl | rfl | rfl | rfl | rfl | rfl | rfl <;> rfl

/-- A year with a leap day at its end is followed by a leap year. -/
theorem isLeap_of_day (p : Position) (h : p.day = 365) : isLeap (p.marchYear + 1) = true := by
  obtain ⟨hyear, hspan⟩ := p.leap h
  have hc := p.century_le
  have hs := p.span_le
  unfold isLeap Position.marchYear
  rw [hyear]
  simp only [Bool.and_eq_true, Bool.or_eq_true, beq_iff_eq, bne_iff_ne]
  refine ⟨by omega, ?_⟩
  by_cases hlast : p.span = 24
  · have := hspan hlast
    exact .inr (by omega)
  · exact .inl (by omega)

/-- **The date of a day exists.** -/
theorem dateOf_valid (n : Int) : (dateOf n).Valid := by
  obtain ⟨p, -, hdate⟩ := exists_position n
  have hm := marchMonth_le p
  have hday := daysBeforeMonth_le p
  rw [hdate]
  refine ⟨?_, ?_, by simp, ?_⟩
  · dsimp only
    split <;> omega
  · dsimp only
    split <;> omega
  · dsimp only
    by_cases hlast : p.marchMonth = 11
    · have hd : p.day ≤ 365 := p.day_le
      rw [hlast, if_neg (by decide), if_neg (by decide)]
      show p.day - 337 + 1 ≤ if isLeap (p.marchYear + 1) = true then 29 else 28
      by_cases hleap : p.day = 365
      · rw [if_pos (isLeap_of_day p hleap)]
        omega
      · split <;> omega
    · have hnext := lt_daysBeforeMonth p
      rw [daysBeforeMonth_succ (by omega)
        (if p.marchMonth < 10 then p.marchYear else p.marchYear + 1)] at hnext
      omega

end BackupFleet.Time
