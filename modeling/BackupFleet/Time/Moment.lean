import BackupFleet.Text.Numeral
import BackupFleet.Time.Calendar

/-!
# `BackupFleet.Time.Moment` — points in time and their written forms

A `Moment` is a second of UTC and a part of it in nanoseconds. A leap second is written inside the
second before it: its nanoseconds start at 10⁹, and only the last second of a minute may have such a
part. The second lies in the years −262143 to 262142, so every moment has a date that can be written.

## Contents

* `Moment`, `Moment.ofSecond?`, `Moment.ofUnix` — the type, and moments from a count of seconds;
* `Clock` — the fields of a moment as a clock and a calendar show it;
* `Moment.rfc3339`, `Stamp.rfc3339` — the form with a zone, with 0, 3, 6 or 9 digits of the second;
* `Moment.compact`, `Moment.spelled` — the form of backup ids and the form of listings.
-/

namespace BackupFleet.Time

/-! ## Moments -/

/-- Nanoseconds in a second. -/
def nanosPerSecond : Nat := 1000000000

/-- The first second of the year −262143. -/
def firstSecond : Int := dayOf ⟨-262143, 1, 1⟩ * 86400

/-- The last second of the year 262142. -/
def lastSecond : Int := dayOf ⟨262142, 12, 31⟩ * 86400 + 86399

/-- `second` and `nano` denote a moment. -/
def IsMoment (second : Int) (nano : Nat) : Prop :=
  firstSecond ≤ second ∧ second ≤ lastSecond ∧
    (nano < nanosPerSecond ∨ (nano < 2 * nanosPerSecond ∧ second % 60 = 59))

instance (second : Int) (nano : Nat) : Decidable (IsMoment second nano) :=
  inferInstanceAs (Decidable (_ ∧ _ ∧ _))

/-- A point in time: a second of UTC, counted from 1970-01-01T00:00:00, and a part of it. -/
structure Moment where
  second : Int
  nano : Nat
  isMoment : IsMoment second nano

instance : DecidableEq Moment := fun a b =>
  decidable_of_iff (a.second = b.second ∧ a.nano = b.nano)
    ⟨fun h => by cases a; cases b; simpa using h, fun h => h ▸ ⟨rfl, rfl⟩⟩

namespace Moment

/-- The moment of a second and a part of it, if they denote one. -/
def ofSecond? (second : Int) (nano : Nat) : Option Moment :=
  if h : IsMoment second nano then some ⟨second, nano, h⟩ else none

/-- 1970-01-01T00:00:00. -/
def epoch : Moment := ⟨0, 0, by decide⟩

instance : Inhabited Moment := ⟨epoch⟩

/-- What a clock shows after `second` seconds and `nano` nanoseconds; a count outside the writable
    years shows as the nearest writable second. -/
def ofUnix (second : Int) (nano : Nat) : Moment :=
  -- A part of a second or more moves the second, so that no leap second arises.
  let whole := second + (nano / nanosPerSecond : Nat)
  ⟨max firstSecond (min lastSecond whole), nano % nanosPerSecond, by
    have h : firstSecond ≤ lastSecond := by decide
    exact ⟨by omega, by omega, .inl (Nat.mod_lt _ (by decide))⟩⟩

end Moment

/-! ## Clock and calendar fields -/

/-- What a calendar and a clock show: a date, and the hour, minute, second and nanosecond of the day.
    The second is 60 in a leap second. -/
structure Clock where
  date : Date
  hour : Nat
  minute : Nat
  second : Nat
  nano : Nat
deriving DecidableEq, Repr

/-- The fields of a second and its part, both in the zone that the clock goes by. -/
def Clock.ofSecond (second : Int) (nano : Nat) : Clock :=
  let inDay := (second % 86400).toNat
  { date := dateOf (second / 86400)
    hour := inDay / 3600
    minute := inDay / 60 % 60
    second := inDay % 60 + nano / nanosPerSecond
    nano := nano % nanosPerSecond }

/-- The fields in UTC. -/
def Moment.clock (m : Moment) : Clock := Clock.ofSecond m.second m.nano

/-! ## Written forms -/

/-- Four digits for the years 0 to 9999, a sign and at least four digits for the others. -/
def yearDigits (year : Int) : List Char :=
  if year < 0 then '-' :: Text.padded 4 year.natAbs
  else if 9999 < year then '+' :: Text.padded 4 year.natAbs
  else Text.padded 4 year.natAbs

/-- The part of a second after a point, in the fewest groups of three digits that hold it exactly. -/
def fraction (nano : Nat) : List Char :=
  if nano = 0 then []
  else if nano % 1000000 = 0 then '.' :: Text.padded 3 (nano / 1000000)
  else if nano % 1000 = 0 then '.' :: Text.padded 6 (nano / 1000)
  else '.' :: Text.padded 9 nano

/-- The date and the time of day, with a `T` between them. -/
def Clock.rfc3339 (c : Clock) : List Char :=
  yearDigits c.date.year ++ '-' :: Text.padded 2 c.date.month ++ '-' :: Text.padded 2 c.date.day ++
    'T' :: Text.padded 2 c.hour ++ ':' :: Text.padded 2 c.minute ++ ':' :: Text.padded 2 c.second ++
    fraction c.nano

/-- The form of stored times. -/
def Moment.rfc3339 (m : Moment) : List Char := m.clock.rfc3339 ++ ['Z']

/-- Date and time without separators, as backup ids have them. -/
def Moment.compact (m : Moment) : List Char :=
  let c := m.clock
  yearDigits c.date.year ++ Text.padded 2 c.date.month ++ Text.padded 2 c.date.day ++
    'T' :: Text.padded 2 c.hour ++ Text.padded 2 c.minute ++ Text.padded 2 c.second

/-- Names of the day and the month, the day of the month in two columns, the time and the year. -/
def Moment.spelled (m : Moment) : List Char :=
  let c := m.clock
  (weekdayName (weekday (m.second / 86400))).toList ++ ' ' :: (monthName c.date.month).toList ++
    ' ' :: List.leftpad 2 ' ' (Text.decimal c.date.day) ++ ' ' :: Text.padded 2 c.hour ++
    ':' :: Text.padded 2 c.minute ++ ':' :: Text.padded 2 c.second ++ ' ' :: yearDigits c.date.year

/-! ## Moments with an offset -/

/-- A moment as it is read on a clock that is `offset` minutes ahead of UTC. -/
structure Stamp where
  moment : Moment
  offset : Int
deriving DecidableEq

/-- A sign, the hours and the minutes. -/
def offsetDigits (offset : Int) : List Char :=
  (if offset < 0 then '-' else '+') ::
    Text.padded 2 (offset.natAbs / 60) ++ ':' :: Text.padded 2 (offset.natAbs % 60)

/-- The time on the stamp's own clock, with the offset. -/
def Stamp.rfc3339 (s : Stamp) : List Char :=
  (Clock.ofSecond (s.moment.second + 60 * s.offset) s.moment.nano).rfc3339 ++ offsetDigits s.offset

example : (Moment.ofUnix 1717243445 0).rfc3339 = "2024-06-01T12:04:05Z".toList := by decide
example : (Moment.ofUnix 1717243445 0).compact = "20240601T120405".toList := by decide
example : (Moment.ofUnix 1717243445 0).spelled = "Sat Jun  1 12:04:05 2024".toList := by decide

end BackupFleet.Time
