import BackupFleet.Text.Blank
import BackupFleet.Time.Moment

/-!
# `BackupFleet.Time.Zone` — what a local time means

A time that is written without an offset is read on the clock of a zone. A zone has a standard offset
and perhaps a summer offset with two yearly changeovers, as a POSIX `TZ` text gives them. The clock
jumps forward at one changeover and back at the other, so some local times never occur and some occur
twice; both have no single meaning and `Zone.offset?` answers `none`.

The ends of these stretches count as follows: the last instant before the jump forward is still standard
time, and both ends of the repeated stretch are repeated.

## Contents

* `Changeover`, `Zone` — the type;
* `Zone.offset?` — the offset that a local second has;
* `Zone.ofPosix` — the zone of a `TZ` text.
-/

namespace BackupFleet.Time

/-! ## Zones -/

/-- The `week`-th given weekday of a month (the last one for week 5) at `second` of that day. -/
structure Changeover where
  month : Nat
  week : Nat
  weekday : Nat
  second : Int
deriving DecidableEq, Repr

/-- Summer time: its offset, and its first and last moment on the clock that is in force before. -/
structure Summer where
  offset : Int
  start : Changeover
  stop : Changeover
deriving DecidableEq, Repr

/-- Offsets are minutes ahead of UTC. -/
structure Zone where
  standard : Int
  summer : Option Summer
deriving DecidableEq, Repr

/-- The zone without offset. -/
def Zone.utc : Zone := ⟨0, none⟩

/-! ## Local times -/

/-- The local second of a changeover in a year. -/
def Changeover.secondIn (c : Changeover) (year : Int) : Int :=
  let first := dayOf ⟨year, c.month, 1⟩
  let toWeekday := (c.weekday + 7 - Time.weekday first) % 7
  let day := toWeekday + 7 * (c.week - 1)
  let inMonth := if daysInMonth year c.month ≤ day then day - 7 else day
  (first + inMonth) * 86400 + c.second

/-- The offset of a local second, unless the clock skips it or shows it twice. -/
def Summer.offset? (s : Summer) (standard second : Int) : Option Int :=
  let year := (dateOf (second / 86400)).year
  let start := s.start.secondIn year
  let stop := s.stop.secondIn year
  let shift := 60 * (s.offset - standard)
  -- The stretch that the clock skips, without its first instant.
  if start < second ∧ second < start + shift then none
  -- The stretch that the clock shows twice, with both ends.
  else if stop - shift ≤ second ∧ second ≤ stop then none
  -- North of the equator summer lies inside the year, south of it around its ends.
  else if start < stop then
    some (if start + shift ≤ second ∧ second < stop then s.offset else standard)
  else
    some (if stop < second ∧ second ≤ start then standard else s.offset)

/-- The offset of a local second, if it has a single one. -/
def Zone.offset? (z : Zone) (second : Int) : Option Int :=
  match z.summer with
  | none => some z.standard
  | some s => s.offset? z.standard second

/-- A zone of constant offset gives every local time that offset. -/
@[simp] theorem Zone.offset?_constant (standard second : Int) :
    (Zone.mk standard none).offset? second = some standard := rfl

/-! ## Reading a `TZ` text -/

/-- What follows a zone name: letters, or anything between angle brackets. -/
def afterName : List Char → Option (List Char)
  | '<' :: r =>
    match r.dropWhile (· != '>') with
    | _ :: rest => some rest
    | [] => none
  | cs => if (cs.takeWhile Char.isAlpha).length < 3 then none else some (cs.dropWhile Char.isAlpha)

/-- A count of hours and perhaps minutes, in minutes, and what follows it. -/
def readHours (cs : List Char) : Option (Int × List Char) := do
  let (negative, digits) := match cs with
    | '-' :: r => (true, r)
    | '+' :: r => (false, r)
    | _ => (false, cs)
  let hours ← Text.readDigits (digits.takeWhile Char.isDigit)
  let rest := digits.dropWhile Char.isDigit
  let (minutes, rest) ← match rest with
    | ':' :: r => (Text.readDigits (r.takeWhile Char.isDigit)).map (·, r.dropWhile Char.isDigit)
    | _ => some (0, rest)
  let total : Int := 60 * hours + minutes
  pure (if negative then -total else total, rest)

/-- A rule `Mmonth.week.weekday`, with `/hours` if the changeover is not at two in the morning. -/
def readChangeover (cs : List Char) : Option Changeover := do
  let 'M' :: body := cs | none
  let (date, time) := match Text.splitWhen (· == '/') body with
    | [date, time] => (date, some time)
    | _ => (body, none)
  let [month, week, weekday] ← (Text.splitWhen (· == '.') date).mapM Text.readDigits | none
  let minutes ← match time with
    | some time => (readHours time).bind fun (m, rest) => if rest = [] then some m else none
    | none => some 120
  if 1 ≤ month ∧ month ≤ 12 ∧ 1 ≤ week ∧ week ≤ 5 ∧ weekday ≤ 6 then
    pure ⟨month, week, weekday, 60 * minutes⟩
  else none

/-- Name and hours of standard time, then perhaps name, hours and rules of summer time. Hours count
    westward, and summer time is one hour ahead unless its hours are given. -/
def readPosix (cs : List Char) : Option Zone := do
  match Text.splitWhen (· == ',') cs with
  | [names] =>
    let (west, rest) ← readHours (← afterName names)
    if rest = [] then pure ⟨-west, none⟩ else none
  | [names, start, stop] =>
    let (west, rest) ← readHours (← afterName names)
    let rest ← afterName rest
    let summerWest ← if rest = [] then some (west - 60) else (readHours rest).map (·.1)
    pure ⟨-west, some ⟨-summerWest, ← readChangeover start, ← readChangeover stop⟩⟩
  | _ => none

/-- The zone of a `TZ` text; a text that gives no offset, such as `UTC`, means no offset. -/
def Zone.ofPosix (tz : String) : Zone := (readPosix tz.toList).getD .utc

example : Zone.ofPosix "<-03>3" = ⟨-180, none⟩ := by decide
example : Zone.ofPosix "IST-5:30" = ⟨330, none⟩ := by decide
example : Zone.ofPosix "EST5EDT,M3.2.0,M11.1.0" =
    ⟨-300, some ⟨-240, ⟨3, 2, 0, 7200⟩, ⟨11, 1, 0, 7200⟩⟩⟩ := by decide

end BackupFleet.Time
