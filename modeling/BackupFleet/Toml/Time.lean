import BackupFleet.Time.Calendar
import BackupFleet.Toml.Blank

/-!
# `BackupFleet.Toml.Time` — dates and times in a configuration file

A date, a time of day, or both, the latter perhaps with an offset. What is kept is the normal written
form: a `T` between date and time, at most nine digits of the second and no zero at their end, and a
capital `Z`.

## Contents

* `Reader.date`, `timeOfDay`, `offset` — the parts;
* `Reader.time` — the whole.
-/

namespace BackupFleet.Toml.Reader

open BackupFleet.Reader

/-- A number of exactly `width` digits between two bounds. -/
def fixed (width low high : Nat) : Reader Nat := fun cs =>
  match Text.readDigits (cs.take width) with
  | some n =>
    if (cs.take width).length = width ∧ low ≤ n ∧ n ≤ high then some (n, cs.drop width) else none
  | none => none

/-- A date that exists. -/
def date : Reader (List Char) := do
  let year ← fixed 4 0 9999
  word "-"
  let month ← fixed 2 1 12
  word "-"
  let day ← fixed 2 1 (BackupFleet.Time.daysInMonth year month)
  pure (Text.padded 4 year ++ '-' :: Text.padded 2 month ++ '-' :: Text.padded 2 day)

/-- Digits without the zeros at their end. -/
def trimZeros (ds : List Char) : List Char := (ds.reverse.dropWhile (· == '0')).reverse

/-- The part of a second after a point. -/
def secondPart : Reader (List Char) := do
  word "."
  let ds ← run1 Char.isDigit
  let kept := trimZeros (ds.take 9)
  pure (if kept.isEmpty then [] else '.' :: kept)

/-- A time of day. -/
def timeOfDay : Reader (List Char) := do
  let hour ← fixed 2 0 23
  word ":"
  let minute ← fixed 2 0 59
  word ":"
  let second ← fixed 2 0 60
  let part ← maybe secondPart
  pure (Text.padded 2 hour ++ ':' :: Text.padded 2 minute ++ ':' :: Text.padded 2 second ++ part.getD [])

/-- An offset in hours and minutes. An offset of zero is written with a plus sign. -/
def numericOffset : Reader (List Char) := do
  let mark ← next fun c => c == '+' || c == '-'
  let hour ← fixed 2 0 23
  word ":"
  let minute ← fixed 2 0 59
  let mark := if hour = 0 ∧ minute = 0 then '+' else mark
  pure (mark :: Text.padded 2 hour ++ ':' :: Text.padded 2 minute)

/-- An offset. -/
def offset : Reader (List Char) := (do word "Z" <|> word "z"; pure ['Z']) <|> numericOffset

/-- What may follow a date: a time of day, perhaps with an offset. -/
def timeAfterDate : Reader (List Char) := do
  let _ ← next fun c => c == 'T' || c == 't' || c == ' '
  let time ← timeOfDay
  let offset ← maybe offset
  pure ('T' :: time ++ offset.getD [])

/-- A date, a date with a time, or a time, in its normal written form. -/
def time : Reader String :=
  (do
    let day ← date
    let rest ← maybe timeAfterDate
    pure (String.ofList (day ++ rest.getD []))) <|> (String.ofList <$> timeOfDay)

end BackupFleet.Toml.Reader
