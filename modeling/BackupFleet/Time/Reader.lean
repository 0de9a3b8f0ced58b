import BackupFleet.Text.Blank
import BackupFleet.Text.Utf8
import BackupFleet.Time.Zone

/-!
# `BackupFleet.Time.Reader` — reading times

Two places read times. Stored times are read by `readStored`, a relaxed form of RFC 3339; the time a
recovery stops at is read by `readTarget`, which takes strict RFC 3339 or the two plain formats, with an
offset or on the clock of a zone. All three grammars consist of the same steps: a numeral of bounded
width, a mark, the part of a second, an offset. A step takes what it needs off the front of the text.

What was wrong with a stored time is told by a `TimeError`; the order of the checks decides which one:
first the text from left to right, then the date, then the offset, then the range of the result.

## Contents

* `TimeError` — the ways a text is not a time;
* `Reading`, `Reading.stamp` — the fields that were read, and the moment they denote;
* `readStrict`, `readRelaxed`, `readPlain` — the three grammars;
* `readStored`, `readTarget` — the two readers.
-/

namespace BackupFleet.Time

/-! ## Errors -/

/-- Why a text is not a time. -/
inductive TimeError where
  | outOfRange
  | impossible
  | invalid
  | tooShort
  | tooLong
deriving DecidableEq, Repr

/-- The wording of an error. -/
def TimeError.message : TimeError → String
  | outOfRange => "input is out of range"
  | impossible => "no possible date and time matching input"
  | invalid => "input contains invalid characters"
  | tooShort => "premature end of input"
  | tooLong => "trailing input"

/-- A step of a reader: what it read, and the text after it. -/
abbrev Step (α : Type) := List Char → Except TimeError (α × List Char)

/-! ## Steps -/

/-- The value of the digits `ds` after `acc`, as long as it stays below 2⁶³. -/
def accumulate : Nat → List Char → Except TimeError Nat
  | acc, [] => .ok acc
  | acc, d :: r =>
    let next := acc * 10 + (d.toNat - '0'.toNat)
    if next < Text.bound63 then accumulate next r else .error .outOfRange

/-- A numeral of one to `width` digits; of any number of digits without a width. -/
def readNumeral (width : Option Nat) : Step Nat := fun cs =>
  match cs with
  | [] => .error .tooShort
  | c :: _ =>
    if c.isDigit = false then .error .invalid
    else
      let all := cs.takeWhile Char.isDigit
      let digits := match width with
        | some w => all.take w
        | none => all
      (accumulate 0 digits).map (·, cs.drop digits.length)

/-- A numeral of exactly `width` digits. -/
def readExact (width : Nat) : Step Nat := fun cs =>
  let digits := cs.take width
  if digits.length < width then .error .tooShort
  else if digits.all Char.isDigit then (accumulate 0 digits).map (·, cs.drop width)
  else .error .invalid

/-- `n`, if it lies between the bounds. -/
def within (low high n : Nat) : Except TimeError Nat :=
  if low ≤ n ∧ n ≤ high then .ok n else .error .outOfRange

/-- A mark that must stand here. -/
def expect (mark : Char) : Step Unit := fun cs =>
  match cs with
  | [] => .error .tooShort
  | c :: r => if c = mark then .ok ((), r) else .error .invalid

/-- A field of one or two digits after any blanks. -/
def readField (low high : Nat) : Step Nat := fun cs => do
  let (n, r) ← readNumeral (some 2) (Text.trimStart cs)
  pure (← within low high n, r)

/-- A field of exactly two digits. -/
def readFixed (low high : Nat) : Step Nat := fun cs => do
  let (n, r) ← readExact 2 cs
  pure (← within low high n, r)

/-- Years that a field can hold. -/
def yearWithin (y : Int) : Except TimeError Int :=
  if -2147483648 ≤ y ∧ y ≤ 2147483647 then .ok y else .error .outOfRange

/-- A year after any blanks: up to four digits, or a sign and any number of digits. -/
def readYear : Step Int := fun cs =>
  match Text.trimStart cs with
  | '-' :: r => do
    let (n, r) ← readNumeral none r
    pure (← yearWithin (-n), r)
  | '+' :: r => do
    let (n, r) ← readNumeral none r
    pure (← yearWithin n, r)
  | r => do
    let (n, r) ← readNumeral (some 4) r
    pure (← yearWithin n, r)

/-- The part of a second after a point, in nanoseconds; digits past the ninth are dropped. Without a
    point the part is zero. -/
def readFraction : Step Nat := fun cs =>
  match cs with
  | '.' :: r => do
    let (n, rest) ← readNumeral (some 9) r
    pure (n * Nat.pow 10 (9 - (r.length - rest.length)), rest.dropWhile Char.isDigit)
  | _ => .ok (0, cs)

/-- Two digits; the flag of the error says whether there were two bytes to look at. -/
def twoDigits (cs : List Char) : Except TimeError (Nat × Nat × List Char) :=
  match cs with
  | [] => .error .tooShort
  | [c] => .error (if Text.charWidth c < 2 then .tooShort else .invalid)
  | a :: b :: r =>
    if a.isDigit && b.isDigit then .ok (a.toNat - '0'.toNat, b.toNat - '0'.toNat, r)
    else .error .invalid

/-- How an offset is written: whether the hours and minutes are separated by one colon or by any number
    of colons and blanks, and whether the minutes may be left out. -/
structure OffsetForm where
  looseMark : Bool
  optionalMinutes : Bool

/-- What stands between the hours and the minutes of an offset. -/
def OffsetForm.skipMark (f : OffsetForm) : Step Unit := fun cs =>
  -- The mark may be missing altogether.
  if f.looseMark then .ok ((), cs.dropWhile fun c => c == ':' || Text.isBlank c)
  else expect ':' cs

/-- The minutes of an offset. -/
def OffsetForm.readMinutes (f : OffsetForm) : Step Nat := fun cs =>
  match twoDigits cs with
  | .ok (tens, ones, r) => if 5 < tens then .error .outOfRange else .ok (10 * tens + ones, r)
  | .error .tooShort =>
    if f.optionalMinutes && cs.isEmpty then .ok (0, []) else .error .tooShort
  | .error e => .error e

/-- An offset in minutes: `Z`, or a sign with hours and minutes. U+2212 counts as a minus sign. -/
def OffsetForm.read (f : OffsetForm) : Step Int := fun cs =>
  let signed (negative : Bool) (r : List Char) : Except TimeError (Int × List Char) := do
    let (tens, ones, r) ← twoDigits r
    let ((), r) ← f.skipMark r
    let (minutes, r) ← f.readMinutes r
    let total : Int := 60 * (10 * tens + ones) + minutes
    pure (if negative then -total else total, r)
  match cs with
  | [] => .error .tooShort
  | 'Z' :: r | 'z' :: r => .ok (0, r)
  | '+' :: r => signed false r
  | '-' :: r | '\u2212' :: r => signed true r
  | _ => .error .invalid

/-! ## Fields and moments -/

/-- The fields of a time, each within its own bounds. -/
structure Reading where
  date : Date
  hour : Nat
  minute : Nat
  second : Nat
  nano : Nat
deriving DecidableEq, Repr

/-- The second that a reading shows on its own clock, and the part of it; the 60th second of a minute is
    a part of the 59th. The date must exist and lie in the writable years. -/
def Reading.localSecond (r : Reading) : Except TimeError (Int × Nat) :=
  if r.date.Valid ∧ -262143 ≤ r.date.year ∧ r.date.year ≤ 262142 then
    -- The 60th second of a minute is told by the part of the 59th.
    let leap := r.second = 60
    .ok (dayOf r.date * 86400 + 3600 * r.hour + 60 * r.minute + (if leap then 59 else r.second : Nat),
      if leap then r.nano + nanosPerSecond else r.nano)
  else .error .outOfRange

/-- The moment of a local second on a clock `offset` minutes ahead of UTC. -/
def stampAt (second : Int) (nano : Nat) (offset : Int) : Except TimeError Stamp :=
  match Moment.ofSecond? (second - 60 * offset) nano with
  | some m => .ok ⟨m, offset⟩
  | none => .error .impossible

/-- The moment a reading denotes on a clock `offset` minutes ahead of UTC. -/
def Reading.stamp (r : Reading) (offset : Int) : Except TimeError Stamp := do
  let (second, nano) ← r.localSecond
  if offset.natAbs < 1440 then stampAt second nano offset else .error .outOfRange

/-! ## Grammars -/

/-- The letter or blank between a date and a time. -/
def readJoint : Step Unit := fun cs =>
  match cs with
  | [] => .error .tooShort
  | 't' :: r | 'T' :: r | ' ' :: r => .ok ((), r)
  | _ => .error .invalid

/-- Strict RFC 3339: every field in full width, the offset below a day. -/
def readStrict : Step Stamp := fun cs => do
  let (year, cs) ← readExact 4 cs
  let ((), cs) ← expect '-' cs
  let (month, cs) ← readFixed 1 12 cs
  let ((), cs) ← expect '-' cs
  let (day, cs) ← readFixed 1 31 cs
  let ((), cs) ← readJoint cs
  let (hour, cs) ← readFixed 0 23 cs
  let ((), cs) ← expect ':' cs
  let (minute, cs) ← readFixed 0 59 cs
  let ((), cs) ← expect ':' cs
  let (second, cs) ← readFixed 0 60 cs
  let (nano, cs) ← readFraction cs
  let (offset, cs) ← OffsetForm.read ⟨false, false⟩ cs
  let reading : Reading := ⟨⟨year, month, day⟩, hour, minute, second, nano⟩
  pure (← reading.stamp offset, cs)

/-- A date with blanks allowed before its numerals, and before its marks where `loose`. -/
def readDate (loose : Bool) : Step Date := fun cs => do
  let gap (cs : List Char) := if loose then Text.trimStart cs else cs
  let (year, cs) ← readYear cs
  let ((), cs) ← expect '-' (gap cs)
  let (month, cs) ← readField 1 12 cs
  let ((), cs) ← expect '-' (gap cs)
  let (day, cs) ← readField 1 31 cs
  pure (⟨year, month, day⟩, cs)

/-- The time of a day, with blanks allowed as in `readDate`; the part of a second is optional. -/
def readTimeOf (date : Date) (loose : Bool) : Step Reading := fun cs => do
  let gap (cs : List Char) := if loose then Text.trimStart cs else cs
  let (hour, cs) ← readField 0 23 cs
  let ((), cs) ← expect ':' (gap cs)
  let (minute, cs) ← readField 0 59 cs
  let ((), cs) ← expect ':' (gap cs)
  let (second, cs) ← readField 0 60 cs
  let (nano, cs) ← readFraction cs
  pure (⟨date, hour, minute, second, nano⟩, cs)

/-- What is after `UTC` in any case. -/
def afterUtc : List Char → Option (List Char)
  | a :: b :: c :: r => if [a, b, c].map Char.toUpper = ['U', 'T', 'C'] then some r else none
  | _ => none

/-- Relaxed RFC 3339: blanks around the fields, short fields, years of any width with a sign, and `UTC`
    for the offset. -/
def readRelaxed : Step Stamp := fun cs => do
  let (date, cs) ← readDate true cs
  let ((), cs) ← readJoint cs
  let (reading, cs) ← readTimeOf date true cs
  let cs := Text.trimStart cs
  let (offset, cs) ← match afterUtc cs with
    | some r => .ok (0, r)
    | none => OffsetForm.read ⟨true, false⟩ cs
  let cs := Text.trimStart cs
  if cs = [] then pure (← reading.stamp offset, cs) else .error .tooLong

/-- The plain format: a date, blanks or nothing, a time. -/
def readPlain : Step Reading := fun cs => do
  let (date, cs) ← readDate false cs
  readTimeOf date false (Text.trimStart cs)

/-! ## Readers -/

/-- A step as a reader of whole texts. -/
def Step.whole {α : Type} (step : Step α) (cs : List Char) : Except TimeError α := do
  let (a, rest) ← step cs
  if rest = [] then pure a else .error .tooLong

/-- A stored time. -/
def readStored (cs : List Char) : Except TimeError Moment := (Step.whole readRelaxed cs).map (·.moment)

/-- The plain format followed by an offset. -/
def readPlainOffset (cs : List Char) : Except TimeError Stamp := do
  let (reading, rest) ← readPlain cs
  let offset ← (OffsetForm.read ⟨true, true⟩).whole (Text.trimStart rest)
  reading.stamp offset

/-- The plain format on the clock of a zone. -/
def readPlainLocal (zone : Zone) (cs : List Char) : Option Stamp := do
  let reading ← (Step.whole readPlain cs).toOption
  let (second, _) ← reading.localSecond.toOption
  (reading.stamp (← zone.offset? second)).toOption

/-- The time a recovery stops at: strict RFC 3339 first, then the plain format with an offset, then the
    plain format in the given zone. -/
def readTarget (zone : Zone) (cs : List Char) : Option Stamp :=
  match (Step.whole readStrict cs).toOption with
  | some s => some s
  | none =>
    match (readPlainOffset cs).toOption with
    | some s => some s
    | none => readPlainLocal zone cs

end BackupFleet.Time
