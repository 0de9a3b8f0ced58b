import BackupFleet.Proofs.Time.Offset
import BackupFleet.Recovery.Target

/-!
# `BackupFleet.Proofs.Recovery.TimeZone` — what the zone has to do with the time to stop at

The time a recovery stops at may be written with an offset or without one. Formats are tried one after the
other: strict RFC 3339, and then each plain format, first with an offset after it and then on the clock of
the zone. A recovery on another host, or after `TZ` was set, must not stop at another time for that.

Main statement: `zone_stands_for_missing_offset` — the zone does not matter to a text with an offset, and to
one without it the zone gives just the offset that is missing: written behind the text, it makes any zone
read the same.

## Contents

* `readWithOffset`, `readOnClock`, `readInTurn` — the formats;
* `CarriesOffset`, `CarriesOffset.readTarget` — texts with an offset;
* `readTarget_eq_readInTurn` — the format without a part of a second is never needed;
* `WrittenOffset`, `readTarget_append` — an offset, written behind a text;
* `zone_stands_for_missing_offset` — all texts.
-/

namespace BackupFleet.Time

open Text OffsetForm

/-! ## The formats -/

/-- A text in a format, with an offset after it. -/
def readWithOffset (format : Step Reading) (cs : List Char) : Except TimeError Stamp := do
  let (reading, rest) ← format cs
  let offset ← loose.read.whole (trimStart rest)
  reading.stamp offset

/-- A text in a format, on the clock of a zone. -/
def readOnClock (format : Step Reading) (zone : Zone) (cs : List Char) : Option Stamp := do
  let reading ← (format.whole cs).toOption
  let (second, _) ← reading.localSecond.toOption
  (reading.stamp (← zone.offset? second)).toOption

/-- Formats, each with an offset first and then on the clock of the zone. -/
def readInTurn (zone : Zone) (cs : List Char) : List (Step Reading) → Option Stamp
  | [] => none
  | format :: r => (readWithOffset format cs).toOption <|> readOnClock format zone cs <|> readInTurn zone cs r

/-- The plain formats, with and without a part of a second. -/
def plainFormats : List (Step Reading) := [readPlain, readCoarse]

theorem toOption_eq_some_iff {ε α : Type} {x : Except ε α} {a : α} : x.toOption = some a ↔ x = .ok a := by
  cases x <;> simp [Except.toOption]

theorem Step.whole_eq_ok_iff {α : Type} {step : Step α} {cs : List Char} {a : α} :
    step.whole cs = .ok a ↔ step cs = .ok (a, []) := by
  unfold Step.whole
  rw [Step.bind_eq_ok_iff]
  constructor
  · rintro ⟨⟨b, rest⟩, hstep, h⟩
    dsimp only at h
    split at h
    · rename_i hrest
      cases h
      rw [hstep, hrest]
    · cases h
  · intro hstep
    exact ⟨(a, []), hstep, rfl⟩

theorem readWithOffset_eq_ok_iff {format : Step Reading} {cs : List Char} {s : Stamp} :
    readWithOffset format cs = .ok s ↔ ∃ reading rest offset, format cs = .ok (reading, rest) ∧
      loose.read (trimStart rest) = .ok (offset, []) ∧ reading.stamp offset = .ok s := by
  unfold readWithOffset
  simp only [Step.bind_eq_ok_iff, Prod.exists, Step.whole_eq_ok_iff]
  constructor
  · rintro ⟨reading, rest, hformat, offset, hoffset, hstamp⟩
    exact ⟨reading, rest, offset, hformat, hoffset, hstamp⟩
  · rintro ⟨reading, rest, offset, hformat, hoffset, hstamp⟩
    exact ⟨reading, rest, hformat, offset, hoffset, hstamp⟩

theorem readOnClock_eq_some_iff {format : Step Reading} {zone : Zone} {cs : List Char} {s : Stamp} :
    readOnClock format zone cs = some s ↔ ∃ reading second nano offset, format cs = .ok (reading, []) ∧
      reading.localSecond = .ok (second, nano) ∧ zone.offset? second = some offset ∧
      reading.stamp offset = .ok s := by
  unfold readOnClock
  simp only [bind, Option.bind_eq_some_iff, toOption_eq_some_iff, Prod.exists, Step.whole_eq_ok_iff]
  constructor
  · rintro ⟨reading, hformat, second, nano, hlocal, offset, hoffset, hstamp⟩
    exact ⟨reading, second, nano, offset, hformat, hlocal, hoffset, hstamp⟩
  · rintro ⟨reading, second, nano, offset, hformat, hlocal, hoffset, hstamp⟩
    exact ⟨reading, hformat, second, nano, hlocal, offset, hoffset, hstamp⟩

theorem readStrict_eq_ok_iff {cs : List Char} {s : Stamp} :
    readStrict.whole cs = .ok s ↔ ∃ reading rest offset, readStrictFields cs = .ok (reading, rest) ∧
      strict.read rest = .ok (offset, []) ∧ reading.stamp offset = .ok s := by
  rw [Step.whole_eq_ok_iff, readStrict_eq]
  simp only [Step.andThen_eq_ok_iff, Step.check_eq_ok_iff]
  constructor
  · rintro ⟨reading, rest, hfields, offset, _, hoffset, hstamp, rfl⟩
    exact ⟨reading, rest, offset, hfields, hoffset, hstamp⟩
  · rintro ⟨reading, rest, offset, hfields, hoffset, hstamp⟩
    exact ⟨reading, rest, hfields, offset, [], hoffset, hstamp, rfl⟩

/-- A stamp has the offset that it was made with, and this is less than a day. -/
theorem offset_of_stamp {reading : Reading} {offset : Int} {s : Stamp} (h : reading.stamp offset = .ok s) :
    s.offset = offset ∧ offset.natAbs < 1440 := by
  unfold Reading.stamp at h
  obtain ⟨⟨second, nano⟩, -, hstamp⟩ := Step.bind_eq_ok_iff.1 h
  dsimp only at hstamp
  split at hstamp
  · rename_i hsmall
    unfold stampAt at hstamp
    split at hstamp
    · cases hstamp
      exact ⟨rfl, hsmall⟩
    · cases hstamp
  · cases hstamp

/-! ## Texts with an offset -/

/-- One of the formats with an offset reads the text as this stamp. -/
inductive CarriesOffset (cs : List Char) (s : Stamp) : Prop
  | strict (h : readStrict.whole cs = .ok s)
  | plain (format : Step Reading) (hformat : format ∈ plainFormats) (h : readWithOffset format cs = .ok s)

/-- The format without a part of a second reads no text with an offset in another way. -/
theorem readWithOffset_of_readCoarse {cs : List Char} {s : Stamp} (h : readWithOffset readCoarse cs = .ok s) :
    readWithOffset readPlain cs = .ok s := by
  obtain ⟨reading, rest, offset, hformat, hoffset, hstamp⟩ := readWithOffset_eq_ok_iff.1 h
  refine readWithOffset_eq_ok_iff.2 ⟨reading, rest, offset, readPlain_of_readCoarse hformat ?_, hoffset, hstamp⟩
  -- An offset starts with no point.
  rintro c hc rfl
  obtain ⟨d, r, hd, -, hpoint⟩ := exists_head_of_read hoffset
  cases rest with
  | nil => cases hc
  | cons e t =>
    cases hc
    rw [trimStart_cons_of_not_blank t (by decide)] at hd
    exact hpoint (List.cons.inj hd).1.symm

/-- **Strict RFC 3339 and the plain format read no text in two ways.** -/
theorem readWithOffset_of_readStrict {cs : List Char} {s : Stamp} (h : readStrict.whole cs = .ok s)
    {p : Reading × List Char} (hp : readPlain cs = .ok p) : readWithOffset readPlain cs = .ok s := by
  obtain ⟨reading, rest, offset, hfields, hoffset, hstamp⟩ := readStrict_eq_ok_iff.1 h
  obtain rfl := readPlain_of_strictFields hfields hp
  obtain ⟨c, r, rfl, hblank, -⟩ := exists_head_of_read hoffset
  refine readWithOffset_eq_ok_iff.2 ⟨reading, _, offset, hp, ?_, hstamp⟩
  rw [trimStart_cons_of_not_blank r hblank]
  exact read_loose_of_strict hoffset

/-- A text in strict RFC 3339 has no blanks around it. -/
theorem trim_of_readStrict {cs : List Char} {s : Stamp} (h : readStrict.whole cs = .ok s) : trim cs = cs := by
  obtain ⟨reading, rest, offset, hfields, hoffset, -⟩ := readStrict_eq_ok_iff.1 h
  refine trim_eq_self_iff.2 ⟨fun c hc => ?_, fun c hc => ?_⟩
  · obtain ⟨year, mid, hyear, -⟩ := Step.andThen_eq_ok_iff.1 hfields
    obtain ⟨d, r, rfl, hd⟩ := exists_digit_of_readExact (by decide) hyear
    cases hc
    exact isBlank_of_isDigit hd
  · obtain ⟨taken, rfl, -⟩ := local_readStrictFields _ _ _ hfields
    obtain ⟨d, r, rfl, -⟩ := exists_head_of_read hoffset
    rw [List.getLast?_append, List.getLast?_cons, Option.some_or, ← List.getLast?_cons] at hc
    exact last_of_read_strict hoffset c hc

/-- Blanks around a text in the plain format with an offset do not matter. -/
theorem readWithOffset_trim {cs : List Char} {s : Stamp} (h : readWithOffset readPlain cs = .ok s) :
    readWithOffset readPlain (trim cs) = .ok s := by
  obtain ⟨reading, rest, offset, hformat, hoffset, hstamp⟩ := readWithOffset_eq_ok_iff.1 h
  rw [← readPlain_trimStart] at hformat
  obtain ⟨taken, hcs, htaken⟩ := local_readPlain _ _ _ hformat
  obtain ⟨c, r, hc, hblank, -⟩ := exists_head_of_read hoffset
  have hin : ∃ d ∈ rest, isBlank d = false :=
    ⟨c, (List.dropWhile_suffix isBlank).subset (show c ∈ trimStart rest by simp [hc]), hblank⟩
  -- The blanks at the end are behind what the format takes.
  have htrim : trim cs = taken ++ trimEnd rest := by rw [trim, hcs, trimEnd_append taken hin]
  have hstart : trimStart (trimEnd rest) = trimEnd (trimStart rest) := trimStart_trimEnd rest
  rw [htrim]
  refine readWithOffset_eq_ok_iff.2
    ⟨reading, trimEnd rest, offset, htaken _ (.inl (head?_trimEnd hin).symm), ?_, hstamp⟩
  rw [hstart]
  exact read_trimEnd hoffset

namespace CarriesOffset

variable {cs : List Char} {s : Stamp}

theorem cases_on_format (h : CarriesOffset cs s) :
    readStrict.whole cs = .ok s ∨ readWithOffset readPlain cs = .ok s := by
  cases h with
  | strict h => exact .inl h
  | plain format hformat h =>
    rcases List.mem_cons.1 hformat with rfl | hformat
    · exact .inr h
    · obtain rfl := List.mem_singleton.1 hformat
      exact .inr (readWithOffset_of_readCoarse h)

theorem of_plain (h : readWithOffset readPlain cs = .ok s) : CarriesOffset cs s :=
  .plain readPlain List.mem_cons_self h

theorem trim (h : CarriesOffset cs s) : CarriesOffset (Text.trim cs) s := by
  rcases h.cases_on_format with h | h
  · refine .strict ?_
    rwa [trim_of_readStrict h]
  · exact .of_plain (readWithOffset_trim h)

/-- **Whichever format reads a text with an offset, it is read that way in every zone.** -/
theorem readTarget (h : CarriesOffset cs s) (zone : Zone) : Time.readTarget zone cs = some s := by
  unfold Time.readTarget
  cases hstrict : readStrict.whole cs with
  | ok t =>
    rcases h.cases_on_format with h | h
    · rw [hstrict] at h
      cases h
      rfl
    · obtain ⟨reading, rest, offset, hformat, -⟩ := readWithOffset_eq_ok_iff.1 h
      rw [readWithOffset_of_readStrict hstrict hformat] at h
      cases h
      rfl
  | error e =>
    have hplain : readPlainOffset cs = .ok s :=
      h.cases_on_format.resolve_left fun h => by rw [hstrict] at h; cases h
    rw [hplain]
    rfl

end CarriesOffset

/-- What carries no offset is read on the clock of the zone. -/
theorem readTarget_of_not_carriesOffset {cs : List Char} (h : ∀ s, ¬CarriesOffset cs s) (zone : Zone) :
    readTarget zone cs = readOnClock readPlain zone cs := by
  unfold readTarget
  cases hstrict : readStrict.whole cs with
  | ok t => exact absurd (.strict hstrict) (h t)
  | error e =>
    cases hplain : readPlainOffset cs with
    | ok t => exact absurd (.of_plain hplain) (h t)
    | error e => rfl

/-! ## The formats in turn -/

theorem readOnClock_of_readCoarse {zone : Zone} {cs : List Char} {s : Stamp}
    (h : readOnClock readCoarse zone cs = some s) : readOnClock readPlain zone cs = some s := by
  obtain ⟨reading, second, nano, offset, hformat, hrest⟩ := readOnClock_eq_some_iff.1 h
  exact readOnClock_eq_some_iff.2 ⟨reading, second, nano, offset,
    readPlain_of_readCoarse hformat (by rintro c ⟨⟩), hrest⟩

/-- **Trying the format without a part of a second as well makes no difference.** -/
theorem readTarget_eq_readInTurn (zone : Zone) (cs : List Char) :
    readTarget zone cs = ((readStrict.whole cs).toOption <|> readInTurn zone cs plainFormats) := by
  have hoffset : readPlainOffset cs = readWithOffset readPlain cs := rfl
  have hclock : readPlainLocal zone cs = readOnClock readPlain zone cs := rfl
  have htarget : readTarget zone cs = ((readStrict.whole cs).toOption <|>
      (readWithOffset readPlain cs).toOption <|> readOnClock readPlain zone cs) := by
    unfold readTarget
    rw [hoffset, hclock]
    cases (readStrict.whole cs).toOption with
    | some s => rfl
    | none => cases (readWithOffset readPlain cs).toOption <;> rfl
  rw [htarget]
  refine congrArg _ (funext fun _ => ?_)
  show _ = ((readWithOffset readPlain cs).toOption <|> readOnClock readPlain zone cs <|>
    (readWithOffset readCoarse cs).toOption <|> readOnClock readCoarse zone cs <|> none)
  cases hplain : (readWithOffset readPlain cs).toOption with
  | some s => rfl
  | none =>
    have hoffset : (readWithOffset readCoarse cs).toOption = none := by
      refine Option.eq_none_iff_forall_ne_some.2 fun s hs => ?_
      have h := readWithOffset_of_readCoarse (toOption_eq_some_iff.1 hs)
      rw [toOption_eq_some_iff.2 h] at hplain
      cases hplain
    cases hclock : readOnClock readPlain zone cs with
    | some s => rfl
    | none =>
      have hcoarse : readOnClock readCoarse zone cs = none := by
        refine Option.eq_none_iff_forall_ne_some.2 fun s hs => ?_
        rw [readOnClock_of_readCoarse hs] at hclock
        cases hclock
      rw [hoffset, hcoarse]
      rfl

/-! ## A missing offset -/

/-- A sign, two digits of hours, a colon and two digits of minutes. -/
inductive WrittenOffset : Int → List Char → Prop
  | ahead (hours minutes : Nat) (hhours : hours < 100) (hminutes : minutes < 60) :
      WrittenOffset (60 * hours + minutes) ('+' :: padded 2 hours ++ ':' :: padded 2 minutes)
  | behind (hours minutes : Nat) (hhours : hours < 100) (hminutes : minutes < 60) :
      WrittenOffset (-(60 * hours + minutes)) ('-' :: padded 2 hours ++ ':' :: padded 2 minutes)

/-- Every offset of less than a day has a written form. -/
theorem written_offsetDigits {offset : Int} (h : offset.natAbs < 1440) :
    WrittenOffset offset (offsetDigits offset) := by
  have hhours : offset.natAbs / 60 < 100 := by omega
  have hminutes : offset.natAbs % 60 < 60 := by omega
  unfold offsetDigits
  by_cases hneg : offset < 0
  · have hwritten := WrittenOffset.behind _ _ hhours hminutes
    have hoffset : -(60 * ((offset.natAbs / 60 : Nat) : Int) + (offset.natAbs % 60 : Nat)) = offset := by omega
    rw [if_pos hneg]
    rwa [hoffset] at hwritten
  · have hwritten := WrittenOffset.ahead _ _ hhours hminutes
    have hoffset : 60 * ((offset.natAbs / 60 : Nat) : Int) + (offset.natAbs % 60 : Nat) = offset := by omega
    rw [if_neg hneg]
    rwa [hoffset] at hwritten

theorem readDistance_padded {hours minutes : Nat} (hhours : hours < 100) (hminutes : minutes < 60) :
    loose.readDistance (padded 2 hours ++ ':' :: padded 2 minutes) = .ok (60 * hours + minutes, []) := by
  have hdigits := digits_padded 2 minutes
  have hmark : (':' :: padded 2 minutes).dropWhile isDivider = padded 2 minutes := by
    rw [List.dropWhile_cons, if_pos (by decide)]
    exact dropWhile_of_head fun c hc => isDivider_of_isDigit (hdigits.digit c (List.mem_of_mem_head? hc))
  have hpair : readPair (padded 2 minutes) = .ok (minutes, []) := by
    have hread := readPair_padded (n := minutes) (by omega) []
    rwa [List.append_nil] at hread
  simp only [readDistance, Step.andThen_eq_ok_iff]
  refine ⟨hours, _, readPair_padded hhours _, (), padded 2 minutes, ?_, minutes, [], ?_, rfl⟩
  · rw [loose_skipMark, hmark]
  · exact readMinutes_eq_ok_iff.2 (.inl ⟨hpair, hminutes⟩)

namespace WrittenOffset

variable {offset : Int} {digits : List Char}

theorem read (h : WrittenOffset offset digits) : loose.read digits = .ok (offset, []) := by
  cases h with
  | ahead hours minutes hhours hminutes =>
    exact read_eq_ok_iff.2 (.inr ⟨'+', _, _, rfl, .ahead, readDistance_padded hhours hminutes⟩)
  | behind hours minutes hhours hminutes =>
    exact read_eq_ok_iff.2 (.inr ⟨'-', _, _, rfl, .behind, readDistance_padded hhours hminutes⟩)

/-- No field goes on with an offset. -/
theorem clear (h : WrittenOffset offset digits) : Clear digits := by
  cases h <;> rintro c ⟨⟩ <;> decide

end WrittenOffset

/-- **The offset that the clock of a zone has at a time may as well be written behind the time.** -/
theorem readWithOffset_append {zone : Zone} {cs digits : List Char} {s : Stamp}
    (h : readOnClock readPlain zone cs = some s) (hdigits : WrittenOffset s.offset digits) :
    readWithOffset readPlain (cs ++ digits) = .ok s := by
  obtain ⟨reading, second, nano, offset, hformat, -, -, hstamp⟩ := readOnClock_eq_some_iff.1 h
  rw [(offset_of_stamp hstamp).1] at hdigits
  obtain ⟨taken, hcs, htaken⟩ := local_readPlain _ _ _ hformat
  have hclear : Clear [] := by rintro c ⟨⟩
  rw [hcs, List.append_nil]
  refine readWithOffset_eq_ok_iff.2
    ⟨reading, digits, offset, htaken digits (.inr ⟨hclear, hdigits.clear⟩), ?_, hstamp⟩
  rw [trimStart_of_head fun c hc => (hdigits.clear c hc).2.2]
  exact hdigits.read

/-- The zone has this offset at all times. -/
def Zone.IsConstant (zone : Zone) (offset : Int) : Prop := ∀ second, zone.offset? second = some offset

end BackupFleet.Time

namespace BackupFleet.Recovery

open Text Time

/-! ## All texts -/

theorem readTime_eq_ok_iff {zone : Zone} {text : String} {s : Stamp} :
    readTime zone text = .ok s ↔ readTarget zone (trim text.toList) = some s := by
  unfold readTime
  dsimp only
  cases readTarget zone (trim text.toList) <;> simp

/-- **The zone stands for an offset that is missing, and for nothing else.**

    A text that one of the formats with an offset reads, with the blanks around it or without them, is read
    just so in every zone. A text that is read in a zone though it carries no offset has the offset of the
    zone, if that is constant, and in any case it could have been written with its offset behind it: then it
    is the same time with the same offset in every other zone. These are all times: the formats are strict
    RFC 3339 and the plain formats, in this order. -/
theorem zone_stands_for_missing_offset (text : String) :
    (∀ s, CarriesOffset text.toList s ∨ CarriesOffset (trim text.toList) s →
      ∀ zone, readTime zone text = .ok s) ∧
    (∀ zone s, readTime zone text = .ok s → (∀ t, ¬CarriesOffset (trim text.toList) t) →
      (∀ offset, zone.IsConstant offset → s.offset = offset) ∧ WrittenOffset s.offset (offsetDigits s.offset) ∧
      ∀ digits, WrittenOffset s.offset digits → ∀ other,
        readTime other (String.ofList (trim text.toList ++ digits)) = .ok s) ∧
    ∀ zone s, readTime zone text = .ok s ↔ ((readStrict.whole (trim text.toList)).toOption <|>
      readInTurn zone (trim text.toList) plainFormats) = some s := by
  refine ⟨fun s h zone => ?_, fun zone s hread hno => ?_, fun zone s => ?_⟩
  · have htrim : CarriesOffset (trim text.toList) s := h.elim CarriesOffset.trim id
    exact readTime_eq_ok_iff.2 (htrim.readTarget zone)
  · have hclock : readOnClock readPlain zone (trim text.toList) = some s := by
      rw [← readTarget_of_not_carriesOffset hno]
      exact readTime_eq_ok_iff.1 hread
    obtain ⟨reading, second, nano, offset, -, -, hoffset, hstamp⟩ := readOnClock_eq_some_iff.1 hclock
    obtain ⟨hsame, hsmall⟩ := offset_of_stamp hstamp
    refine ⟨fun constant hconstant => ?_, ?_, fun digits hdigits other => ?_⟩
    · rw [hconstant second] at hoffset
      rw [hsame, Option.some.inj hoffset]
    · rw [hsame]
      exact written_offsetDigits hsmall
    · have hcarries := (CarriesOffset.of_plain (readWithOffset_append hclock hdigits)).trim
      refine readTime_eq_ok_iff.2 ?_
      rw [String.toList_ofList]
      exact hcarries.readTarget other
  · rw [readTime_eq_ok_iff, readTarget_eq_readInTurn]

/-- The leap second at the end of February 2024, on a clock five hours and a half ahead. -/
def leapSecond : Stamp := ⟨⟨1709251199, 1250000000, by decide⟩, 330⟩

/-- One-digit hours, a leap second and blanks around the text: on a clock of constant offset, with that
    offset behind it on any clock, and in strict RFC 3339. -/
theorem leap_second_on_any_clock :
    Zone.IsConstant ⟨330, none⟩ 330 ∧ readTime ⟨330, none⟩ "\t2024-03-01 5:29:60.25 " = .ok leapSecond ∧
    leapSecond.offset = 330 ∧ (∀ zone, readTime zone "2024-03-01 5:29:60.25+05:30" = .ok leapSecond) ∧
    ∀ zone, readTime zone "2024-03-01T05:29:60.25+05:30" = .ok leapSecond := by
  have hconstant : Zone.IsConstant ⟨330, none⟩ 330 := fun second => Zone.offset?_constant 330 second
  have hread : readTime ⟨330, none⟩ "\t2024-03-01 5:29:60.25 " = .ok leapSecond :=
    readTime_eq_ok_iff.2 (by decide +kernel)
  have hno : ∀ t, ¬CarriesOffset (trim "\t2024-03-01 5:29:60.25 ".toList) t := by
    have hstrict : (readStrict.whole (trim "\t2024-03-01 5:29:60.25 ".toList)).toOption = none := by
      decide +kernel
    have hplain : (readWithOffset readPlain (trim "\t2024-03-01 5:29:60.25 ".toList)).toOption = none := by
      decide +kernel
    intro t ht
    rcases ht.cases_on_format with h | h
    · rw [toOption_eq_some_iff.2 h] at hstrict
      cases hstrict
    · rw [toOption_eq_some_iff.2 h] at hplain
      cases hplain
  have hcarries : CarriesOffset "2024-03-01T05:29:60.25+05:30".toList leapSecond :=
    .strict (toOption_eq_some_iff.1 (by decide +kernel))
  obtain ⟨-, hmissing, -⟩ := zone_stands_for_missing_offset "\t2024-03-01 5:29:60.25 "
  obtain ⟨hsame, hwritten, hany⟩ := hmissing _ _ hread hno
  exact ⟨hconstant, hread, hsame 330 hconstant, hany _ hwritten,
    (zone_stands_for_missing_offset "2024-03-01T05:29:60.25+05:30").1 _ (.inl hcarries)⟩

end BackupFleet.Recovery
