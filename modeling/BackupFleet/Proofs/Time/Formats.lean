import BackupFleet.Proofs.Time.Step

/-!
# `BackupFleet.Proofs.Time.Formats` — the formats of a time to stop at

Strict RFC 3339 and the plain formats are sequences of steps, and every step is local, so no format looks
further than one character behind what it takes. The formats are not disjoint: `2024-03-01 12:30:00Z` has the
plain format, and it is also strict RFC 3339 with a blank for the `T`. Where a text has two formats, it has
the same fields in both.

Main statement: `readPlain_of_strictFields` — strict RFC 3339 and the plain format agree.

## Contents

* `readPlainDate`, `readPlainTime`, `readCoarse`, `readStrictFields` — the formats as sequences of steps;
* `readPlain_eq`, `readStrict_eq` — the formats put together from them;
* `local_readPlain`, `local_readStrictFields`, `readPlain_trimStart` — what they look at;
* `readField_of_readFixed`, `readYear_of_readExact` — full fields where fields may be short;
* `readPlain_of_strictFields`, `readPlain_of_readCoarse` — texts that have two formats.
-/

namespace BackupFleet.Time

open Text

/-! ## The formats as sequences of steps -/

/-- The date of the plain formats. -/
def readPlainDate : Step Date :=
  readYear.andThen fun year => (expect '-').andThen fun _ => (readField 1 12).andThen fun month =>
    (expect '-').andThen fun _ => (readField 1 31).andThen fun day => Step.give ⟨year, month, day⟩

/-- The time of the plain formats, to the second. -/
def readPlainTime (date : Date) : Step Reading :=
  (readField 0 23).andThen fun hour => (expect ':').andThen fun _ => (readField 0 59).andThen fun minute =>
    (expect ':').andThen fun _ => (readField 0 60).andThen fun second =>
      Step.give ⟨date, hour, minute, second, 0⟩

/-- The plain format without a part of a second. -/
def readCoarse : Step Reading :=
  readPlainDate.andThen fun date => skipBlanks.andThen fun _ => readPlainTime date

theorem readTimeOf_eq (date : Date) : readTimeOf date false = (readPlainTime date).andThen fun reading =>
    readFraction.andThen fun nano => Step.give { reading with nano } := by
  simp only [readPlainTime, Step.andThen_assoc]
  rfl

theorem readPlain_eq : readPlain = readCoarse.andThen fun reading =>
    readFraction.andThen fun nano => Step.give { reading with nano } := by
  simp only [readCoarse, Step.andThen_assoc, ← readTimeOf_eq]
  rfl

/-- The fields of strict RFC 3339 before the offset. -/
def readStrictFields : Step Reading :=
  (readExact 4).andThen fun year => (expect '-').andThen fun _ => (readFixed 1 12).andThen fun month =>
    (expect '-').andThen fun _ => (readFixed 1 31).andThen fun day => readJoint.andThen fun _ =>
      (readFixed 0 23).andThen fun hour => (expect ':').andThen fun _ => (readFixed 0 59).andThen fun minute =>
        (expect ':').andThen fun _ => (readFixed 0 60).andThen fun second => readFraction.andThen fun nano =>
          Step.give ⟨⟨year, month, day⟩, hour, minute, second, nano⟩

theorem readStrict_eq : readStrict = readStrictFields.andThen fun reading =>
    (OffsetForm.read ⟨false, false⟩).andThen fun offset => Step.check (reading.stamp offset) := by
  simp only [readStrictFields, Step.andThen_assoc, Step.check_eq]
  rfl

/-! ## No format looks far -/

theorem local_readPlainDate : readPlainDate.Local :=
  local_readYear.andThen fun _ => (local_expect _).andThen fun _ => (local_readField _ _).andThen fun _ =>
    (local_expect _).andThen fun _ => (local_readField _ _).andThen fun _ => Step.local_give _

theorem local_readPlainTime (date : Date) : (readPlainTime date).Local :=
  (local_readField _ _).andThen fun _ => (local_expect _).andThen fun _ => (local_readField _ _).andThen fun _ =>
    (local_expect _).andThen fun _ => (local_readField _ _).andThen fun _ => Step.local_give _

theorem local_readPlain : readPlain.Local := by
  rw [readPlain_eq]
  exact (local_readPlainDate.andThen fun _ => local_skipBlanks.andThen fun _ => local_readPlainTime _).andThen
    fun _ => local_readFraction.andThen fun _ => Step.local_give _

theorem local_readStrictFields : readStrictFields.Local :=
  (local_readExact (by decide)).andThen fun _ => (local_expect _).andThen fun _ =>
    (local_readFixed _ _).andThen fun _ => (local_expect _).andThen fun _ =>
      (local_readFixed _ _).andThen fun _ => local_readJoint.andThen fun _ =>
        (local_readFixed _ _).andThen fun _ => (local_expect _).andThen fun _ =>
          (local_readFixed _ _).andThen fun _ => (local_expect _).andThen fun _ =>
            (local_readFixed _ _).andThen fun _ => local_readFraction.andThen fun _ => Step.local_give _

/-- The plain formats leave out the blanks before the year. -/
theorem readPlain_trimStart (cs : List Char) : readPlain (trimStart cs) = readPlain cs := by
  have hskip : trimStart (trimStart cs) = trimStart cs := trimStart_of_head fun c => head?_trimStart
  simp only [readPlain_eq, readCoarse, readPlainDate, readYear_eq, Step.andThen_assoc]
  unfold Step.andThen skipBlanks
  rw [hskip]

/-! ## A text that two formats take -/

/-- What has a full width may also be read as a field that need not have it. -/
theorem readNumeral_of_readExact {width : Nat} (hw : 0 < width) {cs rest : List Char} {n : Nat}
    (h : readExact width cs = .ok (n, rest)) : readNumeral (some width) cs = .ok (n, rest) := by
  obtain ⟨ds, rfl, hd, rfl, hn⟩ := (readExact_eq_ok_iff hw).1 h
  exact (readNumeral_eq_ok_iff (by simpa using Nat.ne_of_gt hw)).2 ⟨ds, rfl, hd, .inl rfl, hn⟩

theorem exists_digit_of_readExact {width : Nat} (hw : 0 < width) {cs rest : List Char} {n : Nat}
    (h : readExact width cs = .ok (n, rest)) : ∃ c r, cs = c :: r ∧ c.isDigit = true :=
  exists_digit_of_readNumeral (by simpa using Nat.ne_of_gt hw) (readNumeral_of_readExact hw h)

theorem trimStart_of_readExact {width : Nat} (hw : 0 < width) {cs rest : List Char} {n : Nat}
    (h : readExact width cs = .ok (n, rest)) : trimStart cs = cs := by
  obtain ⟨c, r, rfl, hc⟩ := exists_digit_of_readExact hw h
  exact trimStart_cons_of_not_blank r (isBlank_of_isDigit hc)

theorem readField_of_readFixed {low high : Nat} {cs rest : List Char} {n : Nat}
    (h : readFixed low high cs = .ok (n, rest)) : readField low high cs = .ok (n, rest) := by
  rw [readFixed_eq] at h
  obtain ⟨value, mid, hexact, hcheck⟩ := Step.andThen_eq_ok_iff.1 h
  rw [readField_eq]
  refine Step.andThen_eq_ok_iff.2 ⟨(), cs, ?_, Step.andThen_eq_ok_iff.2 ⟨value, mid, ?_, hcheck⟩⟩
  · unfold skipBlanks
    rw [trimStart_of_readExact (by decide) hexact]
  · exact readNumeral_of_readExact (by decide) hexact

theorem ofDigitChars_lt {ds : List Char} (h : ∀ c ∈ ds, c.isDigit = true) (acc : Nat) :
    Nat.ofDigitChars 10 ds acc < (acc + 1) * 10 ^ ds.length := by
  induction ds generalizing acc with
  | nil => simp
  | cons d r ih =>
    obtain ⟨hd, hr⟩ := List.forall_mem_cons.1 h
    obtain ⟨h0, h9⟩ := toNat_of_isDigit hd
    have hzero : '0'.toNat = 48 := rfl
    rw [Nat.ofDigitChars_cons, List.length_cons, Nat.pow_succ]
    calc Nat.ofDigitChars 10 r (10 * acc + (d.toNat - '0'.toNat))
        < (10 * acc + (d.toNat - '0'.toNat) + 1) * 10 ^ r.length := ih hr _
      _ ≤ ((acc + 1) * 10) * 10 ^ r.length := Nat.mul_le_mul_right _ (by omega)
      _ = (acc + 1) * (10 ^ r.length * 10) := by rw [Nat.mul_assoc, Nat.mul_comm 10]

/-- Four digits are a year without a sign. -/
theorem readYear_of_readExact {cs rest : List Char} {year : Nat} (h : readExact 4 cs = .ok (year, rest)) :
    readYear cs = .ok ((year : Int), rest) := by
  have hsmall : (year : Int) ≤ 2147483647 := by
    obtain ⟨ds, -, hd, hlength, hvalue, -⟩ := (readExact_eq_ok_iff (by decide)).1 h
    have hlt := ofDigitChars_lt hd.digit 0
    rw [hlength, ← hvalue] at hlt
    omega
  have hwithin : yearWithin year = .ok (year : Int) := by
    unfold yearWithin
    rw [if_pos ⟨by omega, hsmall⟩]
  obtain ⟨c, r, hcs, hc⟩ := exists_digit_of_readExact (by decide) h
  rw [readYear_eq]
  refine Step.andThen_eq_ok_iff.2 ⟨(), cs, ?_, ?_⟩
  · unfold skipBlanks
    rw [trimStart_of_readExact (by decide) h]
  · rw [hcs, readSigned_of_digit hc, ← hcs]
    exact Step.andThen_eq_ok_iff.2 ⟨year, rest, readNumeral_of_readExact (by decide) h,
      Step.check_eq_ok_iff.2 ⟨hwithin, rfl⟩⟩

/-- Between date and time, the plain formats take the blank of strict RFC 3339, and none of its letters. -/
theorem trimStart_of_readJoint {cs rest : List Char} (h : readJoint cs = .ok ((), rest)) :
    cs = ' ' :: rest ∨ ∃ c, c.isDigit = false ∧ trimStart cs = c :: rest := by
  unfold readJoint at h
  split at h
  · cases h
  · cases h
    exact .inr ⟨'t', by decide, trimStart_cons_of_not_blank _ (by decide)⟩
  · cases h
    exact .inr ⟨'T', by decide, trimStart_cons_of_not_blank _ (by decide)⟩
  · cases h
    exact .inl rfl
  · cases h

theorem readField_ne_ok {low high n : Nat} {cs rest : List Char} {c : Char} (hc : c.isDigit = false)
    (hcs : trimStart cs = c :: rest) {left : List Char} : readField low high cs ≠ .ok (n, left) := by
  intro h
  rw [readField_eq] at h
  obtain ⟨_, mid, hskip, hrest⟩ := Step.andThen_eq_ok_iff.1 h
  obtain rfl : trimStart cs = mid := congrArg Prod.snd (Except.ok.inj hskip)
  obtain ⟨value, _, hnumeral, -⟩ := Step.andThen_eq_ok_iff.1 hrest
  obtain ⟨d, r, hd, hdigit⟩ := exists_digit_of_readNumeral (by simp) hnumeral
  rw [hcs] at hd
  rw [(List.cons.inj hd).1, hdigit] at hc
  cases hc

/-- **A text with the fields of strict RFC 3339 has the same fields in the plain format**, if it has that
    format. -/
theorem readPlain_of_strictFields {cs rest : List Char} {reading : Reading}
    (h : readStrictFields cs = .ok (reading, rest)) {p : Reading × List Char} (hp : readPlain cs = .ok p) :
    p = (reading, rest) := by
  simp only [readStrictFields, Step.andThen_eq_ok_iff] at h
  obtain ⟨year, _, hyear, _, _, hmark, month, _, hmonth, _, _, hmark', day, mid, hday, _, afterJoint, hjoint,
    hour, _, hhour, _, _, hcolon, minute, _, hminute, _, _, hcolon', second, afterSecond, hsecond,
    nano, left, hnano, hgive⟩ := h
  cases hgive
  have hdate : readPlainDate cs = .ok (⟨year, month, day⟩, mid) := by
    simp only [readPlainDate, Step.andThen_eq_ok_iff]
    exact ⟨_, _, readYear_of_readExact hyear, (), _, hmark, _, _, readField_of_readFixed hmonth, (), _, hmark',
      _, _, readField_of_readFixed hday, rfl⟩
  have hcoarse : readCoarse cs = readPlainTime ⟨year, month, day⟩ (trimStart mid) := Step.andThen_of_ok hdate
  rcases trimStart_of_readJoint hjoint with rfl | ⟨c, hc, hmid⟩
  · have hfront : trimStart (' ' :: afterJoint) = afterJoint := by
      rw [readFixed_eq] at hhour
      obtain ⟨_, _, hexact, -⟩ := Step.andThen_eq_ok_iff.1 hhour
      exact trimStart_of_readExact (by decide) hexact
    have htime : readCoarse cs = .ok (⟨⟨year, month, day⟩, hour, minute, second, 0⟩, afterSecond) := by
      rw [hcoarse, hfront]
      simp only [readPlainTime, Step.andThen_eq_ok_iff]
      exact ⟨_, _, readField_of_readFixed hhour, (), _, hcolon, _, _, readField_of_readFixed hminute, (), _,
        hcolon', _, _, readField_of_readFixed hsecond, rfl⟩
    rw [readPlain_eq, Step.andThen_of_ok htime, Step.andThen_of_ok hnano] at hp
    cases hp
    rfl
  · obtain ⟨left', reading'⟩ := p
    rw [readPlain_eq] at hp
    obtain ⟨_, _, htime, -⟩ := Step.andThen_eq_ok_iff.1 hp
    rw [hcoarse, readPlainTime] at htime
    obtain ⟨_, _, hfield, -⟩ := Step.andThen_eq_ok_iff.1 htime
    have hletter : trimStart (trimStart mid) = c :: afterJoint := by
      rw [trimStart_of_head fun c => head?_trimStart, hmid]
    exact absurd hfield (readField_ne_ok hc hletter)

/-- Where no point follows, the part of a second may as well be left out. -/
theorem readPlain_of_readCoarse {cs rest : List Char} {reading : Reading}
    (h : readCoarse cs = .ok (reading, rest)) (hpoint : ∀ c, rest.head? = some c → c ≠ '.') :
    readPlain cs = .ok (reading, rest) := by
  have hnano : reading.nano = 0 := by
    simp only [readCoarse, readPlainTime, Step.andThen_eq_ok_iff] at h
    obtain ⟨_, _, -, -, _, -, _, _, -, -, _, -, _, _, -, -, _, -, _, _, -, hgive⟩ := h
    cases hgive
    rfl
  rw [readPlain_eq, Step.andThen_of_ok h, Step.andThen_of_ok (readFraction_of_no_point hpoint), ← hnano]
  rfl

end BackupFleet.Time
