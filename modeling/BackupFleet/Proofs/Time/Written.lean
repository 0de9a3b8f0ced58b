import BackupFleet.Proofs.Time.Calendar
import BackupFleet.Proofs.Time.Numeral

/-!
# `BackupFleet.Proofs.Time.Written` — stored times are read back

A moment is stored as its fields in UTC, with a `Z` after them. The reader of stored times takes the same
fields off the text, and the fields of a moment denote the moment, leap seconds included.

## Contents

* `Clock.Shown`, `Moment.shown_clock` — the fields that a clock shows;
* `readYear_yearDigits`, `readFraction_fraction`, `readTimeOf_shown` — the fields, read back;
* `readStored_rfc3339` — the main statement;
* `Moment.length_rfc3339_le`, `Moment.length_compact_le` — how long the written forms are;
* `Moment.mem_compact` — the characters of an id.
-/

namespace BackupFleet.Time

open Text

/-! ## The fields of a moment -/

/-- The fields are those that a clock can show, in a year that can be written. -/
structure Clock.Shown (c : Clock) : Prop where
  date : c.date.Valid
  year : -262143 ≤ c.date.year ∧ c.date.year ≤ 262142
  hour : c.hour ≤ 23
  minute : c.minute ≤ 59
  second : c.second ≤ 60
  nano : c.nano < nanosPerSecond

/-- The years of the days that moments lie in. -/
theorem year_dateOf {n : Int} (hlow : dayOf ⟨-262143, 1, 1⟩ ≤ n) (hhigh : n ≤ dayOf ⟨262142, 12, 31⟩) :
    -262143 ≤ (dateOf n).year ∧ (dateOf n).year ≤ 262142 := by
  obtain ⟨p, hn, hdate⟩ := exists_position n
  have hfirst : dayOf ⟨-262143, 1, 1⟩ = -96465292 := by decide
  have hlast : dayOf ⟨262142, 12, 31⟩ = 95026236 := by decide
  have hc := p.century_le
  have hs := p.span_le
  have hy := p.year_le
  have hd := p.day_le
  rw [hfirst] at hlow
  rw [hlast] at hhigh
  rw [hdate]
  unfold Position.count epochOffset at hn
  dsimp only
  unfold Position.marchYear Position.marchMonth
  split
  · omega
  · -- Only the last year of all is close to its bound, so its place in its period is known.
    refine ⟨by omega, ?_⟩
    by_cases hover : 262142 ≤ p.period * 400 + (100 * p.century + 4 * p.span + p.year : Nat)
    · have hperiod : p.period = 655 := by omega
      have hcentury : p.century = 1 := by omega
      have hspan : p.span = 10 := by omega
      omega
    · omega

theorem Moment.shown_clock (m : Moment) : m.clock.Shown := by
  obtain ⟨second, nano, hfirst, hlast, hnano⟩ := m
  unfold firstSecond at hfirst
  unfold lastSecond at hlast
  have hlow : dayOf ⟨-262143, 1, 1⟩ ≤ second / 86400 := by omega
  have hhigh : second / 86400 ≤ dayOf ⟨262142, 12, 31⟩ := by omega
  refine ⟨dateOf_valid _, year_dateOf hlow hhigh, ?_, ?_, ?_, Nat.mod_lt _ (by decide)⟩
  · show (second % 86400).toNat / 3600 ≤ 23
    omega
  · show (second % 86400).toNat / 60 % 60 ≤ 59
    omega
  · show (second % 86400).toNat % 60 + nano / nanosPerSecond ≤ 60
    unfold nanosPerSecond at hnano ⊢
    omega

/-- The reading with the fields of a clock. -/
def Clock.reading (c : Clock) : Reading := ⟨c.date, c.hour, c.minute, c.second, c.nano⟩

/-- **The fields of a moment denote the moment.** A part of a second from 10⁹ on is shown as the 60th
    second. -/
theorem Moment.stamp_clock (m : Moment) : m.clock.reading.stamp 0 = .ok ⟨m, 0⟩ := by
  have hshown := m.shown_clock
  obtain ⟨second, nano, hm⟩ := m
  have hday : dayOf (dateOf (second / 86400)) = second / 86400 := dayOf_dateOf _
  have hlocal : (Moment.clock ⟨second, nano, hm⟩).reading.localSecond = .ok (second, nano) := by
    unfold Reading.localSecond
    rw [if_pos ⟨hshown.date, hshown.year.1, hshown.year.2⟩]
    unfold Clock.reading Moment.clock Clock.ofSecond
    dsimp only
    rw [hday]
    obtain ⟨-, -, hnano⟩ := hm
    unfold nanosPerSecond at hnano ⊢
    by_cases hleap : (second % 86400).toNat % 60 + nano / 1000000000 = 60
    · rw [if_pos hleap, if_pos hleap]
      congr 2 <;> omega
    · rw [if_neg hleap, if_neg hleap]
      congr 2 <;> omega
  unfold Reading.stamp
  rw [hlocal]
  simp only [bind, Except.bind]
  rw [if_pos (by decide)]
  unfold stampAt Moment.ofSecond?
  have hsame : second - 60 * 0 = second := by omega
  rw [hsame, dif_pos hm]

/-! ## The fields, read back -/

/-- Years with at most six digits. -/
theorem natAbs_lt {year : Int} (hlow : -262143 ≤ year) (hhigh : year ≤ 262142) :
    year.natAbs < 10 ^ 6 := by
  omega

theorem readYear_minus {cs rest : List Char} {n : Nat} {year : Int}
    (hread : readNumeral none cs = .ok (n, rest)) (hyear : yearWithin (-n) = .ok year) :
    readYear ('-' :: cs) = .ok (year, rest) := by
  unfold readYear
  rw [trimStart_cons_of_not_blank _ (by decide)]
  split
  · rename_i r hr
    rw [← (List.cons.inj hr).2, hread]
    simp only [bind, Except.bind, hyear, pure, Except.pure]
  · rename_i r hr
    exact absurd (List.cons.inj hr).1 (by decide)
  · rename_i hminus hplus
    exact absurd rfl (hminus cs)

theorem readYear_plus {cs rest : List Char} {n : Nat} {year : Int}
    (hread : readNumeral none cs = .ok (n, rest)) (hyear : yearWithin n = .ok year) :
    readYear ('+' :: cs) = .ok (year, rest) := by
  unfold readYear
  rw [trimStart_cons_of_not_blank _ (by decide)]
  split
  · rename_i r hr
    exact absurd (List.cons.inj hr).1 (by decide)
  · rename_i r hr
    rw [← (List.cons.inj hr).2, hread]
    simp only [bind, Except.bind, hyear, pure, Except.pure]
  · rename_i hminus hplus
    exact absurd rfl (hplus cs)

/-- **A year is read back**, with its sign if it has one. -/
theorem readYear_yearDigits {year : Int} (hlow : -262143 ≤ year) (hhigh : year ≤ 262142)
    {rest : List Char} (hstop : ∀ c, rest.head? = some c → c.isDigit = false) :
    readYear (yearDigits year ++ rest) = .ok (year, rest) := by
  have hbound := natAbs_lt hlow hhigh
  have hsmall : year.natAbs < bound63 := by
    simp only [bound63]
    omega
  have hany : readNumeral none (padded 4 year.natAbs ++ rest) = .ok (year.natAbs, rest) := by
    have hread := readNumeral_digits none rest (digits_padded 4 year.natAbs)
      (by rwa [value_padded]) (.inr ⟨fun w hw => (by cases hw), hstop⟩)
    rwa [value_padded] at hread
  have hwithin : ∀ y : Int, y = year → yearWithin y = .ok year := by
    rintro y rfl
    unfold yearWithin
    rw [if_pos (by omega)]
  unfold yearDigits
  by_cases hneg : year < 0
  · rw [if_pos hneg, List.cons_append]
    exact readYear_minus hany (hwithin _ (by omega))
  · rw [if_neg hneg]
    by_cases hlong : 9999 < year
    · rw [if_pos hlong, List.cons_append]
      exact readYear_plus hany (hwithin _ (by omega))
    · unfold readYear
      -- A digit comes first, so this is none of the signed forms.
      have hdigits := digits_padded 4 year.natAbs
      have hfirst : ∀ c r, padded 4 year.natAbs ++ rest = c :: r → c.isDigit = true := by
        intro c r he
        obtain ⟨d, ds, hd⟩ := List.exists_cons_of_ne_nil hdigits.ne_nil
        rw [hd, List.cons_append] at he
        rw [← (List.cons.inj he).1]
        exact hdigits.digit d (by rw [hd]; exact List.mem_cons_self)
      rw [if_neg hlong, trimStart_digits hdigits]
      split
      · rename_i r he
        have := hfirst _ _ he
        simp [Char.isDigit] at this
      · rename_i r he
        have := hfirst _ _ he
        simp [Char.isDigit] at this
      · rw [readNumeral_padded (by decide) (by omega) hsmall]
        simp only [bind, Except.bind]
        rw [hwithin _ (by omega)]
        rfl

/-- **The part of a second is read back**, however many digits it has. -/
theorem readFraction_fraction {nano : Nat} (h : nano < nanosPerSecond) (rest : List Char) :
    readFraction (fraction nano ++ 'Z' :: rest) = .ok (nano, 'Z' :: rest) := by
  have hgroup : ∀ width n, 0 < width → width ≤ 9 → n < 10 ^ width →
      n * Nat.pow 10 (9 - width) = nano →
      readFraction ('.' :: padded width n ++ 'Z' :: rest) = .ok (nano, 'Z' :: rest) := by
    intro width n hpos hwidth hn hnano
    have hlength := length_padded hpos hn
    have hn9 : n < 10 ^ 9 := Nat.lt_of_lt_of_le hn (Nat.pow_le_pow_right (by decide) hwidth)
    have hread := readNumeral_digits (some 9) ('Z' :: rest) (digits_padded width n)
      (by rw [value_padded]; simp only [bound63]; omega)
      (.inr ⟨fun w hw => by cases hw; omega, fun c hc => by cases hc; rfl⟩)
    rw [value_padded] at hread
    unfold readFraction
    rw [List.cons_append]
    split
    · rename_i r he
      obtain rfl := (List.cons.inj he).2
      rw [hread]
      simp only [bind, Except.bind, List.length_append, hlength, Nat.add_sub_cancel]
      rw [hnano]
      rfl
    · rename_i hno
      exact absurd rfl (hno _)
  unfold nanosPerSecond at h
  unfold fraction
  split
  · rename_i h0
    rw [h0]
    rfl
  split
  · exact hgroup 3 _ (by decide) (by decide) (by omega) (by show _ * 1000000 = nano; omega)
  split
  · exact hgroup 6 _ (by decide) (by decide) (by omega) (by show _ * 1000 = nano; omega)
  · exact hgroup 9 _ (by decide) (by decide) (by omega) (by show _ * 1 = nano; omega)

/-- No blank stands before a mark. -/
theorem trimStart_mark {mark : Char} (h : isBlank mark = false) (rest : List Char) :
    trimStart (mark :: rest) = mark :: rest := trimStart_cons_of_not_blank rest h

theorem daysInMonth_le (year : Int) (month : Nat) : daysInMonth year month ≤ 31 := by
  unfold daysInMonth
  split
  · split <;> omega
  all_goals omega

/-- The date of a clock is read back. -/
theorem readDate_shown {c : Clock} (h : c.Shown) (rest : List Char) :
    readDate true (yearDigits c.date.year ++ '-' :: padded 2 c.date.month ++ '-' ::
      padded 2 c.date.day ++ rest) = .ok (c.date, rest) := by
  obtain ⟨hm1, hm12, hd1, hd⟩ := h.date
  have hd31 := Nat.le_trans hd (daysInMonth_le _ _)
  unfold readDate
  simp only [List.append_assoc, List.cons_append]
  rw [readYear_yearDigits h.year.1 h.year.2 (by rintro c ⟨⟩; rfl)]
  simp only [bind, Except.bind, if_true]
  rw [trimStart_mark (by decide), expect_mark]
  simp only []
  rw [readField_padded hm1 hm12 (by omega)]
  simp only []
  rw [trimStart_mark (by decide), expect_mark]
  simp only []
  rw [readField_padded hd1 hd31 (by omega)]
  rfl

/-- The time of day of a clock is read back. -/
theorem readTimeOf_shown {c : Clock} (h : c.Shown) (rest : List Char) :
    readTimeOf c.date true (padded 2 c.hour ++ ':' :: padded 2 c.minute ++ ':' :: padded 2 c.second ++
      fraction c.nano ++ 'Z' :: rest) = .ok (c.reading, 'Z' :: rest) := by
  have hhour := h.hour
  have hminute := h.minute
  have hsecond := h.second
  unfold readTimeOf
  simp only [List.append_assoc, List.cons_append]
  rw [readField_padded (Nat.zero_le _) hhour (by omega)]
  simp only [bind, Except.bind, if_true]
  rw [trimStart_mark (by decide), expect_mark]
  simp only []
  rw [readField_padded (Nat.zero_le _) hminute (by omega)]
  simp only []
  rw [trimStart_mark (by decide), expect_mark]
  simp only []
  rw [readField_padded (Nat.zero_le _) hsecond (by omega)]
  simp only []
  rw [readFraction_fraction h.nano]
  rfl

/-- **A stored time is read back.** -/
theorem readStored_rfc3339 (m : Moment) : readStored m.rfc3339 = .ok m := by
  have hshown := m.shown_clock
  have hread : readRelaxed m.rfc3339 = .ok (⟨m, 0⟩, []) := by
    have hform : m.rfc3339 = yearDigits m.clock.date.year ++ '-' :: padded 2 m.clock.date.month ++ '-' ::
        padded 2 m.clock.date.day ++ ('T' :: (padded 2 m.clock.hour ++ ':' :: padded 2 m.clock.minute ++
          ':' :: padded 2 m.clock.second ++ fraction m.clock.nano ++ 'Z' :: [])) := by
      unfold Moment.rfc3339 Clock.rfc3339
      simp only [List.append_assoc, List.cons_append]
    unfold readRelaxed
    rw [hform, readDate_shown hshown]
    simp only [bind, Except.bind]
    have hjoint : ∀ r, readJoint ('T' :: r) = .ok ((), r) := fun _ => rfl
    rw [hjoint]
    simp only []
    rw [readTimeOf_shown hshown]
    simp only []
    have hutc : afterUtc (trimStart ['Z']) = none := rfl
    have hoffset : OffsetForm.read ⟨true, false⟩ (trimStart ['Z']) = .ok (0, []) := rfl
    rw [hutc]
    simp only []
    rw [hoffset]
    simp only [trimStart_nil, if_true]
    rw [m.stamp_clock]
    rfl
  unfold readStored Step.whole
  rw [hread]
  rfl

/-! ## Lengths -/

theorem length_yearDigits_le {year : Int} (hlow : -262143 ≤ year) (hhigh : year ≤ 262142) :
    (yearDigits year).length ≤ 7 := by
  have hpadded := length_padded_le 4 (by decide) (by decide) (natAbs_lt hlow hhigh)
  unfold yearDigits
  split
  · rw [List.length_cons]
    omega
  · split
    · rw [List.length_cons]
      omega
    · omega

theorem length_fraction_le {nano : Nat} (h : nano < nanosPerSecond) : (fraction nano).length ≤ 10 := by
  unfold nanosPerSecond at h
  have hgroup : ∀ width n, 0 < width → width ≤ 9 → n < 10 ^ width →
      ('.' :: padded width n).length ≤ 10 := by
    intro width n hpos hwidth hn
    rw [List.length_cons, length_padded hpos hn]
    omega
  unfold fraction
  split
  · decide
  split
  · exact hgroup 3 _ (by decide) (by decide) (by omega)
  split
  · exact hgroup 6 _ (by decide) (by decide) (by omega)
  · exact hgroup 9 _ (by decide) (by decide) (by omega)

/-- The lengths of the fields of a clock. -/
theorem Clock.Shown.length_padded {c : Clock} (h : c.Shown) :
    (padded 2 c.date.month).length = 2 ∧ (padded 2 c.date.day).length = 2 ∧
      (padded 2 c.hour).length = 2 ∧ (padded 2 c.minute).length = 2 ∧ (padded 2 c.second).length = 2 := by
  obtain ⟨⟨-, hmonth, -, hday⟩, -, hhour, hminute, hsecond, -⟩ := h
  have hday31 := Nat.le_trans hday (daysInMonth_le _ _)
  have htwo : ∀ n, n < 100 → (padded 2 n).length = 2 := fun n hn => Time.length_padded (by decide) hn
  exact ⟨htwo _ (by omega), htwo _ (by omega), htwo _ (by omega), htwo _ (by omega), htwo _ (by omega)⟩

/-- A stored time is short. -/
theorem Moment.length_rfc3339_le (m : Moment) : m.rfc3339.length ≤ 33 := by
  have hshown := m.shown_clock
  obtain ⟨hmonth, hday, hhour, hminute, hsecond⟩ := hshown.length_padded
  have hyear := length_yearDigits_le hshown.year.1 hshown.year.2
  have hfraction := length_fraction_le hshown.nano
  unfold Moment.rfc3339 Clock.rfc3339
  simp only [List.length_append, List.length_cons, List.length_nil, hmonth, hday, hhour, hminute, hsecond]
  omega

/-- An id is short. -/
theorem Moment.length_compact_le (m : Moment) : m.compact.length ≤ 18 := by
  have hshown := m.shown_clock
  obtain ⟨hmonth, hday, hhour, hminute, hsecond⟩ := hshown.length_padded
  have hyear := length_yearDigits_le hshown.year.1 hshown.year.2
  unfold Moment.compact
  simp only [List.length_append, List.length_cons, hmonth, hday, hhour, hminute, hsecond]
  omega

/-! ## Ids -/

/-- The characters of a year. -/
theorem mem_yearDigits {year : Int} {c : Char} (h : c ∈ yearDigits year) :
    c.isDigit = true ∨ c = '-' ∨ c = '+' := by
  have hdigit := (digits_padded 4 year.natAbs).digit
  unfold yearDigits at h
  split at h
  · rcases List.mem_cons.1 h with h | h
    · exact .inr (.inl h)
    · exact .inl (hdigit c h)
  split at h
  · rcases List.mem_cons.1 h with h | h
    · exact .inr (.inr h)
    · exact .inl (hdigit c h)
  · exact .inl (hdigit c h)

/-- The characters of an id. -/
theorem Moment.mem_compact {m : Moment} {c : Char} (h : c ∈ m.compact) :
    c.isDigit = true ∨ c = '-' ∨ c = '+' ∨ c = 'T' := by
  have hdigit : ∀ n, c ∈ padded 2 n → c.isDigit = true := fun n => (digits_padded 2 n).digit c
  unfold Moment.compact at h
  simp only [List.mem_append, List.mem_cons] at h
  rcases h with ((((h | h) | h) | h | h) | h) | h
  · rcases mem_yearDigits h with h | h | h
    · exact .inl h
    · exact .inr (.inl h)
    · exact .inr (.inr (.inl h))
  · exact .inl (hdigit _ h)
  · exact .inl (hdigit _ h)
  · exact .inr (.inr (.inr h))
  all_goals exact .inl (hdigit _ h)

/-- No other character is in an id. -/
theorem Moment.not_mem_compact (m : Moment) {c : Char} (hdigit : c.isDigit = false)
    (hother : c ≠ '-' ∧ c ≠ '+' ∧ c ≠ 'T') : c ∉ m.compact := by
  intro hc
  rcases mem_compact hc with h | h | h | h
  · rw [hdigit] at h
    cases h
  · exact hother.1 h
  · exact hother.2.1 h
  · exact hother.2.2 h

theorem Moment.mark_mem_compact (m : Moment) : 'T' ∈ m.compact := by
  unfold compact
  simp

end BackupFleet.Time
