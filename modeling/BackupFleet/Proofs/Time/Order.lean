import Mathlib.Data.String.Basic
import BackupFleet.Proofs.Time.Written

/-!
# `BackupFleet.Proofs.Time.Order` — a later moment has a later id

The order in which backups were made is stored nowhere: it is the order of their ids as texts. So the
written form of a later second has to come later in the order of texts. The calendar gives a later day a
later date, and numerals of one width are in the order of their numbers.

## Contents

* `Date.Before`, `dayOf_lt_dayOf`, `dateOf_before_of_lt` — dates in the order of their days;
* `append_lt_append`, `lt_of_value_lt`, `padded_append_lt` — texts in the order of their numbers;
* `Moment.HasPlainYear`, `Moment.compact_lt_compact`, `Moment.compact_le_compact` — ids in the order of
  time.
-/

namespace BackupFleet.Time

open Text

/-! ## Dates -/

namespace Date

/-- The first field in which the dates differ is less. -/
def Before (a b : Date) : Prop :=
  a.year < b.year ∨ a.year = b.year ∧ (a.month < b.month ∨ a.month = b.month ∧ a.day < b.day)

/-- Of two different dates, one is before the other. -/
theorem before_or_before {a b : Date} (h : a ≠ b) : a.Before b ∨ b.Before a := by
  obtain ⟨y, m, d⟩ := a
  obtain ⟨y', m', d'⟩ := b
  have hne : ¬(y = y' ∧ m = m' ∧ d = d') := by
    rintro ⟨rfl, rfl, rfl⟩
    exact h rfl
  unfold Before
  dsimp only
  omega

/-- The year that began in the March before the date. -/
def marchYear (d : Date) : Int := if d.month ≤ 2 then d.year - 1 else d.year

/-- The month, 0 for March. -/
def marchMonth (d : Date) : Nat := (d.month + 9) % 12

theorem dayOf_eq (d : Date) : dayOf d
    = daysBeforeYear d.marchYear + (daysBeforeMonth d.marchMonth : Nat) + d.day - 1 - epochOffset := rfl

variable {a b d : Date}

/-- The order of dates is the same for years that start in March. -/
theorem Before.march (ha : a.Valid) (hb : b.Valid) (h : a.Before b) :
    a.marchYear < b.marchYear ∨ a.marchYear = b.marchYear ∧
      (a.marchMonth < b.marchMonth ∨ a.marchMonth = b.marchMonth ∧ a.day < b.day) := by
  obtain ⟨ha1, ha12, -, -⟩ := ha
  obtain ⟨hb1, hb12, -, -⟩ := hb
  unfold Before at h
  unfold marchYear marchMonth
  split <;> split <;> omega

/-- A date comes before the first of the next month. -/
theorem day_le_of_marchMonth (h : d.Valid) (hm : d.marchMonth < 11) :
    daysBeforeMonth d.marchMonth + d.day ≤ daysBeforeMonth (d.marchMonth + 1) := by
  obtain ⟨hfirst, hlast, -, hday⟩ := h
  have hmonth : (if d.marchMonth < 10 then d.marchMonth + 3 else d.marchMonth - 9) = d.month := by
    unfold marchMonth at hm ⊢
    split <;> omega
  rw [daysBeforeMonth_succ hm d.year, hmonth]
  omega

/-- The months of a year are in order. -/
theorem daysBeforeMonth_mono {m n : Nat} (h : m ≤ n) : daysBeforeMonth m ≤ daysBeforeMonth n := by
  unfold daysBeforeMonth
  omega

/-- A date comes before the first of the next March. -/
theorem day_le_of_marchYear (h : d.Valid) :
    daysBeforeYear d.marchYear + (daysBeforeMonth d.marchMonth : Nat) + d.day
      ≤ daysBeforeYear (d.marchYear + 1) := by
  have hyear : daysBeforeYear d.marchYear + 365 ≤ daysBeforeYear (d.marchYear + 1) := by
    unfold daysBeforeYear
    omega
  by_cases hm : d.marchMonth < 11
  · have hday := day_le_of_marchMonth h hm
    have hnext : daysBeforeMonth (d.marchMonth + 1) ≤ 337 := daysBeforeMonth_mono (n := 11) hm
    omega
  · -- Only February depends on the year.
    obtain ⟨hfirst, hlast, -, hday⟩ := h
    have hmonth : d.month = 2 := by
      unfold marchMonth at hm
      omega
    have hbefore : daysBeforeMonth d.marchMonth = 337 := by
      unfold marchMonth
      rw [hmonth]
      rfl
    have hleap : isLeap d.year = true →
        daysBeforeYear d.marchYear + 366 ≤ daysBeforeYear (d.marchYear + 1) := by
      unfold isLeap daysBeforeYear marchYear
      simp only [Bool.and_eq_true, Bool.or_eq_true, beq_iff_eq, bne_iff_ne]
      rw [if_pos (by omega)]
      omega
    rw [hmonth] at hday
    replace hday : d.day ≤ if isLeap d.year then 29 else 28 := hday
    split at hday
    · have := hleap ‹_›
      omega
    · omega

/-- The years are in order. -/
theorem daysBeforeYear_mono {y z : Int} (h : y ≤ z) : daysBeforeYear y ≤ daysBeforeYear z := by
  unfold daysBeforeYear
  omega

end Date

open Date in
/-- **An earlier date has an earlier day.** -/
theorem dayOf_lt_dayOf {a b : Date} (ha : a.Valid) (hb : b.Valid) (h : a.Before b) :
    dayOf a < dayOf b := by
  have hday : 1 ≤ b.day := hb.2.2.1
  rw [dayOf_eq, dayOf_eq]
  rcases h.march ha hb with hyear | ⟨hyear, hmonth | ⟨hmonth, hlt⟩⟩
  · have hend := day_le_of_marchYear ha
    have hnext := daysBeforeYear_mono (show a.marchYear + 1 ≤ b.marchYear from hyear)
    omega
  · have hlast : b.marchMonth < 12 := Nat.mod_lt _ (by decide)
    have hend := day_le_of_marchMonth ha (by omega)
    have hnext := daysBeforeMonth_mono (show a.marchMonth + 1 ≤ b.marchMonth from hmonth)
    rw [hyear]
    omega
  · rw [hyear, hmonth]
    omega

/-- **A later day has a later date.** -/
theorem dateOf_before_of_lt {m n : Int} (h : m < n) : (dateOf m).Before (dateOf n) := by
  have hne : dateOf m ≠ dateOf n := by
    intro he
    have hday := congrArg dayOf he
    rw [dayOf_dateOf, dayOf_dateOf] at hday
    omega
  rcases Date.before_or_before hne with hb | hb
  · exact hb
  · have hday := dayOf_lt_dayOf (dateOf_valid n) (dateOf_valid m) hb
    rw [dayOf_dateOf, dayOf_dateOf] at hday
    omega

/-! ## Texts of digits -/

/-- Texts that begin with parts of one length are in the order of these parts. -/
theorem append_lt_append {a b : List Char} (hlength : a.length = b.length) (h : a < b) (x y : List Char) :
    a ++ x < b ++ y := by
  induction a generalizing b with
  | nil =>
    obtain rfl := List.length_eq_zero_iff.1 hlength.symm
    exact absurd h (List.lt_irrefl [])
  | cons c r ih =>
    cases b with
    | nil => cases hlength
    | cons d s =>
      rw [List.cons_append, List.cons_append, List.cons_lt_cons_iff]
      rcases List.cons_lt_cons_iff.1 h with hcd | ⟨hcd, hrs⟩
      · exact .inl hcd
      · exact .inr ⟨hcd, ih (Nat.succ.inj hlength) hrs⟩

/-- Digits that follow a number multiply it by ten each, and add less than one of what it stands for then. -/
theorem value_bounds {ds : List Char} (h : ∀ c ∈ ds, c.isDigit = true) (acc : Nat) :
    acc * 10 ^ ds.length ≤ Nat.ofDigitChars 10 ds acc ∧
      Nat.ofDigitChars 10 ds acc < (acc + 1) * 10 ^ ds.length := by
  induction ds generalizing acc with
  | nil => simp
  | cons c r ih =>
    obtain ⟨hc, hr⟩ := List.forall_mem_cons.1 h
    obtain ⟨hlow, hhigh⟩ := ih hr (10 * acc + (c.toNat - '0'.toNat))
    have hdigit : c.toNat - '0'.toNat ≤ 9 := by
      have hc57 := (toNat_of_isDigit hc).2
      have hzero : '0'.toNat = 48 := rfl
      omega
    rw [Nat.ofDigitChars_cons, List.length_cons, Nat.pow_succ', ← Nat.mul_assoc, ← Nat.mul_assoc]
    constructor
    · refine Nat.le_trans (Nat.mul_le_mul_right _ ?_) hlow
      omega
    · refine Nat.lt_of_lt_of_le hhigh (Nat.mul_le_mul_right _ ?_)
      omega

/-- **Of numerals with as many digits, that of the smaller number comes first.** -/
theorem lt_of_value_lt {ds es : List Char} (hds : ∀ c ∈ ds, c.isDigit = true)
    (hes : ∀ c ∈ es, c.isDigit = true) (hlength : ds.length = es.length) (acc : Nat)
    (h : Nat.ofDigitChars 10 ds acc < Nat.ofDigitChars 10 es acc) : ds < es := by
  induction ds generalizing es acc with
  | nil =>
    obtain rfl := List.length_eq_zero_iff.1 hlength.symm
    exact absurd h (Nat.lt_irrefl _)
  | cons c r ih =>
    cases es with
    | nil => cases hlength
    | cons d s =>
      obtain ⟨hc, hr⟩ := List.forall_mem_cons.1 hds
      obtain ⟨hd, hs⟩ := List.forall_mem_cons.1 hes
      have hrest : r.length = s.length := Nat.succ.inj hlength
      rw [Nat.ofDigitChars_cons, Nat.ofDigitChars_cons] at h
      rw [List.cons_lt_cons_iff]
      rcases Nat.lt_trichotomy c.toNat d.toNat with hlt | heq | hgt
      · exact .inl (Char.lt_def.2 hlt)
      · obtain rfl := Char.toNat_inj.1 heq
        exact .inr ⟨rfl, ih hr hs hrest _ h⟩
      · -- A greater first digit makes the number greater, whatever follows.
        have hzero : '0'.toNat = 48 := rfl
        have hd48 := (toNat_of_isDigit hd).1
        have hmore : 10 * acc + (d.toNat - '0'.toNat) + 1 ≤ 10 * acc + (c.toNat - '0'.toNat) := by omega
        have hlow := (value_bounds hr (10 * acc + (c.toNat - '0'.toNat))).1
        have hhigh := (value_bounds hs (10 * acc + (d.toNat - '0'.toNat))).2
        have hpow := Nat.mul_le_mul_right (10 ^ s.length) hmore
        rw [hrest] at hlow
        omega

/-- Padded numbers of one width are in their order, whatever follows a smaller one. -/
theorem padded_append_lt {width n m : Nat} (hw : 0 < width) (hn : n < 10 ^ width) (hm : m < 10 ^ width)
    {x y : List Char} (h : n < m ∨ n = m ∧ x < y) : padded width n ++ x < padded width m ++ y := by
  rcases h with hlt | ⟨rfl, hxy⟩
  · have hlength : (padded width n).length = (padded width m).length := by
      rw [length_padded hw hn, length_padded hw hm]
    refine append_lt_append hlength ?_ x y
    refine lt_of_value_lt (digits_padded width n).digit (digits_padded width m).digit hlength 0 ?_
    rw [value_padded, value_padded]
    exact hlt
  · exact List.append_left_lt hxy

/-! ## Ids -/

/-- A year of four digits. -/
theorem yearDigits_of_four {year : Int} (hlow : 0 ≤ year) (hhigh : year ≤ 9999) :
    yearDigits year = padded 4 year.natAbs := by
  unfold yearDigits
  rw [if_neg (by omega), if_neg (by omega)]

instance : LE Moment := ⟨fun a b => a.second < b.second ∨ a.second = b.second ∧ a.nano ≤ b.nano⟩

theorem Moment.le_iff {a b : Moment} :
    a ≤ b ↔ a.second < b.second ∨ a.second = b.second ∧ a.nano ≤ b.nano := Iff.rfl

instance (a b : Moment) : Decidable (a ≤ b) := decidable_of_iff _ Moment.le_iff.symm

/-- The year of the moment is written with four digits and no sign. -/
def Moment.HasPlainYear (m : Moment) : Prop := 0 ≤ m.clock.date.year ∧ m.clock.date.year ≤ 9999

instance (m : Moment) : Decidable m.HasPlainYear := inferInstanceAs (Decidable (_ ∧ _))

namespace Moment

/-- An id, field by field. -/
theorem compact_eq {m : Moment} (h : m.HasPlainYear) : m.compact
    = padded 4 m.clock.date.year.natAbs ++ (padded 2 m.clock.date.month ++ (padded 2 m.clock.date.day ++
      'T' :: (padded 2 m.clock.hour ++ (padded 2 m.clock.minute ++ padded 2 m.clock.second)))) := by
  unfold compact
  dsimp only
  rw [yearDigits_of_four h.1 h.2]
  simp only [List.append_assoc, List.cons_append]

/-- Of two seconds of one day, the later one is later on the clock, also next to a leap second. -/
theorem clock_lt_of_second_lt {a b : Moment} (hday : a.second / 86400 = b.second / 86400)
    (h : a.second < b.second) : a.clock.hour < b.clock.hour ∨ a.clock.hour = b.clock.hour ∧
      (a.clock.minute < b.clock.minute ∨ a.clock.minute = b.clock.minute ∧
        a.clock.second < b.clock.second) := by
  obtain ⟨-, -, hnano⟩ := a.isMoment
  unfold nanosPerSecond at hnano
  unfold clock Clock.ofSecond nanosPerSecond
  dsimp only
  omega

/-- Numbers of two digits, in their order. -/
theorem pair_append_lt {n m : Nat} (hn : n < 100) (hm : m < 100) {x y : List Char}
    (h : n < m ∨ n = m ∧ x < y) : padded 2 n ++ x < padded 2 m ++ y :=
  padded_append_lt (by decide) hn hm h

theorem pair_lt {n m : Nat} (hn : n < 100) (hm : m < 100) (h : n < m) : padded 2 n < padded 2 m := by
  have hlt := pair_append_lt (x := []) (y := []) hn hm (.inl h)
  rwa [List.append_nil, List.append_nil] at hlt

/-- **The id of a later second comes later in the order of texts.** -/
theorem compact_lt_compact {a b : Moment} (ha : a.HasPlainYear) (hb : b.HasPlainYear)
    (h : a.second < b.second) : a.compact < b.compact := by
  obtain ⟨⟨-, hamonth, -, haday⟩, -, hahour, haminute, hasecond, -⟩ := a.shown_clock
  obtain ⟨⟨-, hbmonth, -, hbday⟩, -, hbhour, hbminute, hbsecond, -⟩ := b.shown_clock
  have haday31 := Nat.le_trans haday (daysInMonth_le _ _)
  have hbday31 := Nat.le_trans hbday (daysInMonth_le _ _)
  have hyears : ∀ {x y : List Char}, (a.clock.date.year < b.clock.date.year ∨
      a.clock.date.year = b.clock.date.year ∧ x < y) →
      padded 4 a.clock.date.year.natAbs ++ x < padded 4 b.clock.date.year.natAbs ++ y := by
    intro x y hxy
    obtain ⟨ha0, ha9999⟩ := ha
    obtain ⟨hb0, hb9999⟩ := hb
    refine padded_append_lt (by decide) (by omega) (by omega) ?_
    rcases hxy with hlt | ⟨heq, hlt⟩
    · exact .inl (by omega)
    · exact .inr ⟨by rw [heq], hlt⟩
  rw [compact_eq ha, compact_eq hb]
  by_cases hday : a.second / 86400 = b.second / 86400
  · have hdate : a.clock.date = b.clock.date := congrArg dateOf hday
    rw [hdate]
    refine List.append_left_lt (List.append_left_lt (List.append_left_lt ?_))
    rw [List.cons_lt_cons_iff]
    refine .inr ⟨rfl, pair_append_lt (by omega) (by omega) ?_⟩
    rcases clock_lt_of_second_lt hday h with hhour | ⟨hhour, hminute | ⟨hminute, hlt⟩⟩
    · exact .inl hhour
    · exact .inr ⟨hhour, pair_append_lt (by omega) (by omega) (.inl hminute)⟩
    · refine .inr ⟨hhour, pair_append_lt (by omega) (by omega) (.inr ⟨hminute, ?_⟩)⟩
      exact pair_lt (by omega) (by omega) hlt
  · have hbefore : a.clock.date.Before b.clock.date := dateOf_before_of_lt (by omega)
    rcases hbefore with hyear | ⟨hyear, hmonth | ⟨hmonth, hlt⟩⟩
    · exact hyears (.inl hyear)
    · exact hyears (.inr ⟨hyear, pair_append_lt (by omega) (by omega) (.inl hmonth)⟩)
    · refine hyears (.inr ⟨hyear, pair_append_lt (by omega) (by omega) (.inr ⟨hmonth, ?_⟩)⟩)
      exact pair_append_lt (by omega) (by omega) (.inl hlt)

/-- **Ids are in the order of time**; within a second, only a leap second makes a difference. -/
theorem compact_le_compact {a b : Moment} (ha : a.HasPlainYear) (hb : b.HasPlainYear) (h : a ≤ b) :
    String.ofList a.compact ≤ String.ofList b.compact := by
  rw [String.le_iff_toList_le, String.toList_ofList, String.toList_ofList]
  rcases h with hsecond | ⟨hsecond, hnano⟩
  · exact Std.le_of_lt (compact_lt_compact ha hb hsecond)
  · have hashown := a.shown_clock.second
    have hbshown := b.shown_clock.second
    have hdate : a.clock.date = b.clock.date := congrArg (fun s => dateOf (s / 86400)) hsecond
    have hhour : a.clock.hour = b.clock.hour := congrArg (fun s => (s % 86400).toNat / 3600) hsecond
    have hminute : a.clock.minute = b.clock.minute :=
      congrArg (fun s => (s % 86400).toNat / 60 % 60) hsecond
    have hle : a.clock.second ≤ b.clock.second := by
      unfold clock Clock.ofSecond
      dsimp only
      rw [hsecond]
      exact Nat.add_le_add_left (Nat.div_le_div_right hnano) _
    rw [compact_eq ha, compact_eq hb, hdate, hhour, hminute]
    rcases Nat.lt_or_eq_of_le hle with hlt | heq
    · have hpair := pair_lt (by omega) (by omega) hlt
      refine Std.le_of_lt ?_
      refine List.append_left_lt (List.append_left_lt (List.append_left_lt ?_))
      rw [List.cons_lt_cons_iff]
      exact .inr ⟨rfl, List.append_left_lt (List.append_left_lt hpair)⟩
    · rw [heq]

end Moment

end BackupFleet.Time
