import BackupFleet.Proofs.Text.Pieces
import BackupFleet.Proofs.Time.Numeral

/-!
# `BackupFleet.Proofs.Time.Step` — what a step looks at

A reader of times is a sequence of steps, and each step takes something off the front of the text. How far a
step goes is decided by what it takes and by the first character after it, at most: digits go on until one is
missing, and a point opens a part of a second. So a text may be continued, or cut off, behind what a reader
has taken, and the reader reads the same.

Main statement: `Step.Local.andThen` — steps one after the other look no further than each of them does.

## Contents

* `Step.andThen`, `Step.give`, `Step.check`, `skipBlanks` — how readers are put together;
* `Step.andThen_eq_ok_iff` — a sequence of steps taken apart;
* `readNumeral_eq_ok_iff`, `readExact_eq_ok_iff` — the digits that a step takes;
* `Clear`, `Alike`, `Step.Local` — how far a step looks;
* `local_readNumeral`, `local_readYear`, `local_readFraction` — the steps.
-/

namespace BackupFleet.Time

open Text

/-! ## Sequences of steps -/

namespace Step

variable {α β γ : Type}

/-- A step, and then the step that its answer calls for. -/
def andThen (step : Step α) (next : α → Step β) : Step β := fun cs => do
  let (a, rest) ← step cs
  next a rest

/-- An answer for which nothing is taken. -/
def give (a : α) : Step α := fun cs => .ok (a, cs)

/-- An answer that may be refused; nothing is taken for it. -/
def check (answer : Except TimeError α) : Step α := fun cs => answer.map (·, cs)

/-- What may fail ends well iff its parts do. -/
theorem bind_eq_ok_iff {x : Except TimeError α} {f : α → Except TimeError β} {b : β} :
    (x >>= f) = .ok b ↔ ∃ a, x = .ok a ∧ f a = .ok b := by
  cases x with
  | error e => simp [bind, Except.bind]
  | ok a => simp [bind, Except.bind]

/-- **A sequence succeeds iff both steps do**, the second one on what the first one left. -/
theorem andThen_eq_ok_iff {step : Step α} {next : α → Step β} {cs rest : List Char} {b : β} :
    step.andThen next cs = .ok (b, rest) ↔ ∃ a mid, step cs = .ok (a, mid) ∧ next a mid = .ok (b, rest) := by
  unfold andThen
  rw [bind_eq_ok_iff]
  exact Prod.exists

theorem andThen_of_ok {step : Step α} {next : α → Step β} {cs mid : List Char} {a : α}
    (h : step cs = .ok (a, mid)) : step.andThen next cs = next a mid := by
  unfold andThen
  rw [h]
  rfl

theorem andThen_assoc (step : Step α) (next : α → Step β) (last : β → Step γ) :
    (step.andThen next).andThen last = step.andThen fun a => (next a).andThen last := by
  funext cs
  unfold andThen
  cases step cs with
  | error e => rfl
  | ok p => rfl

theorem check_eq (answer : Except TimeError α) :
    check answer = fun cs => answer.bind fun a => .ok (a, cs) := by
  funext cs
  unfold check
  cases answer <;> rfl

theorem check_eq_ok_iff {answer : Except TimeError α} {cs rest : List Char} {a : α} :
    check answer cs = .ok (a, rest) ↔ answer = .ok a ∧ cs = rest := by
  unfold check
  cases answer <;> simp [Except.map]

end Step

/-- Leaves out the blanks at the front. -/
def skipBlanks : Step Unit := fun cs => .ok ((), trimStart cs)

theorem readField_eq (low high : Nat) : readField low high =
    skipBlanks.andThen fun _ => (readNumeral (some 2)).andThen fun n => Step.check (within low high n) := by
  simp only [Step.check_eq]
  rfl

theorem readFixed_eq (low high : Nat) :
    readFixed low high = (readExact 2).andThen fun n => Step.check (within low high n) := by
  simp only [Step.check_eq]
  rfl

/-! ## Digits -/

/-- A sum of digits is their value, and it has 63 bits. -/
theorem accumulate_eq_ok {ds : List Char} {acc n : Nat} (hacc : acc < bound63)
    (h : accumulate acc ds = .ok n) : n = Nat.ofDigitChars 10 ds acc ∧ n < bound63 := by
  induction ds generalizing acc with
  | nil =>
    obtain rfl : acc = n := by simpa [accumulate] using h
    exact ⟨by simp, hacc⟩
  | cons d r ih =>
    rw [accumulate] at h
    split at h
    · rename_i hnext
      have hrest := ih hnext h
      rwa [Nat.ofDigitChars_cons, Nat.mul_comm 10]
    · cases h

/-- The digits that a numeral takes off the front of a text. -/
def frontDigits (width : Option Nat) (cs : List Char) : List Char :=
  match width with
  | some w => (cs.takeWhile Char.isDigit).take w
  | none => cs.takeWhile Char.isDigit

theorem prefix_frontDigits (width : Option Nat) (cs : List Char) :
    frontDigits width cs <+: cs.takeWhile Char.isDigit := by
  cases width with
  | none => exact List.prefix_rfl
  | some w => exact List.take_prefix w _

/-- A step with any width takes the digit that it sees. -/
theorem digits_frontDigits {width : Option Nat} (hw : width ≠ some 0) {c : Char} {r : List Char}
    (hc : c.isDigit = true) : Digits (frontDigits width (c :: r)) := by
  have hstart : (c :: r).takeWhile Char.isDigit = c :: r.takeWhile Char.isDigit := by
    rw [List.takeWhile_cons, if_pos hc]
  constructor
  · unfold frontDigits
    rw [hstart]
    cases width with
    | none => exact List.cons_ne_nil _ _
    | some w =>
      rw [Ne, List.take_eq_nil_iff]
      simpa using hw
  · intro d hd
    exact List.all_eq_true.1 List.all_takeWhile d ((prefix_frontDigits width _).subset hd)

/-- Digits are left over only where the width is used up. -/
theorem stops_frontDigits (width : Option Nat) (cs : List Char) :
    Stops width (frontDigits width cs) (cs.drop (frontDigits width cs).length) := by
  have hdrop : cs.drop (cs.takeWhile Char.isDigit).length = cs.dropWhile Char.isDigit := by
    have hsplit : (cs.takeWhile Char.isDigit ++ cs.dropWhile Char.isDigit).drop
        (cs.takeWhile Char.isDigit).length = cs.dropWhile Char.isDigit := List.drop_left
    rwa [List.takeWhile_append_dropWhile] at hsplit
  have hstop : ∀ c, (cs.drop (cs.takeWhile Char.isDigit).length).head? = some c → c.isDigit = false := by
    rw [hdrop]
    exact head_dropWhile
  cases width with
  | none => exact .inr ⟨fun w hw => (by cases hw), hstop⟩
  | some w =>
    by_cases hlong : w ≤ (cs.takeWhile Char.isDigit).length
    · left
      show some w = some ((cs.takeWhile Char.isDigit).take w).length
      rw [List.length_take, Nat.min_eq_left hlong]
    · have hfull : frontDigits (some w) cs = cs.takeWhile Char.isDigit := List.take_of_length_le (by omega)
      rw [hfull]
      exact .inr ⟨fun v hv => by cases hv; omega, hstop⟩

theorem readNumeral_cons {width : Option Nat} {c : Char} {r : List Char} (hc : c.isDigit = true) :
    readNumeral width (c :: r) = (accumulate 0 (frontDigits width (c :: r))).map
      (·, (c :: r).drop (frontDigits width (c :: r)).length) := by
  unfold readNumeral
  dsimp only
  rw [if_neg (by simp [hc])]
  rfl

/-- **A numeral is digits, taken as far as the width allows**, and their value has 63 bits. -/
theorem readNumeral_eq_ok_iff {width : Option Nat} (hw : width ≠ some 0) {cs rest : List Char} {n : Nat} :
    readNumeral width cs = .ok (n, rest) ↔
      ∃ ds, cs = ds ++ rest ∧ Digits ds ∧ Stops width ds rest ∧ n = Nat.ofDigitChars 10 ds 0 ∧ n < bound63 := by
  constructor
  · intro h
    cases cs with
    | nil => cases h
    | cons c r =>
      cases hc : c.isDigit with
      | false =>
        unfold readNumeral at h
        dsimp only at h
        rw [if_pos hc] at h
        cases h
      | true =>
        rw [readNumeral_cons hc] at h
        cases hsum : accumulate 0 (frontDigits width (c :: r)) with
        | error e => rw [hsum] at h; cases h
        | ok value =>
          rw [hsum] at h
          obtain ⟨rfl, rfl⟩ : value = n ∧ (c :: r).drop _ = rest := by simpa [Except.map] using h
          have hfront := (prefix_frontDigits width (c :: r)).trans (List.takeWhile_prefix _)
          exact ⟨_, List.prefix_iff_eq_append.1 hfront |>.symm, digits_frontDigits hw hc,
            stops_frontDigits width _, accumulate_eq_ok (by decide) hsum⟩
  · rintro ⟨ds, rfl, hd, hs, rfl, hlt⟩
    exact readNumeral_digits width rest hd hlt hs

/-- A numeral of fixed width is that many digits. -/
theorem readExact_eq_ok_iff {width : Nat} (hw : 0 < width) {cs rest : List Char} {n : Nat} :
    readExact width cs = .ok (n, rest) ↔
      ∃ ds, cs = ds ++ rest ∧ Digits ds ∧ ds.length = width ∧ n = Nat.ofDigitChars 10 ds 0 ∧ n < bound63 := by
  unfold readExact
  dsimp only
  constructor
  · intro h
    split at h
    · cases h
    rename_i hlong
    have hlength : (cs.take width).length = width := by
      have := List.length_take_le width cs
      omega
    split at h
    · rename_i hall
      cases hsum : accumulate 0 (cs.take width) with
      | error e => rw [hsum] at h; cases h
      | ok value =>
        rw [hsum] at h
        obtain ⟨rfl, rfl⟩ : value = n ∧ cs.drop width = rest := by simpa [Except.map] using h
        refine ⟨_, (List.take_append_drop width cs).symm, ⟨?_, List.all_eq_true.1 hall⟩, hlength,
          accumulate_eq_ok (by decide) hsum⟩
        exact List.ne_nil_of_length_pos (by omega)
    · cases h
  · rintro ⟨ds, rfl, hd, rfl, rfl, hlt⟩
    rw [List.take_left, List.drop_left, if_neg (Nat.lt_irrefl _), if_pos (List.all_eq_true.2 hd.digit),
      accumulate_digits ds hlt]
    rfl

/-! ## How far a step looks -/

/-- The text is at its end, or goes on with a character that belongs to no numeral, part of a second or
    run of blanks. -/
def Clear (cs : List Char) : Prop :=
  ∀ c, cs.head? = some c → c.isDigit = false ∧ c ≠ '.' ∧ isBlank c = false

/-- The texts start alike, or nothing at their start belongs to what was before it. -/
def Alike (a b : List Char) : Prop := a.head? = b.head? ∨ (Clear a ∧ Clear b)

theorem Alike.refl (a : List Char) : Alike a a := .inl rfl

/-- What was taken before both of them does not make texts unlike. -/
theorem Alike.append {a b : List Char} (h : Alike a b) (taken : List Char) :
    Alike (taken ++ a) (taken ++ b) := by
  cases taken with
  | nil => exact h
  | cons c r => exact .inl rfl

/-- Texts that start alike start with the same kind of character. -/
theorem Alike.head {a b : List Char} (h : Alike a b) {p : Char → Prop}
    (hp : ∀ c, c.isDigit = false ∧ c ≠ '.' ∧ isBlank c = false → p c)
    (ha : ∀ c, a.head? = some c → p c) : ∀ c, b.head? = some c → p c := by
  intro c hc
  rcases h with h | ⟨-, hb⟩
  · exact ha c (h.trans hc)
  · exact hp c (hb c hc)

/-- The step goes by what it takes and by the start of what it leaves. -/
def Step.Local {α : Type} (step : Step α) : Prop :=
  ∀ cs a rest, step cs = .ok (a, rest) →
    ∃ taken, cs = taken ++ rest ∧ ∀ other, Alike rest other → step (taken ++ other) = .ok (a, other)

namespace Step

variable {α β : Type}

/-- **Steps one after the other look no further than each of them does.** -/
theorem Local.andThen {step : Step α} {next : α → Step β} (hstep : step.Local) (hnext : ∀ a, (next a).Local) :
    (step.andThen next).Local := by
  intro cs b rest h
  obtain ⟨a, mid, hfirst, hsecond⟩ := andThen_eq_ok_iff.1 h
  obtain ⟨taken, rfl, htaken⟩ := hstep cs a mid hfirst
  obtain ⟨more, rfl, hmore⟩ := hnext a mid b rest hsecond
  refine ⟨taken ++ more, (List.append_assoc _ _ _).symm, fun other hother => ?_⟩
  rw [List.append_assoc]
  exact andThen_eq_ok_iff.2 ⟨a, more ++ other, htaken _ (hother.append more), hmore other hother⟩

theorem local_give (a : α) : (give a).Local := by
  intro cs b rest h
  cases h
  exact ⟨[], rfl, fun other _ => rfl⟩

theorem local_check (answer : Except TimeError α) : (check answer).Local := by
  intro cs a rest h
  obtain ⟨hanswer, rfl⟩ := check_eq_ok_iff.1 h
  exact ⟨[], rfl, fun other _ => check_eq_ok_iff.2 ⟨hanswer, rfl⟩⟩

end Step

/-! ## The steps -/

theorem local_skipBlanks : skipBlanks.Local := by
  intro cs a rest h
  obtain rfl : trimStart cs = rest := congrArg Prod.snd (Except.ok.inj h)
  refine ⟨cs.takeWhile isBlank, List.takeWhile_append_dropWhile.symm, fun other hother => ?_⟩
  have hblank : ∀ c ∈ cs.takeWhile isBlank, isBlank c = true :=
    fun c hc => List.all_eq_true.1 List.all_takeWhile c hc
  have hother' : trimStart other = other :=
    trimStart_of_head (hother.head (fun c hc => hc.2.2) fun c => head?_trimStart)
  show Except.ok ((), trimStart (cs.takeWhile isBlank ++ other)) = .ok (a, other)
  rw [show trimStart (cs.takeWhile isBlank ++ other) = trimStart other from
    List.dropWhile_append_of_pos hblank, hother']

theorem expect_eq_ok_iff {mark : Char} {cs rest : List Char} {u : Unit} :
    expect mark cs = .ok (u, rest) ↔ cs = mark :: rest := by
  constructor
  · intro h
    cases cs with
    | nil => cases h
    | cons c r =>
      unfold expect at h
      dsimp only at h
      split at h
      · rename_i hc
        cases h
        rw [hc]
      · cases h
  · rintro rfl
    exact expect_mark mark rest

theorem local_expect (mark : Char) : (expect mark).Local := by
  intro cs u rest h
  obtain rfl := expect_eq_ok_iff.1 h
  exact ⟨[mark], rfl, fun other _ => expect_eq_ok_iff.2 rfl⟩

theorem local_readJoint : readJoint.Local := by
  intro cs a rest h
  unfold readJoint at h
  split at h
  · cases h
  · cases h
    exact ⟨['t'], rfl, fun other _ => rfl⟩
  · cases h
    exact ⟨['T'], rfl, fun other _ => rfl⟩
  · cases h
    exact ⟨[' '], rfl, fun other _ => rfl⟩
  · cases h

theorem Stops.of_alike {width : Option Nat} {ds rest other : List Char} (h : Stops width ds rest)
    (halike : Alike rest other) : Stops width ds other :=
  h.imp_right fun hstop => ⟨hstop.1, halike.head (fun _ hc => hc.1) hstop.2⟩

theorem local_readNumeral {width : Option Nat} (hw : width ≠ some 0) : (readNumeral width).Local := by
  intro cs n rest h
  obtain ⟨ds, rfl, hd, hs, hn⟩ := (readNumeral_eq_ok_iff hw).1 h
  exact ⟨ds, rfl, fun other hother => (readNumeral_eq_ok_iff hw).2 ⟨ds, rfl, hd, hs.of_alike hother, hn⟩⟩

theorem local_readExact {width : Nat} (hw : 0 < width) : (readExact width).Local := by
  intro cs n rest h
  obtain ⟨ds, rfl, hd, hlength, hn⟩ := (readExact_eq_ok_iff hw).1 h
  exact ⟨ds, rfl, fun other _ => (readExact_eq_ok_iff hw).2 ⟨ds, rfl, hd, hlength, hn⟩⟩

theorem local_readField (low high : Nat) : (readField low high).Local := by
  rw [readField_eq]
  exact local_skipBlanks.andThen fun _ => (local_readNumeral (by simp)).andThen fun _ => Step.local_check _

theorem local_readFixed (low high : Nat) : (readFixed low high).Local := by
  rw [readFixed_eq]
  exact (local_readExact (by decide)).andThen fun _ => Step.local_check _

/-- A year in one of its forms, as the number that the digits are read as. -/
def readYearOf (width : Option Nat) (year : Nat → Int) : Step Int :=
  (readNumeral width).andThen fun n => Step.check (yearWithin (year n))

/-- A year without the blanks before it. -/
def readSigned : Step Int := fun cs =>
  match cs with
  | '-' :: r => readYearOf none (fun n => -n) r
  | '+' :: r => readYearOf none (fun n => n) r
  | r => readYearOf (some 4) (fun n => n) r

theorem readYear_eq : readYear = skipBlanks.andThen fun _ => readSigned := by
  have hform : ∀ width (year : Nat → Int), readYearOf width year = fun cs =>
      (readNumeral width cs).bind fun p => (yearWithin (year p.1)).bind fun y => .ok (y, p.2) := by
    intro width year
    unfold readYearOf
    simp only [Step.check_eq]
    rfl
  funext cs
  show readYear cs = readSigned (trimStart cs)
  unfold readYear readSigned
  simp only [hform]
  rfl

/-- A year that starts with a digit has no sign. -/
theorem readSigned_of_digit {c : Char} {r : List Char} (hc : c.isDigit = true) :
    readSigned (c :: r) = readYearOf (some 4) (fun n => n) (c :: r) := by
  unfold readSigned
  split
  · rename_i he
    rw [(List.cons.inj he).1] at hc
    exact absurd hc (by decide)
  · rename_i he
    rw [(List.cons.inj he).1] at hc
    exact absurd hc (by decide)
  · rfl

theorem local_readYearOf {width : Option Nat} (hw : width ≠ some 0) (year : Nat → Int) :
    (readYearOf width year).Local :=
  (local_readNumeral hw).andThen fun _ => Step.local_check _

/-- A numeral starts with a digit. -/
theorem exists_digit_of_readNumeral {width : Option Nat} (hw : width ≠ some 0) {cs rest : List Char} {n : Nat}
    (h : readNumeral width cs = .ok (n, rest)) : ∃ c r, cs = c :: r ∧ c.isDigit = true := by
  obtain ⟨ds, rfl, hd, -⟩ := (readNumeral_eq_ok_iff hw).1 h
  obtain ⟨c, r, rfl⟩ := List.exists_cons_of_ne_nil hd.ne_nil
  exact ⟨c, r ++ rest, rfl, hd.digit c List.mem_cons_self⟩

theorem local_readSigned : readSigned.Local := by
  intro cs year rest h
  unfold readSigned at h
  split at h
  · obtain ⟨taken, rfl, htaken⟩ := local_readYearOf (by simp) _ _ _ _ h
    exact ⟨'-' :: taken, rfl, htaken⟩
  · obtain ⟨taken, rfl, htaken⟩ := local_readYearOf (by simp) _ _ _ _ h
    exact ⟨'+' :: taken, rfl, htaken⟩
  · obtain ⟨taken, rfl, htaken⟩ := local_readYearOf (by simp) _ _ _ _ h
    refine ⟨taken, rfl, fun other hother => ?_⟩
    -- Whatever follows, the text starts with a digit and so has no sign.
    obtain ⟨n, mid, hnumeral, -⟩ := Step.andThen_eq_ok_iff.1 (htaken other hother)
    obtain ⟨c, r, hcs, hc⟩ := exists_digit_of_readNumeral (by simp) hnumeral
    rw [← htaken other hother, hcs, readSigned_of_digit hc]

theorem local_readYear : readYear.Local := by
  rw [readYear_eq]
  exact local_skipBlanks.andThen fun _ => local_readSigned

/-- The part of a second after its point. -/
def readAfterPoint : Step Nat := fun cs => do
  let (n, rest) ← readNumeral (some 9) cs
  pure (n * Nat.pow 10 (9 - (cs.length - rest.length)), rest.dropWhile Char.isDigit)

theorem readFraction_of_no_point {cs : List Char} (h : ∀ c, cs.head? = some c → c ≠ '.') :
    readFraction cs = .ok (0, cs) := by
  unfold readFraction
  split
  · exact absurd rfl (h '.' rfl)
  · rfl

theorem readAfterPoint_of_ok {cs mid : List Char} {value : Nat}
    (h : readNumeral (some 9) cs = .ok (value, mid)) :
    readAfterPoint cs =
      .ok (value * Nat.pow 10 (9 - (cs.length - mid.length)), mid.dropWhile Char.isDigit) := by
  unfold readAfterPoint
  rw [h]
  rfl

theorem local_readAfterPoint : readAfterPoint.Local := by
  intro cs n rest h
  cases hread : readNumeral (some 9) cs with
  | error e =>
    unfold readAfterPoint at h
    rw [hread] at h
    cases h
  | ok p =>
    obtain ⟨value, mid⟩ := p
    rw [readAfterPoint_of_ok hread] at h
    cases h
    obtain ⟨ds, rfl, htaken⟩ := local_readNumeral (by simp) _ _ _ hread
    -- The digits past the ninth are dropped, and none follows them.
    have hsplit : mid.takeWhile Char.isDigit ++ mid.dropWhile Char.isDigit = mid :=
      List.takeWhile_append_dropWhile
    refine ⟨ds ++ mid.takeWhile Char.isDigit, by rw [List.append_assoc, hsplit], fun other hother => ?_⟩
    have halike := hother.append (mid.takeWhile Char.isDigit)
    rw [hsplit] at halike
    have hmore : ∀ c ∈ mid.takeWhile Char.isDigit, c.isDigit = true :=
      fun c hc => List.all_eq_true.1 List.all_takeWhile c hc
    rw [List.append_assoc, readAfterPoint_of_ok (htaken _ halike), List.dropWhile_append_of_pos hmore,
      dropWhile_of_head (hother.head (fun c hc => hc.1) head_dropWhile)]
    simp only [List.length_append, Nat.add_sub_cancel]

theorem local_readFraction : readFraction.Local := by
  intro cs n rest h
  by_cases hpoint : ∃ r, cs = '.' :: r
  · obtain ⟨r, rfl⟩ := hpoint
    obtain ⟨taken, rfl, htaken⟩ := local_readAfterPoint _ _ _ h
    exact ⟨'.' :: taken, rfl, htaken⟩
  · have hhead : ∀ c, cs.head? = some c → c ≠ '.' := by
      rintro c hc rfl
      cases cs with
      | nil => cases hc
      | cons d r =>
        cases hc
        exact hpoint ⟨r, rfl⟩
    rw [readFraction_of_no_point hhead] at h
    cases h
    exact ⟨[], rfl, fun other hother =>
      readFraction_of_no_point (hother.head (fun c hc => hc.2.1) hhead)⟩

end BackupFleet.Time
