import BackupFleet.Proofs.Time.Formats

/-!
# `BackupFleet.Proofs.Time.Offset` — the two forms of an offset

An offset is `Z`, or a sign, two digits of hours and two digits of minutes. Strict RFC 3339 wants one colon
in between; behind the plain formats there may be any colons and blanks, and the minutes may be missing.

Main statement: `read_loose_of_strict` — what is an offset in the strict form is the same one in the loose form.

## Contents

* `readPair`, `readMinutes_eq_ok_iff`, `readDistance` — hours and minutes;
* `Signed`, `read_eq_ok_iff`, `exists_head_of_read` — the shape of an offset;
* `strict`, `loose`, `read_loose_of_strict` — the two forms;
* `read_trimEnd`, `last_of_read_strict` — blanks behind an offset.
-/

namespace BackupFleet.Time

open Text

/-! ## Hours and minutes -/

/-- Two digits as a number. -/
def readPair : Step Nat := fun cs => (twoDigits cs).map fun (tens, ones, r) => (10 * tens + ones, r)

theorem twoDigits_eq_ok_iff {cs rest : List Char} {tens ones : Nat} :
    twoDigits cs = .ok (tens, ones, rest) ↔ ∃ a b, cs = a :: b :: rest ∧ a.isDigit = true ∧ b.isDigit = true ∧
      tens = a.toNat - '0'.toNat ∧ ones = b.toNat - '0'.toNat := by
  unfold twoDigits
  constructor
  · intro h
    split at h
    · cases h
    · cases h
    · rename_i a b r
      split at h
      · rename_i hdigits
        rw [Bool.and_eq_true] at hdigits
        cases h
        exact ⟨a, b, rfl, hdigits.1, hdigits.2, rfl, rfl⟩
      · cases h
  · rintro ⟨a, b, rfl, ha, hb, rfl, rfl⟩
    simp [ha, hb]

theorem readPair_eq_ok_iff {cs rest : List Char} {n : Nat} :
    readPair cs = .ok (n, rest) ↔
      ∃ tens ones, twoDigits cs = .ok (tens, ones, rest) ∧ n = 10 * tens + ones := by
  unfold readPair
  cases twoDigits cs with
  | error e => simp [Except.map]
  | ok p =>
    obtain ⟨tens, ones, r⟩ := p
    simp only [Except.map, Except.ok.injEq, Prod.mk.injEq]
    constructor
    · rintro ⟨rfl, rfl⟩
      exact ⟨tens, ones, ⟨rfl, rfl, rfl⟩, rfl⟩
    · rintro ⟨_, _, ⟨rfl, rfl, rfl⟩, rfl⟩
      exact ⟨rfl, rfl⟩

/-- A number of two digits is read back. -/
theorem readPair_padded {n : Nat} (h : n < 100) (rest : List Char) :
    readPair (padded 2 n ++ rest) = .ok (n, rest) := by
  have hdigits := digits_padded 2 n
  have hvalue := value_padded 2 n
  have hlength := length_padded (by decide : 0 < 2) h
  match hab : padded 2 n, hlength with
  | [a, b], _ =>
    rw [hab] at hdigits hvalue
    refine readPair_eq_ok_iff.2 ⟨_, _, twoDigits_eq_ok_iff.2
      ⟨a, b, rfl, hdigits.digit a (by simp), hdigits.digit b (by simp), rfl, rfl⟩, ?_⟩
    simpa [Nat.ofDigitChars_cons] using hvalue.symm

namespace OffsetForm

/-- The minutes are two digits below 60; where they may be left out, the text may be at its end. -/
theorem readMinutes_eq_ok_iff {f : OffsetForm} {cs rest : List Char} {n : Nat} :
    f.readMinutes cs = .ok (n, rest) ↔ (readPair cs = .ok (n, rest) ∧ n < 60) ∨
      (f.optionalMinutes = true ∧ cs = [] ∧ n = 0 ∧ rest = []) := by
  rw [readPair_eq_ok_iff]
  unfold readMinutes
  cases htwo : twoDigits cs with
  | ok p =>
    obtain ⟨tens, ones, r⟩ := p
    obtain ⟨a, b, rfl, -, hb, -, hones⟩ := twoDigits_eq_ok_iff.1 htwo
    have hsmall : ones ≤ 9 := by
      have hzero : '0'.toNat = 48 := rfl
      have := toNat_of_isDigit hb
      omega
    by_cases hbig : 5 < tens
    · simp only [if_pos hbig]
      constructor
      · intro h
        cases h
      · rintro (⟨⟨_, _, he, rfl⟩, hn⟩ | ⟨-, hnil, -⟩)
        · cases he
          omega
        · cases hnil
    · simp only [if_neg hbig]
      constructor
      · intro h
        cases h
        exact .inl ⟨⟨tens, ones, rfl, rfl⟩, by omega⟩
      · rintro (⟨⟨_, _, he, rfl⟩, hn⟩ | ⟨-, hnil, -⟩)
        · cases he
          rfl
        · cases hnil
  | error e =>
    have hnone : ¬∃ tens ones,
        (Except.error e : Except TimeError _) = .ok (tens, ones, rest) ∧ n = 10 * tens + ones := by
      rintro ⟨_, _, he, -⟩
      cases he
    simp only [hnone, false_and, false_or]
    split
    · rename_i he
      cases he
    · split
      · rename_i hend
        rw [Bool.and_eq_true, List.isEmpty_iff] at hend
        constructor
        · intro h
          cases h
          exact ⟨hend.1, hend.2, rfl, rfl⟩
        · rintro ⟨-, -, rfl, rfl⟩
          rfl
      · rename_i hend
        rw [Bool.and_eq_true, List.isEmpty_iff] at hend
        exact iff_of_false (by simp) fun h => hend ⟨h.1, h.2.1⟩
    · rename_i hother he
      refine iff_of_false (by simp) ?_
      rintro ⟨-, rfl, -⟩
      cases htwo
      exact hother (Except.error.inj he).symm

/-- The hours and minutes of an offset, after its sign. -/
def readDistance (f : OffsetForm) : Step Int :=
  readPair.andThen fun hours => f.skipMark.andThen fun _ => f.readMinutes.andThen fun minutes =>
    Step.give (60 * hours + minutes)

/-- What a sign makes of a distance from UTC. -/
inductive Signed (distance : Int) : Char → Int → Prop
  | ahead : Signed distance '+' distance
  | behind : Signed distance '-' (-distance)
  | minus : Signed distance '\u2212' (-distance)

/-- An offset with a sign is the distance that follows it, taken as the sign says. -/
theorem readDistance_signed (f : OffsetForm) (negative : Bool) (cs : List Char) :
    (do
      let (tens, ones, r) ← twoDigits cs
      let ((), r) ← f.skipMark r
      let (minutes, r) ← f.readMinutes r
      let total : Int := 60 * (10 * tens + ones) + minutes
      pure (if negative then -total else total, r)) =
    (f.readDistance cs).map fun (distance, rest) => (if negative then -distance else distance, rest) := by
  unfold readDistance Step.andThen readPair
  simp only [bind, Except.bind]
  cases twoDigits cs with
  | error e => rfl
  | ok p =>
    dsimp only [Except.map]
    cases f.skipMark p.2.2 with
    | error e => rfl
    | ok q =>
      dsimp only
      cases f.readMinutes q.2 with
      | error e => rfl
      | ok m => simp [Step.give, pure, Except.pure]

theorem read_plus (f : OffsetForm) (cs : List Char) : f.read ('+' :: cs) = f.readDistance cs := by
  refine (readDistance_signed f false cs).trans ?_
  cases f.readDistance cs <;> rfl

theorem read_minus {f : OffsetForm} {sign : Char} (h : sign = '-' ∨ sign = '\u2212') (cs : List Char) :
    f.read (sign :: cs) = (f.readDistance cs).map fun (distance, rest) => (-distance, rest) := by
  rcases h with rfl | rfl
  · exact readDistance_signed f true cs
  · exact readDistance_signed f true cs

/-- **An offset is `Z`, or a sign and a distance.** -/
theorem read_eq_ok_iff {f : OffsetForm} {cs rest : List Char} {offset : Int} :
    f.read cs = .ok (offset, rest) ↔ (offset = 0 ∧ (cs = 'Z' :: rest ∨ cs = 'z' :: rest)) ∨
      ∃ sign r distance, cs = sign :: r ∧ Signed distance sign offset ∧
        f.readDistance r = .ok (distance, rest) := by
  have hminus : ∀ {sign : Char} {r : List Char}, sign = '-' ∨ sign = '\u2212' →
      f.read (sign :: r) = .ok (offset, rest) →
        ∃ distance, offset = -distance ∧ f.readDistance r = .ok (distance, rest) := by
    intro sign r hsign h
    rw [read_minus hsign] at h
    cases hd : f.readDistance r with
    | error e => rw [hd] at h; cases h
    | ok p =>
      rw [hd] at h
      cases h
      exact ⟨_, rfl, rfl⟩
  constructor
  · intro h
    have hcases := h
    unfold read at hcases
    split at hcases
    · cases hcases
    · cases hcases
      exact .inl ⟨rfl, .inl rfl⟩
    · cases hcases
      exact .inl ⟨rfl, .inr rfl⟩
    · rw [read_plus] at h
      exact .inr ⟨_, _, _, rfl, .ahead, h⟩
    · obtain ⟨distance, rfl, hd⟩ := hminus (.inl rfl) h
      exact .inr ⟨_, _, _, rfl, .behind, hd⟩
    · obtain ⟨distance, rfl, hd⟩ := hminus (.inr rfl) h
      exact .inr ⟨_, _, _, rfl, .minus, hd⟩
    · cases hcases
  · rintro (⟨rfl, rfl | rfl⟩ | ⟨sign, r, distance, rfl, hsign, hd⟩)
    · rfl
    · rfl
    · cases hsign with
      | ahead => rw [read_plus, hd]
      | behind => rw [read_minus (.inl rfl), hd]; rfl
      | minus => rw [read_minus (.inr rfl), hd]; rfl

/-- What an offset starts with. -/
theorem exists_head_of_read {f : OffsetForm} {cs rest : List Char} {offset : Int}
    (h : f.read cs = .ok (offset, rest)) : ∃ c r, cs = c :: r ∧ isBlank c = false ∧ c ≠ '.' := by
  rcases read_eq_ok_iff.1 h with ⟨-, rfl | rfl⟩ | ⟨sign, r, distance, rfl, hsign, -⟩
  · exact ⟨_, _, rfl, by decide, by decide⟩
  · exact ⟨_, _, rfl, by decide, by decide⟩
  · cases hsign <;> exact ⟨_, _, rfl, by decide, by decide⟩

/-! ## The two forms -/

/-- One colon, and minutes that may not be left out. -/
def strict : OffsetForm := ⟨false, false⟩

/-- Any colons and blanks, and minutes that may be left out. -/
def loose : OffsetForm := ⟨true, true⟩

/-- What may stand between the hours and the minutes of the loose form. -/
def isDivider (c : Char) : Bool := c == ':' || isBlank c

theorem loose_skipMark (cs : List Char) : loose.skipMark cs = .ok ((), cs.dropWhile isDivider) := rfl

theorem isDivider_of_isDigit {c : Char} (h : c.isDigit = true) : isDivider c = false := by
  unfold isDivider
  rw [isBlank_of_isDigit h, Bool.or_false]
  refine beq_false_of_ne ?_
  rintro rfl
  exact absurd h (by decide)

/-- **What is a strict offset is the same offset in the loose form.** -/
theorem read_loose_of_strict {cs rest : List Char} {offset : Int} (h : strict.read cs = .ok (offset, rest)) :
    loose.read cs = .ok (offset, rest) := by
  refine read_eq_ok_iff.2 ((read_eq_ok_iff.1 h).imp_right ?_)
  rintro ⟨sign, r, distance, hcs, hsign, hd⟩
  refine ⟨sign, r, distance, hcs, hsign, ?_⟩
  simp only [readDistance, Step.andThen_eq_ok_iff] at hd ⊢
  obtain ⟨hours, afterHours, hhours, _, afterMark, hmark, minutes, left, hminutes, hgive⟩ := hd
  have hpair := (readMinutes_eq_ok_iff.1 hminutes).resolve_right fun h => absurd h.1 (by decide)
  refine ⟨hours, afterHours, hhours, (), afterMark, ?_, minutes, left,
    readMinutes_eq_ok_iff.2 (.inl hpair), hgive⟩
  -- After the one colon comes a digit, so the loose form leaves out no more.
  obtain ⟨_, _, htwo, -⟩ := readPair_eq_ok_iff.1 hpair.1
  obtain ⟨a, b, rfl, ha, -⟩ := twoDigits_eq_ok_iff.1 htwo
  obtain rfl : afterHours = ':' :: a :: b :: left := expect_eq_ok_iff.1 hmark
  rw [loose_skipMark, List.dropWhile_cons, if_pos (by decide),
    dropWhile_of_head fun c hc => by cases hc; exact isDivider_of_isDigit ha]

/-- Blanks after an offset in the loose form do not matter. -/
theorem readDistance_trimEnd {cs : List Char} {distance : Int}
    (h : loose.readDistance cs = .ok (distance, [])) :
    loose.readDistance (trimEnd cs) = .ok (distance, []) := by
  simp only [readDistance, Step.andThen_eq_ok_iff] at h ⊢
  obtain ⟨hours, afterHours, hhours, _, afterMark, hmark, minutes, left, hminutes, hgive⟩ := h
  obtain rfl : afterHours.dropWhile isDivider = afterMark := congrArg Prod.snd (Except.ok.inj hmark)
  obtain ⟨tens, ones, htwo, hvalue⟩ := readPair_eq_ok_iff.1 hhours
  obtain ⟨a, b, rfl, ha, hb, hdigits⟩ := twoDigits_eq_ok_iff.1 htwo
  rw [trimEnd_cons_of_not_blank (isBlank_of_isDigit ha), trimEnd_cons_of_not_blank (isBlank_of_isDigit hb)]
  have htrimmed : readPair (a :: b :: trimEnd afterHours) = .ok (hours, trimEnd afterHours) :=
    readPair_eq_ok_iff.2 ⟨tens, ones, twoDigits_eq_ok_iff.2 ⟨a, b, rfl, ha, hb, hdigits⟩, hvalue⟩
  refine ⟨hours, _, htrimmed, (), (trimEnd afterHours).dropWhile isDivider, rfl, minutes, left, ?_, hgive⟩
  cases hgive
  rcases readMinutes_eq_ok_iff.1 hminutes with ⟨hpair, hsmall⟩ | ⟨hoptional, hnone, hzero⟩
  · -- The text ends with the digits of the minutes.
    obtain ⟨_, _, htwo', -⟩ := readPair_eq_ok_iff.1 hpair
    obtain ⟨c, d, hlast, -, hd, -⟩ := twoDigits_eq_ok_iff.1 htwo'
    have hend : trimEnd afterHours = afterHours := by
      refine trimEnd_of_last fun e he => ?_
      rw [← List.takeWhile_append_dropWhile (p := isDivider) (l := afterHours), hlast,
        List.getLast?_append] at he
      cases he
      exact isBlank_of_isDigit hd
    rw [hend]
    exact readMinutes_eq_ok_iff.2 (.inl ⟨hpair, hsmall⟩)
  · have hall := dropWhile_eq_nil_iff_forall.1 hnone
    have hnil := dropWhile_eq_nil_iff_forall.2 fun c hc => hall c (mem_of_mem_trimEnd hc)
    exact readMinutes_eq_ok_iff.2 (.inr ⟨hoptional, hnil, hzero⟩)

theorem read_trimEnd {cs : List Char} {offset : Int} (h : loose.read cs = .ok (offset, [])) :
    loose.read (trimEnd cs) = .ok (offset, []) := by
  rcases read_eq_ok_iff.1 h with ⟨rfl, rfl | rfl⟩ | ⟨sign, r, distance, rfl, hsign, hd⟩
  · rfl
  · rfl
  · have hblank : isBlank sign = false := by cases hsign <;> decide
    rw [trimEnd_cons_of_not_blank hblank]
    exact read_eq_ok_iff.2 (.inr ⟨sign, _, distance, rfl, hsign, readDistance_trimEnd hd⟩)

/-- A strict offset ends with no blank. -/
theorem last_of_read_strict {cs : List Char} {offset : Int} (h : strict.read cs = .ok (offset, [])) :
    ∀ c, cs.getLast? = some c → isBlank c = false := by
  rcases read_eq_ok_iff.1 h with ⟨-, rfl | rfl⟩ | ⟨sign, r, distance, rfl, -, hd⟩
  · rintro c ⟨⟩
    decide
  · rintro c ⟨⟩
    decide
  · simp only [readDistance, Step.andThen_eq_ok_iff] at hd
    obtain ⟨hours, afterHours, hhours, _, afterMark, hmark, minutes, left, hminutes, hgive⟩ := hd
    cases hgive
    have hpair := (readMinutes_eq_ok_iff.1 hminutes).resolve_right fun h => absurd h.1 (by decide)
    obtain ⟨_, _, htwo, -⟩ := readPair_eq_ok_iff.1 hhours
    obtain ⟨a, b, rfl, -⟩ := twoDigits_eq_ok_iff.1 htwo
    obtain ⟨_, _, htwo', -⟩ := readPair_eq_ok_iff.1 hpair.1
    obtain ⟨c, d, rfl, -, hd, -⟩ := twoDigits_eq_ok_iff.1 htwo'
    obtain rfl : afterHours = ':' :: c :: d :: [] := expect_eq_ok_iff.1 hmark
    rintro e ⟨⟩
    exact isBlank_of_isDigit hd

end OffsetForm

end BackupFleet.Time
