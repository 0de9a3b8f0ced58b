import BackupFleet.Proofs.Catalog.Codec

/-!
# `BackupFleet.Proofs.Catalog.Cut` — a record that was cut off is not read

A record may be followed by anything, but nothing of it may be missing: wherever its bytes are cut, the
reader runs out of input. The forms that codecs are put together from hand this on. A pair is cut in its
first part, or after it, and then the first part is read back and the second one was cut; for a text and a
list, the first part is the length.

## Contents

* `Codec.NeedsAll` and the forms: `word`, `pair`, `convert`, `text`, `option`, `list`;
* `Record.decode_of_cut` — records.
-/

namespace BackupFleet.Catalog

namespace Codec

variable {α β : Type}

/-- Where something is missing at the end of what is written of a value, the reader runs out of input. -/
def NeedsAll (c : Codec α) (P : α → Prop) : Prop :=
  ∀ a front back, P a → c.write a = front ++ back → back ≠ [] → c.read front = .error .truncated

theorem NeedsAll.mono {c : Codec α} {P Q : α → Prop} (h : c.NeedsAll P) (hQ : ∀ a, Q a → P a) :
    c.NeedsAll Q :=
  fun a front back ha => h a front back (hQ a ha)

/-- Two parts that are cut are cut in the second one, or the first one itself is cut. -/
theorem cut_cases {u v front back : Bytes} (h : u ++ v = front ++ back) :
    (∃ rest, front = u ++ rest ∧ v = rest ++ back) ∨
      ∃ rest, rest ≠ [] ∧ u = front ++ rest ∧ back = rest ++ v := by
  rcases List.append_eq_append_iff.1 h with ⟨rest, hfront, hv⟩ | ⟨rest, hu, hback⟩
  · exact .inl ⟨rest, hfront, hv⟩
  · by_cases hrest : rest = []
    · subst hrest
      rw [List.append_nil] at hu
      exact .inl ⟨[], by rw [hu, List.append_nil], hback.symm⟩
    · exact .inr ⟨rest, hrest, hu, hback⟩

/-! ## Forms -/

theorem takeBytes_of_lt {width : Nat} {bytes : Bytes} (h : bytes.length < width) :
    takeBytes width bytes = .error .truncated := by
  unfold takeBytes
  rw [if_pos h]

/-- What is cut off makes the rest shorter. -/
theorem length_lt_of_cut {whole front back : Bytes} (h : whole = front ++ back) (hback : back ≠ []) :
    front.length < whole.length := by
  have hpos := List.length_pos_iff.2 hback
  have hlength := congrArg List.length h
  rw [List.length_append] at hlength
  omega

/-- A word needs all of its bytes. -/
theorem needsAll_word (width : Nat) : (word width).NeedsAll fun _ => True := by
  intro n front back _ hcut hback
  have hshort : front.length < width := by
    have hlt := length_lt_of_cut hcut hback
    rwa [show (word width).write n = wordBytes width n from rfl, length_wordBytes] at hlt
  simp only [word, takeBytes_of_lt hshort, bind, Except.bind]

/-- **A pair needs all of both parts**, if the first one is read back. -/
theorem NeedsAll.pair {a : Codec α} {b : Codec β} {P : α → Prop} {Q : β → Prop} (ha : a.NeedsAll P)
    (hrestores : a.Restores P) (hb : b.NeedsAll Q) : (pair a b).NeedsAll fun v => P v.1 ∧ Q v.2 := by
  rintro ⟨x, y⟩ front back ⟨hx, hy⟩ hcut hback
  rcases cut_cases hcut with ⟨rest, rfl, hrest⟩ | ⟨rest, hrest, hfirst, -⟩
  · have hread := hrestores x rest hx
    have hsecond := hb y rest back hy hrest hback
    simp only [Codec.pair, hread, hsecond, bind, Except.bind]
  · have hread := ha x front rest hx hfirst hrest
    simp only [Codec.pair, hread, bind, Except.bind]

theorem NeedsAll.convert {c : Codec α} {P : α → Prop} (hc : c.NeedsAll P) (lower : β → α)
    (lift : α → Except DecodeError β) : (c.convert lower lift).NeedsAll fun b => P (lower b) := by
  intro b front back hb hcut hback
  have hread := hc (lower b) front back hb hcut hback
  simp only [Codec.convert, hread, bind, Except.bind]

/-- **A text needs all of its bytes**: its length tells how many. -/
theorem needsAll_text : text.NeedsAll Storable := by
  intro s front back hs hcut hback
  rcases cut_cases hcut with ⟨rest, rfl, hrest⟩ | ⟨rest, hrest, hlength, -⟩
  · have hread := restores_word 8 (Text.encode s.toList).length rest hs
    have hshort := takeBytes_of_lt (length_lt_of_cut hrest hback)
    simp only [text, hread, hshort, bind, Except.bind]
  · have hread := needsAll_word 8 _ front rest trivial hlength hrest
    simp only [text, hread, bind, Except.bind]

theorem NeedsAll.option {c : Codec α} {P : α → Prop} (hc : c.NeedsAll P) :
    c.option.NeedsAll fun o => ∀ a, o = some a → P a := by
  intro o front back ho hcut hback
  cases front with
  | nil => rfl
  | cons flag front =>
    cases o with
    | none =>
      -- There is only the flag, so nothing can be missing behind it.
      have hnil := (List.cons.inj hcut).2
      exact absurd (List.append_eq_nil_iff.1 hnil.symm).2 hback
    | some a =>
      obtain ⟨hflag, hvalue⟩ := List.cons.inj hcut
      have hread := hc a front back (ho a rfl) hvalue hback
      simp [Codec.option, ← hflag, hread, Except.map]

/-- A row of values needs all of them. -/
theorem readMany_of_cut {c : Codec α} {P : α → Prop} (hc : c.NeedsAll P) (hrestores : c.Restores P)
    {l : List α} {front back : Bytes} (hl : ∀ a ∈ l, P a) (hcut : l.flatMap c.write = front ++ back)
    (hback : back ≠ []) : readMany c l.length front = .error .truncated := by
  induction l generalizing front with
  | nil => exact absurd (List.append_eq_nil_iff.1 hcut.symm).2 hback
  | cons a r ih =>
    obtain ⟨ha, hr⟩ := List.forall_mem_cons.1 hl
    rw [List.flatMap_cons] at hcut
    rw [List.length_cons, readMany]
    rcases cut_cases hcut with ⟨rest, rfl, hrest⟩ | ⟨rest, hrest, hfirst, -⟩
    · have hread := hrestores a rest ha
      have hmany := ih hr hrest
      simp only [hread, hmany, bind, Except.bind]
    · have hread := hc a front rest ha hfirst hrest
      simp only [hread, bind, Except.bind]

/-- **A list needs all of its values**: its length tells how many. -/
theorem NeedsAll.list {c : Codec α} {P : α → Prop} (hc : c.NeedsAll P) (hrestores : c.Restores P) :
    c.list.NeedsAll fun l => l.length < 256 ^ 8 ∧ ∀ a ∈ l, P a := by
  rintro l front back ⟨hlength, hl⟩ hcut hback
  rcases cut_cases hcut with ⟨rest, rfl, hrest⟩ | ⟨rest, hrest, hword, -⟩
  · have hread := restores_word 8 l.length rest hlength
    have hmany := readMany_of_cut hc hrestores hl hrest hback
    simp only [Codec.list, hread, hmany, bind, Except.bind]
  · have hread := needsAll_word 8 _ front rest trivial hword hrest
    simp only [Codec.list, hread, bind, Except.bind]

end Codec

/-! ## Records -/

open Codec

theorem needsAll_status : Status.codec.NeedsAll fun _ => True :=
  ((needsAll_word 4).convert _ _).mono fun _ _ => trivial

theorem needsAll_time : timeCodec.NeedsAll fun _ => True :=
  (needsAll_text.convert _ _).mono fun m _ => storable_rfc3339 m

theorem needsAll_tablespace : Tablespace.codec.NeedsAll Tablespace.Fits := by
  have hfields := needsAll_text.pair restores_text
    (((needsAll_word 4).mono fun _ _ => trivial).pair (restores_word 4) needsAll_text)
  exact (hfields.convert _ _).mono fun t ht => ⟨ht.1, t.oid.toNat_lt, ht.2⟩

namespace Record

theorem needsAll_codec : codec.NeedsAll Fits := by
  have hwals := needsAll_text.option.pair restores_text.option
    ((needsAll_tablespace.list restores_tablespace).pair restores_tablespace.list
      needsAll_text.option)
  have htimes := needsAll_time.pair restores_time
    (needsAll_time.option.pair restores_time.option
      (needsAll_text.option.pair restores_text.option hwals))
  have hfields := needsAll_text.pair restores_text
    (needsAll_text.pair restores_text (needsAll_status.pair restores_status htimes))
  refine (hfields.convert _ _).mono fun r h => ?_
  exact ⟨h.id, h.server, trivial, trivial, fun _ _ => trivial, h.beginWal, h.endWal,
    ⟨h.count, h.tablespaces⟩, h.error⟩

/-- **A record of which something is missing is not read.** -/
theorem decode_of_cut {r : Record} (h : r.Fits) {front back : Bytes}
    (hcut : r.encode = front ++ back) (hback : back ≠ []) : decode front = .error .truncated := by
  unfold decode
  rw [needsAll_codec r front back h hcut hback]
  rfl

end Record

end BackupFleet.Catalog
