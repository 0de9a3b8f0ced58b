import BackupFleet.Text.Utf8

/-!
# `BackupFleet.Proofs.Text.Utf8` — text read in parts, and its length

Bytes that can be read as text stay the text they are when more text is written after them.

## Contents

* `pieces_append`, `eq_map_char_of_charsOfPieces` — the pieces of longer input;
* `decode_append_encode` — text written after other text;
* `length_encode_le`, `length_decodeLossy_le` — lengths.
-/

namespace BackupFleet.Text

/-- Characters that have been read do not depend on the bytes after them. -/
theorem pieces_append {st : Option Partial} {a : Bytes} {cs : List Char}
    (h : pieces st a = cs.map .char) (b : Bytes) : pieces st (a ++ b) = cs.map .char ++ pieces none b := by
  induction a generalizing st cs with
  | nil =>
    cases st with
    | none =>
      rw [pieces] at h
      rw [← h]
      rfl
    | some p => cases cs <;> simp [pieces] at h
  | cons x r ih =>
    cases st with
    | none =>
      rw [pieces] at h
      rw [List.cons_append, pieces]
      cases ho : openByte x with
      | inl piece =>
        rw [ho] at h
        cases cs with
        | nil => simp at h
        | cons c cs =>
          obtain ⟨rfl, hr⟩ := List.cons.inj h
          simp [ih hr]
      | inr p =>
        rw [ho] at h
        exact ih h
    | some p =>
      rw [pieces] at h
      rw [List.cons_append, pieces]
      by_cases hin : p.low ≤ x.toNat ∧ x.toNat ≤ p.high
      · rw [if_pos hin] at h ⊢
        cases hp : p.push x with
        | inl piece =>
          rw [hp] at h
          cases cs with
          | nil => simp at h
          | cons c cs =>
            obtain ⟨rfl, hr⟩ := List.cons.inj h
            simp [ih hr]
        | inr q =>
          rw [hp] at h
          exact ih h
      · rw [if_neg hin] at h
        cases cs <;> simp at h

/-- Bytes that can be read are pieces that are characters. -/
theorem eq_map_char_of_charsOfPieces {ps : List Piece} {cs : List Char} {at_ : Nat}
    (h : charsOfPieces at_ ps = .ok cs) : ps = cs.map .char := by
  induction ps generalizing at_ cs with
  | nil =>
    rw [charsOfPieces] at h
    cases h
    rfl
  | cons piece r ih =>
    cases piece with
    | bad width cut => cases h
    | char c =>
      rw [charsOfPieces] at h
      cases hr : charsOfPieces (at_ + charWidth c) r with
      | error e => rw [hr] at h; cases h
      | ok rest =>
        rw [hr] at h
        cases h
        rw [ih hr]
        rfl

/-- **Text that is written after other text is read after it.** -/
theorem decode_append_encode {a : Bytes} {cs : List Char} (h : decode a = .ok cs) (more : List Char) :
    decode (a ++ encode more) = .ok (cs ++ more) := by
  have hmore := pieces_encode_append more []
  rw [List.append_nil, pieces, List.append_nil] at hmore
  unfold decode at h ⊢
  rw [pieces_append (eq_map_char_of_charsOfPieces h), hmore, ← List.map_append, charsOfPieces_map_char]

/-! ## Lengths -/

theorem length_encodeChar_le (c : Char) : (encodeChar c).length ≤ 4 := by
  unfold encodeChar
  dsimp only
  split
  · simp
  split
  · simp
  split <;> simp

/-- No text has more than four bytes for a character. -/
theorem length_encode_le (cs : List Char) : (encode cs).length ≤ 4 * cs.length := by
  induction cs with
  | nil => decide
  | cons c r ih =>
    have hc := length_encodeChar_le c
    rw [encode_cons, List.length_append, List.length_cons]
    omega

/-- A byte that starts a sequence, or is none, makes at most one piece. -/
theorem length_opened_le {r : Bytes} (hnone : (pieces none r).length ≤ r.length)
    (hsome : ∀ q, (pieces (some q) r).length ≤ r.length + 1) (b : UInt8) :
    (match openByte b with
      | .inl piece => piece :: pieces none r
      | .inr q => pieces (some q) r).length ≤ r.length + 1 := by
  cases openByte b with
  | inl piece => exact Nat.succ_le_succ hnone
  | inr q => exact hsome q

/-- There are no more pieces than bytes, and one for a sequence that is not complete. -/
theorem length_pieces_le (st : Option Partial) (bs : Bytes) :
    (pieces st bs).length ≤ bs.length + st.toList.length := by
  induction bs generalizing st with
  | nil =>
    cases st with
    | none => decide
    | some p => simp [pieces]
  | cons b r ih =>
    have hnone : (pieces none r).length ≤ r.length := ih none
    have hsome : ∀ q, (pieces (some q) r).length ≤ r.length + 1 := fun q => ih (some q)
    have hopen := length_opened_le hnone hsome b
    cases st with
    | none =>
      rw [pieces]
      exact hopen
    | some p =>
      rw [pieces]
      split
      · cases p.push b with
        | inl piece => exact Nat.le_succ_of_le (Nat.succ_le_succ hnone)
        | inr q => exact Nat.le_succ_of_le (hsome q)
      · exact Nat.succ_le_succ hopen

/-- Reading makes no text longer than the bytes. -/
theorem length_decodeLossy_le (bs : Bytes) : (decodeLossy bs).length ≤ bs.length := by
  unfold decodeLossy
  rw [List.length_map]
  exact length_pieces_le none bs

/-- The size of a string is bounded in the same way. -/
theorem utf8ByteSize_ofList_le (cs : List Char) : (String.ofList cs).utf8ByteSize ≤ 4 * cs.length := by
  rw [← String.size_toByteArray, String.toByteArray_ofList]
  induction cs with
  | nil => simp
  | cons c r ih =>
    have hc := c.utf8Size_le_four
    rw [List.utf8Encode_cons, ByteArray.size_append, List.utf8Encode_singleton, List.length_cons]
    simp only [List.size_toByteArray, String.length_utf8EncodeChar]
    omega

end BackupFleet.Text
