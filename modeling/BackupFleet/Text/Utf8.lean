/-!
# `BackupFleet.Text.Utf8` — text as bytes

Files and hook output are bytes, names and messages are text. `encode` writes text in UTF-8; the reading
side cuts any byte string into `Piece`s, a character or a maximal ill-formed stretch each, in one pass
that carries the sequence it is in the middle of. On the pieces rest both readers: `decode`, which
refuses ill-formed input and says where, and `decodeLossy`, which puts U+FFFD for each ill-formed stretch.

Main statement: `decode_encode`, what is written is read back.

## Contents

* `encodeChar`, `encode` — the writer;
* `Partial`, `Piece`, `pieces` — the reader's state and its answer;
* `decode`, `decodeLossy`, `Utf8Error` — the two readers.
-/

namespace BackupFleet

/-- The content of a file, or what a hook wrote. -/
abbrev Bytes := List UInt8

namespace Text

/-! ## Writing -/

/-- The one to four bytes of a character. -/
def encodeChar (c : Char) : Bytes :=
  let n := c.toNat
  if n < 0x80 then [UInt8.ofNat n]
  else if n < 0x800 then [UInt8.ofNat (0xC0 + n / 64), UInt8.ofNat (0x80 + n % 64)]
  else if n < 0x10000 then
    [UInt8.ofNat (0xE0 + n / 4096), UInt8.ofNat (0x80 + n / 64 % 64), UInt8.ofNat (0x80 + n % 64)]
  else
    [UInt8.ofNat (0xF0 + n / 262144), UInt8.ofNat (0x80 + n / 4096 % 64),
      UInt8.ofNat (0x80 + n / 64 % 64), UInt8.ofNat (0x80 + n % 64)]

/-- The bytes of a text. -/
def encode (cs : List Char) : Bytes := cs.flatMap encodeChar

@[simp] theorem encode_nil : encode [] = [] := rfl

@[simp] theorem encode_cons (c : Char) (cs : List Char) :
    encode (c :: cs) = encodeChar c ++ encode cs := rfl

@[simp] theorem encode_append (a b : List Char) : encode (a ++ b) = encode a ++ encode b := by
  simp [encode]

/-! ## Reading in pieces -/

/-- A sequence whose first bytes have been read: how many, the bits they carry, the range the next byte
    must lie in, and how many bytes are missing. -/
structure Partial where
  width : Nat
  value : Nat
  low : Nat
  high : Nat
  missing : Nat

/-- A character, or an ill-formed stretch of `width` bytes; `cut` if the input ended inside it. -/
inductive Piece where
  | char (c : Char)
  | bad (width : Nat) (cut : Bool)
deriving DecidableEq

/-- How a byte that opens a sequence is taken. The narrowed ranges of the second byte keep out overlong
    forms, surrogates and values past U+10FFFF. -/
def openByte (b : UInt8) : Piece ⊕ Partial :=
  let n := b.toNat
  if n < 0x80 then .inl (.char (Char.ofNat n))
  else if n < 0xC2 then .inl (.bad 1 false)
  else if n < 0xE0 then .inr ⟨1, n - 0xC0, 0x80, 0xBF, 1⟩
  else if n = 0xE0 then .inr ⟨1, 0, 0xA0, 0xBF, 2⟩
  else if n = 0xED then .inr ⟨1, 0xD, 0x80, 0x9F, 2⟩
  else if n < 0xF0 then .inr ⟨1, n - 0xE0, 0x80, 0xBF, 2⟩
  else if n = 0xF0 then .inr ⟨1, 0, 0x90, 0xBF, 3⟩
  else if n < 0xF4 then .inr ⟨1, n - 0xF0, 0x80, 0xBF, 3⟩
  else if n = 0xF4 then .inr ⟨1, 4, 0x80, 0x8F, 3⟩
  else .inl (.bad 1 false)

/-- `p` with one more byte. -/
def Partial.push (p : Partial) (b : UInt8) : Piece ⊕ Partial :=
  let value := p.value * 64 + (b.toNat - 0x80)
  if p.missing ≤ 1 then .inl (.char (Char.ofNat value))
  else .inr ⟨p.width + 1, value, 0x80, 0xBF, p.missing - 1⟩

/-- The pieces of a byte string, read on from the middle of a sequence or from the start of one. -/
def pieces : Option Partial → Bytes → List Piece
  | none, [] => []
  | some p, [] => [.bad p.width true]
  | none, b :: r =>
    match openByte b with
    | .inl piece => piece :: pieces none r
    | .inr p => pieces (some p) r
  | some p, b :: r =>
    if p.low ≤ b.toNat ∧ b.toNat ≤ p.high then
      match p.push b with
      | .inl piece => piece :: pieces none r
      | .inr q => pieces (some q) r
    else
      .bad p.width false ::
        match openByte b with
        | .inl piece => piece :: pieces none r
        | .inr q => pieces (some q) r

theorem toNat_ofNat_of_lt {n : Nat} (h : n < 256) : (UInt8.ofNat n).toNat = n := by
  simp [Nat.mod_eq_of_lt h]

theorem not_surrogate (c : Char) : c.toNat < 0xD800 ∨ (0xDFFF < c.toNat ∧ c.toNat < 0x110000) :=
  c.valid

theorem pieces_open {b : UInt8} {p : Partial} (h : openByte b = .inr p) (r : Bytes) :
    pieces none (b :: r) = pieces (some p) r := by
  rw [pieces, h]

theorem pieces_push {p : Partial} {b : UInt8} (r : Bytes) {n : Nat} (hb : b.toNat = n)
    (hr : p.low ≤ n ∧ n ≤ p.high) (hm : 1 < p.missing) :
    pieces (some p) (b :: r) =
      pieces (some ⟨p.width + 1, p.value * 64 + (n - 0x80), 0x80, 0xBF, p.missing - 1⟩) r := by
  rw [pieces, if_pos (by rw [hb]; exact hr), Partial.push, if_neg (by omega), hb]

theorem pieces_close {p : Partial} {b : UInt8} (r : Bytes) {n : Nat} (hb : b.toNat = n)
    (hr : p.low ≤ n ∧ n ≤ p.high) (hm : p.missing ≤ 1) :
    pieces (some p) (b :: r) =
      .char (Char.ofNat (p.value * 64 + (n - 0x80))) :: pieces none r := by
  rw [pieces, if_pos (by rw [hb]; exact hr), Partial.push, if_pos hm, hb]

theorem openByte_two {n : Nat} (h : 0x80 ≤ n) (h' : n < 0x800) :
    openByte (UInt8.ofNat (0xC0 + n / 64)) = .inr ⟨1, n / 64, 0x80, 0xBF, 1⟩ := by
  unfold openByte
  rw [toNat_ofNat_of_lt (by omega)]
  simp only []
  rw [if_neg (by omega), if_neg (by omega), if_pos (by omega), Nat.add_sub_cancel_left]

theorem openByte_three {n : Nat} (h : 0x800 ≤ n) (h' : n < 0x10000)
    (hs : n < 0xD800 ∨ 0xDFFF < n) :
    ∃ lo hi, openByte (UInt8.ofNat (0xE0 + n / 4096)) = .inr ⟨1, n / 4096, lo, hi, 2⟩ ∧
      lo ≤ 0x80 + n / 64 % 64 ∧ 0x80 + n / 64 % 64 ≤ hi := by
  unfold openByte
  rw [toNat_ofNat_of_lt (by omega)]
  simp only []
  rw [if_neg (by omega), if_neg (by omega), if_neg (by omega)]
  by_cases z : n / 4096 = 0
  · rw [if_pos (by omega)]
    exact ⟨0xA0, 0xBF, by rw [z], by omega⟩
  rw [if_neg (by omega)]
  by_cases y : n / 4096 = 0xD
  · rw [if_pos (by omega)]
    exact ⟨0x80, 0x9F, by rw [y], by omega⟩
  rw [if_neg (by omega), if_pos (by omega), Nat.add_sub_cancel_left]
  exact ⟨0x80, 0xBF, rfl, by omega⟩

theorem openByte_four {n : Nat} (h : 0x10000 ≤ n) (h' : n < 0x110000) :
    ∃ lo hi, openByte (UInt8.ofNat (0xF0 + n / 262144)) = .inr ⟨1, n / 262144, lo, hi, 3⟩ ∧
      lo ≤ 0x80 + n / 4096 % 64 ∧ 0x80 + n / 4096 % 64 ≤ hi := by
  unfold openByte
  rw [toNat_ofNat_of_lt (by omega)]
  simp only []
  rw [if_neg (by omega), if_neg (by omega), if_neg (by omega), if_neg (by omega),
    if_neg (by omega), if_neg (by omega)]
  by_cases z : n / 262144 = 0
  · rw [if_pos (by omega)]
    exact ⟨0x90, 0xBF, by rw [z], by omega⟩
  rw [if_neg (by omega)]
  by_cases y : n / 262144 = 4
  · rw [if_neg (by omega), if_pos (by omega)]
    exact ⟨0x80, 0x8F, by rw [y], by omega⟩
  rw [if_pos (by omega), Nat.add_sub_cancel_left]
  exact ⟨0x80, 0xBF, rfl, by omega⟩

/-- A written character is read back, whatever follows. -/
theorem pieces_encodeChar (c : Char) (r : Bytes) :
    pieces none (encodeChar c ++ r) = .char c :: pieces none r := by
  have hv := not_surrogate c
  have hc : Char.ofNat c.toNat = c := Char.ofNat_toNat c
  unfold encodeChar
  generalize hn : c.toNat = n at hv hc ⊢
  simp only []
  split
  · rename_i h
    rw [List.singleton_append, pieces, openByte, toNat_ofNat_of_lt (by omega)]
    simp only [h, if_true, hc]
  split
  · rename_i h1 h2
    rw [List.cons_append, List.cons_append, List.nil_append, pieces_open (openByte_two (by omega) h2),
      pieces_close _ (toNat_ofNat_of_lt (n := 0x80 + n % 64) (by omega)) (by simp only []; omega)
        (Nat.le_refl 1)]
    have v : n / 64 * 64 + (0x80 + n % 64 - 0x80) = n := by omega
    simp only [v, hc]
  split
  · rename_i h1 h2 h3
    obtain ⟨lo, hi, o, k⟩ := openByte_three (n := n) (by omega) h3 (by omega)
    rw [List.cons_append, List.cons_append, List.cons_append, List.nil_append, pieces_open o,
      pieces_push _ (toNat_ofNat_of_lt (n := 0x80 + n / 64 % 64) (by omega)) k (by simp only []; omega),
      pieces_close _ (toNat_ofNat_of_lt (n := 0x80 + n % 64) (by omega)) (by simp only []; omega)
        (Nat.le_refl 1)]
    have v : (n / 4096 * 64 + (0x80 + n / 64 % 64 - 0x80)) * 64 + (0x80 + n % 64 - 0x80) = n := by
      omega
    simp only [v, hc]
  · rename_i h1 h2 h3
    obtain ⟨lo, hi, o, k⟩ := openByte_four (n := n) (by omega) (by omega)
    rw [List.cons_append, List.cons_append, List.cons_append, List.cons_append, List.nil_append,
      pieces_open o,
      pieces_push _ (toNat_ofNat_of_lt (n := 0x80 + n / 4096 % 64) (by omega)) k
        (by simp only []; omega),
      pieces_push _ (toNat_ofNat_of_lt (n := 0x80 + n / 64 % 64) (by omega)) (by simp only []; omega)
        (by simp only []; omega),
      pieces_close _ (toNat_ofNat_of_lt (n := 0x80 + n % 64) (by omega)) (by simp only []; omega)
        (Nat.le_refl 1)]
    have v : ((n / 262144 * 64 + (0x80 + n / 4096 % 64 - 0x80)) * 64 +
        (0x80 + n / 64 % 64 - 0x80)) * 64 + (0x80 + n % 64 - 0x80) = n := by omega
    simp only [v, hc]

/-- Written text is read as its characters. -/
theorem pieces_encode_append (cs : List Char) (r : Bytes) :
    pieces none (encode cs ++ r) = cs.map .char ++ pieces none r := by
  induction cs with
  | nil => rfl
  | cons c cs ih => simp [pieces_encodeChar, ih]

/-! ## The readers -/

/-- Where a byte string stops being UTF-8: after `index` bytes stands an ill-formed stretch, of `width`
    bytes unless the input ends inside it. -/
structure Utf8Error where
  index : Nat
  width : Option Nat
deriving DecidableEq

/-- The number of bytes of a character. -/
def charWidth (c : Char) : Nat := (encodeChar c).length

/-- The characters of well-formed pieces, `at` bytes into the input. -/
def charsOfPieces (at_ : Nat) : List Piece → Except Utf8Error (List Char)
  | [] => .ok []
  | .char c :: r => (charsOfPieces (at_ + charWidth c) r).map (c :: ·)
  | .bad width cut :: _ => .error ⟨at_, if cut then none else some width⟩

/-- The text a byte string encodes. -/
def decode (bs : Bytes) : Except Utf8Error (List Char) := charsOfPieces 0 (pieces none bs)

/-- The text a byte string encodes, with U+FFFD for each ill-formed stretch. -/
def decodeLossy (bs : Bytes) : List Char :=
  (pieces none bs).map fun
    | .char c => c
    | .bad _ _ => '\uFFFD'

theorem charsOfPieces_map_char (cs : List Char) (at_ : Nat) :
    charsOfPieces at_ (cs.map .char) = .ok cs := by
  induction cs generalizing at_ with
  | nil => rfl
  | cons c cs ih => simp [charsOfPieces, ih, Except.map]

@[simp] theorem decode_encode (cs : List Char) : decode (encode cs) = .ok cs := by
  have h := pieces_encode_append cs []
  simp only [List.append_nil, pieces] at h
  rw [decode, h, charsOfPieces_map_char]

@[simp] theorem decodeLossy_encode (cs : List Char) : decodeLossy (encode cs) = cs := by
  have h := pieces_encode_append cs []
  simp only [List.append_nil, pieces] at h
  simp [decodeLossy, h, Function.comp_def]

end Text

end BackupFleet
