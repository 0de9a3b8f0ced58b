import BackupFleet.Catalog.Codec
import BackupFleet.Proofs.Text.Utf8
import BackupFleet.Proofs.Time.Written

/-!
# `BackupFleet.Proofs.Catalog.Codec` — what is written is read back

A codec restores a value if reading what was written of it gives the value and leaves what follows. The
forms that codecs are put together from hand this on, each with the condition that belongs to it: a word
restores the numbers that its bytes can hold, so texts and lists are restored if their length fits into
eight bytes.

## Contents

* `Codec.Restores` and the forms: `word`, `pair`, `convert`, `text`, `option`, `list`;
* `Record.Fits`, `Record.decode_append` — records.
-/

namespace BackupFleet.Catalog

namespace Codec

variable {α β : Type}

/-- Every value with the property is read back from what is written of it. -/
def Restores (c : Codec α) (P : α → Prop) : Prop :=
  ∀ a rest, P a → c.read (c.write a ++ rest) = .ok (a, rest)

theorem Restores.mono {c : Codec α} {P Q : α → Prop} (h : c.Restores P) (hQ : ∀ a, Q a → P a) :
    c.Restores Q :=
  fun a rest ha => h a rest (hQ a ha)

/-! ## Forms -/

theorem length_wordBytes (width n : Nat) : (wordBytes width n).length = width := by
  induction width generalizing n with
  | zero => rfl
  | succ width ih => rw [wordBytes, List.length_cons, ih]

/-- The bytes of a word hold the number as far as there is room. -/
theorem wordValue_wordBytes (width n : Nat) : wordValue (wordBytes width n) = n % 256 ^ width := by
  induction width generalizing n with
  | zero => simp [wordBytes, wordValue, Nat.mod_one]
  | succ width ih =>
    have hcons : wordValue (wordBytes (width + 1) n)
        = (UInt8.ofNat n).toNat + 256 * wordValue (wordBytes width (n / 256)) := rfl
    have hbyte : (UInt8.ofNat n).toNat = n % 256 := by simp
    rw [hcons, hbyte, ih, Nat.pow_succ, Nat.mul_comm (256 ^ width) 256, Nat.mod_mul]

/-- The bytes that are counted are taken off what follows them. -/
theorem takeBytes_append {front : Bytes} {width : Nat} (h : front.length = width) (rest : Bytes) :
    takeBytes width (front ++ rest) = .ok (front, rest) := by
  subst h
  simp [takeBytes]

theorem read_word {width : Nat} {bytes front rest : Bytes}
    (h : takeBytes width bytes = .ok (front, rest)) :
    (word width).read bytes = .ok (wordValue front, rest) := by
  simp only [word, h, bind, Except.bind, pure, Except.pure]

/-- **A word restores the numbers that it has room for.** -/
theorem restores_word (width : Nat) : (word width).Restores (· < 256 ^ width) := by
  intro n rest hn
  have htake : takeBytes width ((word width).write n ++ rest) = .ok (wordBytes width n, rest) :=
    takeBytes_append (length_wordBytes width n) rest
  rw [read_word htake, wordValue_wordBytes, Nat.mod_eq_of_lt hn]

theorem read_pair {a : Codec α} {b : Codec β} {bytes rest rest' : Bytes} {x : α} {y : β}
    (hx : a.read bytes = .ok (x, rest)) (hy : b.read rest = .ok (y, rest')) :
    (pair a b).read bytes = .ok ((x, y), rest') := by
  simp only [pair, hx, hy, bind, Except.bind, pure, Except.pure]

theorem Restores.pair {a : Codec α} {b : Codec β} {P : α → Prop} {Q : β → Prop}
    (ha : a.Restores P) (hb : b.Restores Q) : (pair a b).Restores fun v => P v.1 ∧ Q v.2 := by
  rintro ⟨x, y⟩ rest ⟨hx, hy⟩
  have hwrite : (Codec.pair a b).write (x, y) ++ rest = a.write x ++ (b.write y ++ rest) :=
    List.append_assoc _ _ _
  rw [hwrite]
  exact read_pair (ha x _ hx) (hb y rest hy)

theorem read_convert {c : Codec α} {lower : β → α} {lift : α → Except DecodeError β}
    {bytes rest : Bytes} {a : α} {b : β} (ha : c.read bytes = .ok (a, rest)) (hb : lift a = .ok b) :
    (c.convert lower lift).read bytes = .ok (b, rest) := by
  simp only [convert, ha, hb, bind, Except.bind, pure, Except.pure]

/-- Where the conversion comes back to the value, the converted form restores it. -/
theorem Restores.convert {c : Codec α} {P : α → Prop} (hc : c.Restores P) {lower : β → α}
    {lift : α → Except DecodeError β} :
    (c.convert lower lift).Restores fun b => P (lower b) ∧ lift (lower b) = .ok b := by
  rintro b rest ⟨hb, hlift⟩
  exact read_convert (hc (lower b) rest hb) hlift

/-- The text is short enough for its length to be stored. -/
def Storable (s : String) : Prop := (Text.encode s.toList).length < 256 ^ 8

theorem read_text {bytes rest front rest' : Bytes} {length : Nat} {cs : List Char}
    (hlength : (word 8).read bytes = .ok (length, rest))
    (htake : takeBytes length rest = .ok (front, rest')) (hdecode : Text.decode front = .ok cs) :
    text.read bytes = .ok (String.ofList cs, rest') := by
  simp only [text, hlength, htake, hdecode, bind, Except.bind, pure, Except.pure]

/-- **A text is read back if its length fits into its word.** -/
theorem restores_text : text.Restores Storable := by
  intro s rest hs
  have hwrite : text.write s ++ rest = (word 8).write (Text.encode s.toList).length
      ++ (Text.encode s.toList ++ rest) := List.append_assoc _ _ _
  rw [hwrite, read_text (restores_word 8 _ _ hs) (takeBytes_append rfl rest) (Text.decode_encode _),
    String.ofList_toList]

theorem read_some {c : Codec α} {bytes rest : Bytes} {a : α} (h : c.read bytes = .ok (a, rest)) :
    c.option.read (1 :: bytes) = .ok (some a, rest) := by
  simp [option, h, Except.map]

theorem Restores.option {c : Codec α} {P : α → Prop} (hc : c.Restores P) :
    c.option.Restores fun o => ∀ a, o = some a → P a := by
  intro o rest ho
  cases o with
  | none => rfl
  | some a => exact read_some (hc a rest (ho a rfl))

theorem readMany_write {c : Codec α} {P : α → Prop} (hc : c.Restores P) {l : List α}
    (hl : ∀ a ∈ l, P a) (rest : Bytes) :
    readMany c l.length (l.flatMap c.write ++ rest) = .ok (l, rest) := by
  induction l with
  | nil => rfl
  | cons a r ih =>
    obtain ⟨ha, hr⟩ := List.forall_mem_cons.1 hl
    rw [List.flatMap_cons, List.length_cons, readMany, List.append_assoc, hc a _ ha]
    simp only [bind, Except.bind]
    rw [ih hr]
    rfl

theorem read_list {c : Codec α} {bytes rest rest' : Bytes} {length : Nat} {l : List α}
    (hlength : (word 8).read bytes = .ok (length, rest))
    (hmany : readMany c length rest = .ok (l, rest')) : c.list.read bytes = .ok (l, rest') := by
  simp only [list, hlength, hmany, bind, Except.bind]

/-- **A list is read back if its length fits into its word.** -/
theorem Restores.list {c : Codec α} {P : α → Prop} (hc : c.Restores P) :
    c.list.Restores fun l => l.length < 256 ^ 8 ∧ ∀ a ∈ l, P a := by
  rintro l rest ⟨hlength, hl⟩
  have hwrite : c.list.write l ++ rest = (word 8).write l.length ++ (l.flatMap c.write ++ rest) :=
    List.append_assoc _ _ _
  rw [hwrite]
  exact read_list (restores_word 8 _ _ hlength) (readMany_write hc hl rest)

end Codec

/-! ## Records -/

open Codec

theorem restores_status : Status.codec.Restores fun _ => True :=
  (restores_word 4).convert.mono fun s _ => ⟨by cases s <;> decide, Status.ofCode_code s⟩

/-- The texts of a tablespace can be stored. -/
def Tablespace.Fits (t : Tablespace) : Prop := Storable t.name ∧ Storable t.location

theorem restores_tablespace : Tablespace.codec.Restores Tablespace.Fits := by
  refine (restores_text.pair ((restores_word 4).pair restores_text)).convert.mono fun t ht => ?_
  exact ⟨⟨ht.1, t.oid.toNat_lt, ht.2⟩, by simp⟩

/-- A text of this many characters can be stored, whatever they are. -/
def textLimit : Nat := 2 ^ 60

theorem storable_of_length_le {s : String} (h : s.toList.length ≤ textLimit) : Storable s := by
  have hle := Text.length_encode_le s.toList
  unfold Storable
  unfold textLimit at h
  omega

theorem storable_rfc3339 (m : Time.Moment) : Storable (String.ofList m.rfc3339) := by
  have hle := m.length_rfc3339_le
  refine storable_of_length_le ?_
  rw [String.toList_ofList]
  unfold textLimit
  omega

/-- Every time is read back. -/
theorem restores_time : timeCodec.Restores fun _ => True := by
  refine restores_text.convert.mono fun m _ => ⟨storable_rfc3339 m, ?_⟩
  rw [String.toList_ofList, Time.readStored_rfc3339]

namespace Record

/-- All that a record contains can be stored. -/
structure Fits (r : Record) : Prop where
  id : Storable r.id
  server : Storable r.server
  beginWal : ∀ s, r.beginWal = some s → Storable s
  endWal : ∀ s, r.endWal = some s → Storable s
  count : r.tablespaces.length < 256 ^ 8
  tablespaces : ∀ t ∈ r.tablespaces, t.Fits
  error : ∀ s, r.error = some s → Storable s

theorem restores_codec : codec.Restores Fits := by
  refine (restores_text.pair (restores_text.pair (restores_status.pair (restores_time.pair
    (restores_time.option.pair (restores_text.option.pair (restores_text.option.pair
      (restores_tablespace.list.pair restores_text.option)))))))).convert.mono fun r h => ?_
  exact ⟨⟨h.id, h.server, trivial, trivial, fun _ _ => trivial, h.beginWal, h.endWal,
    ⟨h.count, h.tablespaces⟩, h.error⟩, rfl⟩

/-- **A record is read back from its bytes, whatever follows them.** -/
theorem decode_append {r : Record} (h : r.Fits) (rest : Bytes) :
    decode (r.encode ++ rest) = .ok r := by
  unfold decode encode
  rw [restores_codec r rest h]
  rfl

theorem decode_encode {r : Record} (h : r.Fits) : decode r.encode = .ok r := by
  have hread := decode_append h []
  rwa [List.append_nil] at hread

end Record

end BackupFleet.Catalog
