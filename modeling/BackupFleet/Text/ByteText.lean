import BackupFleet.Text.Utf8

/-!
# `BackupFleet.Text.ByteText` — bytes seen as characters

A shell handles bytes of any kind, but its syntax is made of characters. A byte text has one character
for each byte, the character with the number of the byte; every byte string has one.

## Contents

* `ofBytes`, `toBytes` — byte texts of byte strings and back;
* `bytesOf`, `textOf` — byte texts of texts and back.
-/

namespace BackupFleet.Text

/-- The byte text of a byte string. -/
def ofBytes (bytes : Bytes) : List Char := bytes.map fun b => Char.ofNat b.toNat

/-- The byte string of a byte text. -/
def toBytes (cs : List Char) : Bytes := cs.map fun c => UInt8.ofNat c.toNat

/-- The byte text of a text. -/
def bytesOf (s : String) : List Char := ofBytes (encode s.toList)

/-- The text of a byte text. -/
def textOf (cs : List Char) : String := String.ofList (decodeLossy (toBytes cs))

theorem toNat_ofNat_toNat (b : UInt8) : (Char.ofNat b.toNat).toNat = b.toNat := by
  have h : b.toNat.isValidChar := .inl (Nat.lt_trans b.toNat_lt (by decide))
  rw [Char.ofNat, dif_pos h]
  rfl

@[simp] theorem toBytes_ofBytes (bytes : Bytes) : toBytes (ofBytes bytes) = bytes := by
  simp [toBytes, ofBytes, Function.comp_def, toNat_ofNat_toNat]

@[simp] theorem textOf_bytesOf (s : String) : textOf (bytesOf s) = s := by
  simp [textOf, bytesOf]

end BackupFleet.Text
