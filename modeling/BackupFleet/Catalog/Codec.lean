import BackupFleet.Catalog.Record
import BackupFleet.Text.Utf8
import BackupFleet.Time.Reader

/-!
# `BackupFleet.Catalog.Codec` — records as bytes

A record is stored as its fields in a fixed order. Numbers are little endian words; a text is its length
and its bytes; an optional value is a zero byte, or a one byte and the value; a list is its length and
its items; a time is stored as text. A reader takes a value off the front of its input and ignores what
follows, so the record may be followed by anything.

A `Codec` holds both directions of one form, and larger codecs are put together from smaller ones.

## Contents

* `DecodeError` — what can be wrong with stored bytes;
* `Codec`, `word`, `text`, `option`, `list`, `pair`, `convert` — forms and their combination;
* `Record.codec`, `Record.encode`, `Record.decode` — records.
-/

namespace BackupFleet.Catalog

/-! ## Errors -/

/-- What can be wrong with stored bytes. -/
inductive DecodeError where
  | truncated
  | badFlag (byte : UInt8)
  | badStatus (code : Nat)
  | badText (at_ : Text.Utf8Error)
  | badTime (cause : Time.TimeError)
deriving DecidableEq

/-- The wording of an error. -/
def DecodeError.message : DecodeError → String
  | truncated => "io error: failed to fill whole buffer"
  | badFlag byte => "tag for enum is not valid, found " ++ toString byte.toNat
  | badStatus code =>
    "invalid value: integer `" ++ toString code ++ "`, expected variant index 0 <= i < 4"
  | badText e =>
    "string is not valid utf8: " ++ match e.width with
      | some w =>
        "invalid utf-8 sequence of " ++ toString w ++ " bytes from index " ++ toString e.index
      | none => "incomplete utf-8 byte sequence from index " ++ toString e.index
  | badTime cause => cause.message

/-! ## Forms -/

/-- A form of values as bytes: how they are written, and how one is read off the front. -/
structure Codec (α : Type) where
  write : α → Bytes
  read : Bytes → Except DecodeError (α × Bytes)

namespace Codec

/-- The `width` low bytes of a number, the lowest first. -/
def wordBytes : Nat → Nat → Bytes
  | 0, _ => []
  | width + 1, n => UInt8.ofNat n :: wordBytes width (n / 256)

/-- The number of which these are the bytes, the lowest first. -/
def wordValue (bytes : Bytes) : Nat := bytes.foldr (fun b n => b.toNat + 256 * n) 0

/-- The first `width` bytes, and the rest. -/
def takeBytes (width : Nat) (bytes : Bytes) : Except DecodeError (Bytes × Bytes) :=
  if bytes.length < width then .error .truncated else .ok (bytes.take width, bytes.drop width)

/-- Numbers below 256 to the power of `width`. -/
def word (width : Nat) : Codec Nat where
  write := wordBytes width
  read bytes := do
    let (bytes, rest) ← takeBytes width bytes
    pure (wordValue bytes, rest)

/-- One form after another. -/
def pair {α β : Type} (a : Codec α) (b : Codec β) : Codec (α × β) where
  write v := a.write v.1 ++ b.write v.2
  read bytes := do
    let (x, rest) ← a.read bytes
    let (y, rest) ← b.read rest
    pure ((x, y), rest)

/-- The form of `α` for values of `β`. -/
def convert {α β : Type} (c : Codec α) (lower : β → α) (lift : α → Except DecodeError β) : Codec β where
  write v := c.write (lower v)
  read bytes := do
    let (a, rest) ← c.read bytes
    pure (← lift a, rest)

/-- A text: its length and its bytes. -/
def text : Codec String where
  write s :=
    let bytes := Text.encode s.toList
    (word 8).write bytes.length ++ bytes
  read bytes := do
    let (length, rest) ← (word 8).read bytes
    let (bytes, rest) ← takeBytes length rest
    match Text.decode bytes with
    | .ok cs => pure (String.ofList cs, rest)
    | .error e => .error (.badText e)

/-- A value that may be missing. -/
def option {α : Type} (c : Codec α) : Codec (Option α) where
  write
    | none => [0]
    | some a => 1 :: c.write a
  read
    | [] => .error .truncated
    | flag :: rest =>
      if flag = 0 then .ok (none, rest)
      else if flag = 1 then (c.read rest).map fun (a, rest) => (some a, rest)
      else .error (.badFlag flag)

/-- A number of values. -/
def readMany {α : Type} (c : Codec α) : Nat → Bytes → Except DecodeError (List α × Bytes)
  | 0, bytes => .ok ([], bytes)
  | n + 1, bytes => do
    let (a, rest) ← c.read bytes
    let (as, rest) ← readMany c n rest
    pure (a :: as, rest)

/-- A list: its length and its values. -/
def list {α : Type} (c : Codec α) : Codec (List α) where
  write l := (word 8).write l.length ++ l.flatMap c.write
  read bytes := do
    let (length, rest) ← (word 8).read bytes
    readMany c length rest

end Codec

/-! ## Records -/

/-- The number of a status. -/
def Status.code : Status → Nat
  | empty => 0
  | started => 1
  | failed => 2
  | done => 3

/-- The status with a number. -/
def Status.ofCode : Nat → Except DecodeError Status
  | 0 => .ok .empty
  | 1 => .ok .started
  | 2 => .ok .failed
  | 3 => .ok .done
  | code => .error (.badStatus code)

@[simp] theorem Status.ofCode_code (s : Status) : ofCode s.code = .ok s := by cases s <;> rfl

/-- A status: its number in four bytes. -/
def Status.codec : Codec Status := (Codec.word 4).convert code ofCode

/-- A time: its RFC 3339 form. -/
def timeCodec : Codec Time.Moment :=
  Codec.text.convert (fun m => String.ofList m.rfc3339) fun s =>
    match Time.readStored s.toList with
    | .ok m => .ok m
    | .error e => .error (.badTime e)

/-- A tablespace: name, object id in four bytes, location. -/
def Tablespace.codec : Codec Tablespace :=
  (Codec.text.pair ((Codec.word 4).pair Codec.text)).convert
    (fun t => (t.name, t.oid.toNat, t.location))
    (fun (name, oid, location) => .ok ⟨name, UInt32.ofNat oid, location⟩)

namespace Record

/-- The fields of a record in the order in which they are stored. -/
abbrev Fields :=
  String × String × Status × Time.Moment × Option Time.Moment × Option String × Option String ×
    List Tablespace × Option String

/-- The fields of a record. -/
def toFields (r : Record) : Fields :=
  (r.id, r.server, r.status, r.beginTime, r.endTime, r.beginWal, r.endWal, r.tablespaces, r.error)

/-- The record with these fields. -/
def ofFields : Fields → Record
  | (id, server, status, beginTime, endTime, beginWal, endWal, tablespaces, error) =>
    { id, server, status, beginTime, endTime, beginWal, endWal, tablespaces, error }

@[simp] theorem ofFields_toFields (r : Record) : ofFields r.toFields = r := rfl

/-- The form of a record. -/
def codec : Codec Record :=
  (Codec.text.pair (Codec.text.pair (Status.codec.pair (timeCodec.pair (timeCodec.option.pair
    (Codec.text.option.pair (Codec.text.option.pair (Tablespace.codec.list.pair
      Codec.text.option)))))))).convert toFields fun f => .ok (ofFields f)

/-- The bytes of a record. -/
def encode (r : Record) : Bytes := codec.write r

/-- The record at the start of some bytes. -/
def decode (bytes : Bytes) : Except DecodeError Record := (codec.read bytes).map (·.1)

end Record

end BackupFleet.Catalog
