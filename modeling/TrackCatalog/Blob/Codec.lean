import TrackCatalog.Blob.Varint

/-!
# Codecs

A codec writes values of one type as bytes and reads them back from the front of a byte string,
giving the bytes that follow. Codecs are put together from a few parts, as the records are.

* `Codec.word`, `Codec.text`: the leaves.
* `Codec.option`, `Codec.list`, `Codec.pair`: the parts of a record.
* `Codec.map`: the same bytes for another type of values.
-/

namespace TrackCatalog

/-- A way to write values as bytes and to read them back. -/
structure Codec (α : Type) where
  encode : α → Bytes
  decode : Bytes → Except WireFault (α × Bytes)

namespace Codec

variable {α β : Type}

/-- The first `n` bytes and those that follow. -/
def take (n : Nat) (bytes : Bytes) : Except WireFault (Bytes × Bytes) :=
  if n ≤ bytes.length then .ok (bytes.take n, bytes.drop n) else .error .endOfInput

/-- A 32-bit number in variable length. -/
def word : Codec UInt32 where
  encode n := Varint.encode .word n.toNat
  decode bytes := do
    let (n, rest) ← Varint.decode .word bytes
    return (UInt32.ofNat n, rest)

/-- A text: its number of bytes, then its UTF-8 form. -/
def text : Codec String where
  encode s := Varint.encode .length (Bytes.ofText s).length ++ Bytes.ofText s
  decode bytes := do
    let (n, rest) ← Varint.decode .length bytes
    let (body, rest) ← take n rest
    match Bytes.text? body with
    | some s => return (s, rest)
    | none => throw .badText

/-- A value that may be absent: a byte 0, or a byte 1 and the value. -/
def option (c : Codec α) : Codec (Option α) where
  encode
    | none => [0]
    | some a => 1 :: c.encode a
  decode
    | [] => .error .endOfInput
    | b :: rest =>
      if b = 0 then .ok (none, rest)
      else if b = 1 then do
        let (a, rest) ← c.decode rest
        return (some a, rest)
      else .error .badOption

/-- Reads `n` values in a row. -/
def decodeMany (c : Codec α) : Nat → Bytes → Except WireFault (List α × Bytes)
  | 0, bytes => .ok ([], bytes)
  | n + 1, bytes => do
    let (a, rest) ← c.decode bytes
    let (as, rest) ← c.decodeMany n rest
    return (a :: as, rest)

/-- A list: its length, then its items. -/
def list (c : Codec α) : Codec (List α) where
  encode as := Varint.encode .length as.length ++ as.flatMap c.encode
  decode bytes := do
    let (n, rest) ← Varint.decode .length bytes
    c.decodeMany n rest

/-- One value after the other. -/
def pair (c : Codec α) (d : Codec β) : Codec (α × β) where
  encode p := c.encode p.1 ++ d.encode p.2
  decode bytes := do
    let (a, rest) ← c.decode bytes
    let (b, rest) ← d.decode rest
    return ((a, b), rest)

/-- The bytes of `c` for values that correspond to those of `c`. -/
def map (c : Codec α) (ofOld : α → β) (toOld : β → α) : Codec β where
  encode b := c.encode (toOld b)
  decode bytes := do
    let (a, rest) ← c.decode bytes
    return (ofOld a, rest)

end Codec

end TrackCatalog
