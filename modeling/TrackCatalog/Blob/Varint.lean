import TrackCatalog.Bytes

/-!
# Variable-length numbers

A number is written seven bits a byte, low bits first, with the high bit set on every byte but the
last. A `Width` says how many bytes a reader takes at most and which numbers fit.

* `Varint.encode`: the shortest form.
* `Varint.decode`: reads any form within the width, shortest or not, and gives back the bytes that
  follow. No number is read modulo anything: one that does not fit is refused.
-/

namespace TrackCatalog

/-- Why bytes are no record. -/
inductive WireFault where
  | endOfInput
  | badVarint
  | badOption
  | badText
  deriving DecidableEq, Repr

/-- The reason in words. -/
def WireFault.message : WireFault → String
  | endOfInput => "Hit the end of buffer, expected more data"
  | badVarint => "Found a varint that didn't terminate. Is the usize too big for this platform?"
  | badOption => "Found an Option discriminant that wasn't 0 or 1"
  | badText => "Tried to parse invalid utf-8"

namespace Varint

/-- The bytes a number may take, and the numbers that fit: those below the bound. -/
structure Width where
  maxBytes : Nat
  bound : Nat

/-- The width of the numbers in a record. -/
def Width.word : Width := ⟨5, UInt32.size⟩

/-- The width of the length of a text or list. -/
def Width.length : Width := ⟨10, UInt64.size⟩

/-- The form of a number in at most `budget + 1` bytes. -/
def encodeWithin : Nat → Nat → Bytes
  | 0, n => [UInt8.ofNat n]
  | budget + 1, n =>
    if n < 128 then [UInt8.ofNat n]
    else UInt8.ofNat (n % 128 + 128) :: encodeWithin budget (n / 128)

/-- The shortest form of a number of this width. -/
def encode (width : Width) (n : Nat) : Bytes := encodeWithin (width.maxBytes - 1) n

/-- Reads at most `budget` bytes, of which only the last may have its high bit clear. -/
def decodeWithin : Nat → Bytes → Except WireFault (Nat × Bytes)
  | 0, _ => .error .badVarint
  | _ + 1, [] => .error .endOfInput
  | budget + 1, b :: rest =>
    if b.toNat < 128 then .ok (b.toNat, rest)
    else
      match decodeWithin budget rest with
      | .ok (n, rest) => .ok (b.toNat - 128 + 128 * n, rest)
      | .error e => .error e

/-- Reads a number of this width. -/
def decode (width : Width) (bytes : Bytes) : Except WireFault (Nat × Bytes) :=
  match decodeWithin width.maxBytes bytes with
  | .ok (n, rest) => if n < width.bound then .ok (n, rest) else .error .badVarint
  | .error e => .error e

end Varint

end TrackCatalog
