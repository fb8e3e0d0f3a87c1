/-!
# Bytes

File contents and binary records are lists of bytes. Text becomes bytes by UTF-8, and bytes are
text only when they are the UTF-8 form of some text.
-/

namespace TrackCatalog

/-- A byte string. -/
abbrev Bytes := List UInt8

namespace Bytes

/-- The UTF-8 form of a text. -/
def ofText (text : String) : Bytes := text.toUTF8.data.toList

/-- The text whose UTF-8 form the bytes are, if there is one. -/
def text? (bytes : Bytes) : Option String := String.fromUTF8? ⟨bytes.toArray⟩

/-- The lowercase hexadecimal digit of a number below sixteen. -/
def hexDigit (n : Nat) : Char := if n < 10 then Char.ofNat (48 + n) else Char.ofNat (87 + n)

/-- Two lowercase hexadecimal digits per byte, high half first. -/
def toHex (bytes : Bytes) : String :=
  .ofList (bytes.flatMap fun b => [hexDigit (b.toNat / 16), hexDigit (b.toNat % 16)])

/-- Text read back from its own UTF-8 form is the text itself. -/
@[simp] theorem text?_ofText (text : String) : text? (ofText text) = some text := by
  simp only [text?, ofText, Array.toArray_toList]
  change String.fromUTF8? text.toByteArray = some text
  rw [String.fromUTF8?, dif_pos text.isValidUTF8]
  rfl

end Bytes

end TrackCatalog
