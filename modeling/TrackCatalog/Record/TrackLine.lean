import TrackCatalog.Record.Fields
import TrackCatalog.Track

/-!
# Track lines

A track line has sixteen fields, of which eight count:

`hash|id|_|_|type|slot|music|_|_|tag|name|_|version|_|_|_`

* `Track.ofLine`: the track of a line. Reading is strict, and of several bad fields the first in
  the order music, hash, id, slot, type is reported.
* `Track.toLine`: writes a track as such a line.
-/

namespace TrackCatalog

/-- The name shown in the game: the tag and a space, if there is a tag, then the name, cut to
`maxLen` characters. -/
def displayName (tag name : String) (maxLen : Nat) : String :=
  let full := if tag.isEmpty then name else tag ++ " " ++ name
  .ofList (full.toList.take maxLen)

namespace Track

/-- Reads the music field: nothing and 0 both mean that the music follows the slot. -/
def readMusic (value : String) : Except RecordError (Option UInt32) :=
  let value := Text.trim value
  if value.isEmpty then .ok none
  else (Record.readNumber .music value).map fun n => if n = 0 then none else some n

/-- Reads the version field, which may be empty. -/
def readVersion (value : String) : Option String :=
  let value := Text.trim value
  if value.isEmpty then none else some value

/-- Reads a track from the fields of a line. -/
def ofFields (maxLen : Nat) : List String → Except RecordError Track
  | [hash, id, _, _, kind, slot, music, _, _, tag, name, _, version, _, _, _] => do
    let music ← readMusic music
    let hash ← Record.readHash hash
    let id ← Record.readNumber .externalId id
    let slot ← Record.readNumber .slot slot
    let kind ← Record.readNumber .kind kind
    return {
      hash, slot, kind, music
      externalId := some id
      name := displayName tag name maxLen
      version := readVersion version }
  | fs => .error (.fieldCount 16 fs.length)

/-- Reads a track line; the name is cut to `maxLen` characters. -/
def ofLine (maxLen : Nat) (line : String) : Except RecordError Track :=
  ofFields maxLen (Record.fields line)

/-- A number field, empty when there is no number. -/
def writeNumber? : Option UInt32 → String
  | some n => toString n
  | none => ""

/-- The sixteen fields of a track: no tag, and nothing in the fields that do not count. -/
def toFields (t : Track) : List String :=
  [t.hash.toHex, writeNumber? t.externalId, "", "", toString t.kind, toString t.slot,
    writeNumber? t.music, "", "", "", t.name, "", t.version.getD "", "", "", ""]

/-- Writes a track as a line. -/
def toLine (t : Track) : String := Record.ofFields t.toFields

end Track

end TrackCatalog
