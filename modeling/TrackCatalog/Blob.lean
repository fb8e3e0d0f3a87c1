import TrackCatalog.Blob.Artifact

/-!
# Blobs

A blob is a header of twelve bytes, eight of them a mark and four the schema version with the low
byte first, and then the payload that a codec writes.

* `Blob.encode`: the blob of a value.
* `Blob.payload`: checks the header and gives what follows it.
* `Blob.decode`: reads a value; bytes after it are ignored.
-/

namespace TrackCatalog

/-- Why a blob cannot be read. -/
inductive BlobError where
  | truncated (size : Nat)
  | magic
  | version (found : Nat)
  | payload (fault : WireFault)
  deriving DecidableEq, Repr

namespace Blob

/-- The mark at the start of every blob. -/
def magic : Bytes := [0x54, 0x52, 0x41, 0x43, 0x4B, 0x44, 0x42, 0x00]

/-- The schema version that is written and read. -/
def schemaVersion : Nat := 1

/-- The four bytes of a version, low byte first. -/
def versionBytes (n : Nat) : Bytes :=
  [UInt8.ofNat n, UInt8.ofNat (n / 256), UInt8.ofNat (n / 65536), UInt8.ofNat (n / 16777216)]

/-- The number that bytes spell, low byte first. -/
def versionOf (bytes : Bytes) : Nat := bytes.foldr (fun b n => b.toNat + 256 * n) 0

/-- The header of every blob. -/
def header : Bytes := magic ++ versionBytes schemaVersion

/-- The blob of a value. -/
def encode {α : Type} (c : Codec α) (a : α) : Bytes := header ++ c.encode a

/-- Checks the header and gives the bytes after it. -/
def payload (blob : Bytes) : Except BlobError Bytes :=
  if blob.length < 12 then .error (.truncated blob.length)
  else if blob.take 8 ≠ magic then .error .magic
  else
    let found := versionOf ((blob.drop 8).take 4)
    if found ≠ schemaVersion then .error (.version found) else .ok (blob.drop 12)

/-- Reads a value from a blob. -/
def decode {α : Type} (c : Codec α) (blob : Bytes) : Except BlobError α :=
  match payload blob with
  | .error e => .error e
  | .ok body =>
    match c.decode body with
    | .error fault => .error (.payload fault)
    | .ok (a, _) => .ok a

end Blob

/-- The refusal in words. -/
def BlobError.message : BlobError → String
  | truncated size => s!"{size} bytes is shorter than the blob header"
  | magic => "bad magic bytes"
  | version found => s!"schema version {found}, expected {Blob.schemaVersion}"
  | payload fault => s!"undecodable payload: {fault.message}"

end TrackCatalog
