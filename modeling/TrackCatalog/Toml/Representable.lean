import TrackCatalog.Toml.Scalar

/-!
# Representable TOML values

The grammar of TOML takes numbers that no word of 64 bits holds, and some spellings that name no
number. A value is representable when neither occurs in it, so that the whole of it can be held.

* `Value.isRepresentable`, `Entries.isRepresentable`: the check.
-/

namespace TrackCatalog.Toml

open Text (Located)

/-- The number fits a word of 64 bits, one of them the sign. -/
def fitsWord (i : Int) : Bool :=
  let bound : Int := (UInt64.size / 2 : Nat)
  decide (-bound ≤ i) && decide (i < bound)

/-- The value is a text that spells a date. -/
def Value.spellsDate : Value → Bool
  | .string s => Scalar.isDatetime s.toList
  | _ => false

/-- The value under the date key when that key is the first in the order of keys: the table then
stands for a date. -/
def Entries.date? (es : Entries) : Option Value :=
  match es.sorted with
  | (key, v) :: _ => if key.item = dateKey then some v.item else none
  | [] => none

mutual

/-- Every number in the value has a value of 64 bits, and every table that stands for a date holds
one. -/
def Value.isRepresentable : Value → Bool
  | .integer value => value.any fitsWord
  | .float value => value.isSome
  | .array _ items => Value.areRepresentable items
  | .table _ es =>
    match Entries.date? es with
    | some v => v.spellsDate
    | none => Entries.isRepresentable es
  | .string _ | .boolean _ | .datetime => true

/-- Every one of these values is representable. -/
def Value.areRepresentable : List (Located Value) → Bool
  | [] => true
  | ⟨_, v⟩ :: vs => v.isRepresentable && Value.areRepresentable vs

/-- Every value under a key is representable. -/
def Entries.isRepresentable : List (Located String × Located Value) → Bool
  | [] => true
  | (_, ⟨_, v⟩) :: es => v.isRepresentable && Entries.isRepresentable es

end

end TrackCatalog.Toml
