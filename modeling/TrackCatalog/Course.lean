/-!
# Courses

A slot is written `CT`, cup and place, and stands for one course of the game: a race slot for one
of thirty-two tracks, a battle slot for one of ten arenas.

* `Course.ofSlot`: the course of a slot of a kind. Slot 0 has none, whatever the kind.
-/

namespace TrackCatalog

/-- Why a slot of a kind stands for no course. -/
inductive CourseError where
  | unknownKind (kind : UInt32)
  | invalidTrackSlot (slot : UInt32)
  | invalidArenaSlot (slot : UInt32)
  deriving DecidableEq, Repr

/-- The refusal in words. -/
def CourseError.message : CourseError → String
  | unknownKind kind => s!"unknown slot kind: {kind}"
  | invalidTrackSlot slot => s!"invalid track slot id: {slot}"
  | invalidArenaSlot slot => s!"invalid arena slot id: {slot}"

namespace Course

/-- The slot of a track that is not placed. -/
def unassignedSlot : UInt32 := 0

/-- The kind of race tracks. -/
def raceKind : UInt32 := 1

/-- The kind of battle arenas. -/
def battleKind : UInt32 := 2

/-- The courses of the race slots. -/
def raceTable : List (UInt32 × UInt8) :=
  [(11, 0x08), (12, 0x01), (13, 0x02), (14, 0x04), (21, 0x00), (22, 0x05), (23, 0x06), (24, 0x07),
    (31, 0x09), (32, 0x0F), (33, 0x0B), (34, 0x03), (41, 0x0E), (42, 0x0A), (43, 0x0C), (44, 0x0D),
    (51, 0x10), (52, 0x14), (53, 0x19), (54, 0x1A), (61, 0x1B), (62, 0x1F), (63, 0x17), (64, 0x12),
    (71, 0x15), (72, 0x1E), (73, 0x1D), (74, 0x11), (81, 0x18), (82, 0x16), (83, 0x13), (84, 0x1C)]

/-- The courses of the battle slots. -/
def battleTable : List (UInt32 × UInt8) :=
  [(11, 0x21), (12, 0x20), (13, 0x23), (14, 0x22), (15, 0x24), (21, 0x27), (22, 0x28), (23, 0x29),
    (24, 0x25), (25, 0x26)]

/-- The course of a slot of a kind. -/
def ofSlot (slot kind : UInt32) : Except CourseError (Option UInt8) :=
  if slot = unassignedSlot then .ok none
  else if kind = raceKind then
    match raceTable.lookup slot with
    | some course => .ok (some course)
    | none => .error (.invalidTrackSlot slot)
  else if kind = battleKind then
    match battleTable.lookup slot with
    | some course => .ok (some course)
    | none => .error (.invalidArenaSlot slot)
  else .error (.unknownKind kind)

example : ofSlot 11 1 = .ok (some 0x08) := rfl

example : ofSlot 11 2 = .ok (some 0x21) := rfl

end Course

end TrackCatalog
