import TrackCatalog.CommandLine.Program
import TrackCatalog.Proofs.Emit.ShardName

/-!
# What the line about a track tells

The line about a track is fixed here by what stands in it, not by how it is put together: the hash,
the name between quotation marks, slot and type in decimal, the course and the music. The course is
the one that the table for the type lists for the slot, and otherwise the line says why there is
none.

* `CourseShown`, `TrackShown`: the text of a course, and the line.
* `courseShown_iff`, `trackShown_iff`: the program writes these texts and no others.
* `TrackShown.hash_eq`: no two hashes share a line.
-/

namespace TrackCatalog.CommandLine

variable {slot kind : UInt32} {text line : String} {h : Hash} {k k' : Track}

/-- What is said about the course of a slot of a type: its number in two hexadecimal digits, that
the slot is none, or why no course belongs to it. -/
inductive CourseShown (slot kind : UInt32) : String → Prop
  | unassigned (unplaced : slot = 0) : CourseShown slot kind "unassigned"
  | race {course : UInt8} (isRace : kind = 1) (listed : Course.raceTable.lookup slot = some course) :
      CourseShown slot kind ("0x" ++ Bytes.toHex [course])
  | battle {course : UInt8} (isBattle : kind = 2)
      (listed : Course.battleTable.lookup slot = some course) :
      CourseShown slot kind ("0x" ++ Bytes.toHex [course])
  | noTrackSlot (placed : slot ≠ 0) (isRace : kind = 1)
      (unlisted : Course.raceTable.lookup slot = none) :
      CourseShown slot kind ("invalid (invalid track slot id: " ++ toString slot ++ ")")
  | noArenaSlot (placed : slot ≠ 0) (isBattle : kind = 2)
      (unlisted : Course.battleTable.lookup slot = none) :
      CourseShown slot kind ("invalid (invalid arena slot id: " ++ toString slot ++ ")")
  | noKind (placed : slot ≠ 0) (noRace : kind ≠ 1) (noBattle : kind ≠ 2) :
      CourseShown slot kind ("invalid (unknown slot kind: " ++ toString kind ++ ")")

/-- The line tells the hash, the name, the slot, the type, the course and the music of a track, in
this order. -/
inductive TrackShown (k : Track) : String → Prop
  | intro {course : String} (courseShown : CourseShown k.slot k.kind course) :
      TrackShown k (k.hash.toHex ++ ": \"" ++ k.name ++ "\" slot " ++ toString k.slot ++ " type " ++
        toString k.kind ++ " course " ++ course ++ " music " ++ k.music.elim "default" toString)

/-! ## The course -/

theorem courseText_eq (course : UInt8) : courseText course = "0x" ++ Bytes.toHex [course] := by
  rw [← String.toList_inj, String.toList_append, Bytes.toList_toHex]
  simp [courseText, Bytes.hexPair]

/-- A slot that is listed is not 0. -/
theorem placed_of_listed {course : UInt8}
    (listed : Course.raceTable.lookup slot = some course ∨
      Course.battleTable.lookup slot = some course) : slot ≠ Course.unassignedSlot := by
  rintro rfl
  rcases listed with listed | listed <;> cases listed

theorem not_race_of_battle (isBattle : kind = Course.battleKind) : kind ≠ Course.raceKind := by
  rw [isBattle]
  decide

/-- The course of a track is shown by the words that belong to it. -/
theorem CourseShown.describeCourse_eq (h : CourseShown k.slot k.kind text) :
    describeCourse k = text := by
  unfold describeCourse Track.course Course.ofSlot
  cases h with
  | unassigned unplaced =>
    change k.slot = Course.unassignedSlot at unplaced
    rw [if_pos unplaced]
  | race isRace listed =>
    change k.kind = Course.raceKind at isRace
    rw [if_neg (placed_of_listed (.inl listed)), if_pos isRace, listed]
    exact courseText_eq _
  | battle isBattle listed =>
    change k.kind = Course.battleKind at isBattle
    rw [if_neg (placed_of_listed (.inr listed)), if_neg (not_race_of_battle isBattle),
      if_pos isBattle, listed]
    exact courseText_eq _
  | noTrackSlot placed isRace unlisted =>
    change k.slot ≠ Course.unassignedSlot at placed
    change k.kind = Course.raceKind at isRace
    rw [if_neg placed, if_pos isRace, unlisted]
    rfl
  | noArenaSlot placed isBattle unlisted =>
    change k.slot ≠ Course.unassignedSlot at placed
    change k.kind = Course.battleKind at isBattle
    rw [if_neg placed, if_neg (not_race_of_battle isBattle), if_pos isBattle, unlisted]
    rfl
  | noKind placed noRace noBattle =>
    change k.slot ≠ Course.unassignedSlot at placed
    change k.kind ≠ Course.raceKind at noRace
    change k.kind ≠ Course.battleKind at noBattle
    rw [if_neg placed, if_neg noRace, if_neg noBattle]
    rfl

/-- Every slot of every type has words for its course. -/
theorem exists_courseShown (slot kind : UInt32) : ∃ text, CourseShown slot kind text := by
  by_cases placed : slot = 0
  · exact ⟨_, .unassigned placed⟩
  by_cases isRace : kind = 1
  · cases hlisted : Course.raceTable.lookup slot with
    | some course => exact ⟨_, .race isRace hlisted⟩
    | none => exact ⟨_, .noTrackSlot placed isRace hlisted⟩
  by_cases isBattle : kind = 2
  · cases hlisted : Course.battleTable.lookup slot with
    | some course => exact ⟨_, .battle isBattle hlisted⟩
    | none => exact ⟨_, .noArenaSlot placed isBattle hlisted⟩
  exact ⟨_, .noKind placed isRace isBattle⟩

/-- **A course is shown as the program describes it**, and in no other way. -/
theorem courseShown_iff : CourseShown k.slot k.kind text ↔ describeCourse k = text := by
  refine ⟨CourseShown.describeCourse_eq, ?_⟩
  rintro rfl
  obtain ⟨text, htext⟩ := exists_courseShown k.slot k.kind
  rwa [htext.describeCourse_eq]

/-! ## The line -/

/-- The program writes the fields of a track with these words between them. -/
theorem describeTrack_eq (k : Track) :
    describeTrack k = k.hash.toHex ++ ": \"" ++ k.name ++ "\" slot " ++ toString k.slot ++ " type " ++
      toString k.kind ++ " course " ++ describeCourse k ++ " music " ++
        k.music.elim "default" toString := by
  rw [← String.toList_inj]
  unfold describeTrack
  cases k.music <;> simp [toString]

/-- **The line about a track is the one that the program writes.** -/
theorem trackShown_iff : TrackShown k line ↔ describeTrack k = line := by
  rw [describeTrack_eq]
  constructor
  · rintro ⟨hcourse⟩
    rw [courseShown_iff.1 hcourse]
  · rintro rfl
    exact .intro (courseShown_iff.2 rfl)

/-- The line starts with the hash, and goes on with a colon. -/
theorem TrackShown.toList_eq (hk : TrackShown k line) :
    ∃ rest, line.toList = k.hash.toHex.toList ++ ':' :: rest := by
  obtain ⟨hcourse⟩ := hk
  simp only [String.append_assoc]
  rw [String.toList_append, String.toList_append]
  exact ⟨_, rfl⟩

/-- **No two hashes share a line.** -/
theorem TrackShown.hash_eq (hk : TrackShown k line) (hk' : TrackShown k' line) :
    k.hash = k'.hash := by
  obtain ⟨rest, hrest⟩ := hk.toList_eq
  obtain ⟨rest', hrest'⟩ := hk'.toList_eq
  have hlength : k.hash.toHex.toList.length = k'.hash.toHex.toList.length := by
    rw [k.hash.length_toList_toHex, k'.hash.length_toList_toHex]
  have happend := hrest.symm.trans hrest'
  exact Hash.toHex_injective (String.toList_inj.1 (List.append_inj happend hlength).1)

end TrackCatalog.CommandLine
