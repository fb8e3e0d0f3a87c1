import TrackCatalog.Pipeline.Run
import TrackCatalog.Proofs.Assembly.Closure
import TrackCatalog.Proofs.Assembly.Merging
import TrackCatalog.Proofs.Record.TrackLine
import TrackCatalog.Proofs.Source.Lines
import TrackCatalog.Proofs.Text.Utf8

/-!
# What a catalog holds

Merging and picking choose among the tracks that were read and change none. So each track of a
catalog is, in every field, what one line of a track file says, and has whatever every such track
has.

* `TrackSource.wellFormed_of_hasLine`: a track on a line is well formed.
* `PipelineConfig.hasLine_of_mem_merge`: each merged track is on a line.
* `PipelineConfig.catalog_tracks_stand_on_lines`: both, for the tracks of a catalog.
-/

namespace TrackCatalog

variable {t : FileTree} {k : Track}

/-- **A track on a line is well formed**: the line holds no line feed, as those are where lines
end. -/
theorem TrackSource.wellFormed_of_hasLine {s : TrackSource} (h : s.HasLine t k) :
    k.WellFormed s.maxNameLen := by
  obtain ⟨bytes, i, line, text, -, -, hline, htext, -, hk⟩ := h
  have hfeed : 10 ∉ line := Text.not_mem_of_mem_lines (List.mem_of_getElem? hline)
  exact Track.wellFormed_of_ofLine hk (Bytes.newline_not_mem_of_text? htext hfeed)

namespace PipelineConfig

variable {c : PipelineConfig} {m : MergedTracks}

/-- The sources that tracks are read from, the primary one first. -/
def trackSources (c : PipelineConfig) : List TrackSource :=
  (c.sources.primary.source :: (c.sources.supplemental.map OptionalSourceConfig.source).toList).map
    fun s => ⟨s, c.names.maxLen⟩

theorem maxNameLen_of_mem_trackSources {s : TrackSource} (h : s ∈ c.trackSources) :
    s.maxNameLen = c.names.maxLen := by
  obtain ⟨_, -, rfl⟩ := List.mem_map.1 h
  rfl

/-- **Each merged track is on a line of its source.** -/
theorem hasLine_of_mem_merge (h : (c.assembler.tracks.merge t).result = .ok m)
    (hk : k ∈ m.tracks) : ∃ s ∈ c.trackSources, s.HasLine t k := by
  rcases TrackSources.mem_of_mem_merge h hk with ⟨primary, hread, hk⟩ | ⟨x, extra, hx, hread, hk⟩
  · refine ⟨_, List.mem_cons_self, ?_⟩
    exact TrackSource.hasLine_of_holds (TrackSource.readAll_eq_ok_iff.1 hread) hk
  · -- a supplemental source of the assembler is the one that is configured
    obtain ⟨o, ho, rfl⟩ := Option.map_eq_some_iff.1 hx
    refine ⟨⟨o.source, c.names.maxLen⟩, ?_, ?_⟩
    · simp [trackSources, ho]
    · exact TrackSource.hasLine_of_holds (TrackSource.readAll_eq_ok_iff.1 hread) hk

/-- **Every track of a catalog is placed, is well formed, and stands on a line** of a track file
behind its header, whatever else the files hold. -/
theorem catalog_tracks_stand_on_lines {x : Assembled}
    (h : (c.assembler.assemble t).result = .ok x) :
    ∀ k ∈ x.catalog.tracks, k.slot ≠ 0 ∧ k.WellFormed c.names.maxLen ∧
      ∃ s ∈ c.trackSources, s.HasLine t k := by
  obtain ⟨m, -, -, hm, -, -, rfl⟩ := Assembler.of_assemble h
  intro k hk
  obtain ⟨hmerged, hplaced⟩ := mem_of_mem_emittedTracks hk
  obtain ⟨s, hs, hline⟩ := hasLine_of_mem_merge hm hmerged
  have hformed := TrackSource.wellFormed_of_hasLine hline
  rw [maxNameLen_of_mem_trackSources hs] at hformed
  exact ⟨Track.isAssigned_iff.1 hplaced, hformed, s, hs, hline⟩

namespace Cut

/-- A line behind a header, with a name that is cut inside a word of more bytes than characters. -/
def tree : FileTree :=
  (FileTree.empty.putFile ["tracks"] (Bytes.ofText ("tracks\n" ++
    "aaaaaaaaaaaaaaaaaaaaaaaaaaaaaaaaaaaaaaaa|7|||1|11|0|||CT|größer|| v2 |||\r\n"))).putFile
    ["references"] []

/-- Names of six characters. -/
def config : PipelineConfig :=
  ⟨⟨⟨"tracks", 1⟩, none, ⟨"references", 0⟩⟩, ⟨6⟩, ⟨"ZPd"⟩, ⟨"out", .sharded, "catalog.bin"⟩⟩

/-- The track on the line. -/
def track : Track := ⟨Assembler.Repeated.taken, some 7, "CT grö", 11, 1, none, some "v2"⟩

/-- The track is all there is in the catalog. -/
theorem cut_track_stands_on_line :
    (config.assembler.assemble tree).result = .ok ⟨⟨[track], []⟩, []⟩ ∧ track.slot ≠ 0 ∧
      track.WellFormed 6 ∧ ∃ s ∈ config.trackSources, s.HasLine tree track :=
  have h : (config.assembler.assemble tree).result = .ok ⟨⟨[track], []⟩, []⟩ := by decide +kernel
  ⟨h, catalog_tracks_stand_on_lines h track (List.mem_singleton_self track)⟩

end Cut

end PipelineConfig

end TrackCatalog
