import TrackCatalog.Proofs.CommandLine.Description
import TrackCatalog.Proofs.Pipeline.Layouts

/-!
# A build and a look at what it built

A build leaves a file, and inspecting it later shows what the build had in memory: the same counts,
and under each hash the track that the catalog resolves it to, in a line that no other of its tracks
has.

* `countsLine`, `aliasLine`: the lines that are printed beside the track.
* `Catalog.Closed.isSome_resolve?_iff`: which hashes lead to a track.
* `Catalog.hash_of_resolve?_eq_iff`: a hash leads to a track of its own when some track has it.
* `eq_of_trackShown`: among tracks with different hashes a line belongs to one.
* `inspect_agrees_with_run`: a run and an inspection of its destination.
-/

namespace TrackCatalog

namespace Catalog

variable {c : Catalog} {h : Hash} {k : Track}

theorem Closed.isSome_resolve?_iff (hc : c.Closed) :
    (c.resolve? h).isSome ↔
      (∃ k ∈ c.tracks, k.hash = h) ∨ ∃ e ∈ c.aliases, e.aliased = h := by
  rw [Option.isSome_iff_ne_none, ne_eq, hc.resolve?_eq_none_iff]
  constructor
  · intro hn
    by_cases ht : ∃ k ∈ c.tracks, k.hash = h
    · exact .inl ht
    · by_cases ha : ∃ e ∈ c.aliases, e.aliased = h
      · exact .inr ha
      · exact absurd ⟨fun k hk he => ht ⟨k, hk, he⟩, fun e he hh => ha ⟨e, he, hh⟩⟩ hn
  · rintro (⟨k, hk, he⟩ | ⟨e, he, hh⟩) ⟨hnone, hnone'⟩
    · exact hnone k hk he
    · exact hnone' e he hh

/-- A hash leads to a track of its own, and not by an alias, when some track has it. -/
theorem hash_of_resolve?_eq_iff (hk : c.resolve? h = some k) :
    k.hash = h ↔ ∃ k' ∈ c.tracks, k'.hash = h := by
  constructor
  · intro he
    exact ⟨k, mem_of_get? (get?_hash_of_resolve? hk), he⟩
  · rintro ⟨k', hm, he⟩
    have hsome : c.get? h ≠ none := fun hn => get?_eq_none_iff.1 hn k' hm he
    obtain ⟨u, hu⟩ := Option.ne_none_iff_exists'.1 hsome
    -- what is found directly is what the hash resolves to
    have := resolve?_of_get? hu
    rw [hk] at this
    cases this
    exact hash_of_get? hu

end Catalog

namespace CommandLine

variable {path line : String} {s : EmitSummary} {h : Hash} {k k' : Track} {c : Catalog}

/-- The line with the counts. -/
def countsLine (path : String) (s : EmitSummary) : String :=
  s!"{path}: {s.tracks} tracks, {s.aliases} aliases"

/-- The line that says that a hash stands for a track with another one. -/
def aliasLine (h : Hash) (k : Track) : String := s!"{h.toHex} is an alias of {k.hash.toHex}"

theorem toList_aliasLine (h : Hash) (k : Track) :
    (aliasLine h k).toList = h.toHex.toList ++ " is an alias of ".toList ++ k.hash.toHex.toList := by
  simp [aliasLine, toString]

/-- The counts end in a letter that is no digit of a hash. -/
theorem aliasLine_ne_countsLine : aliasLine h k ≠ countsLine path s := by
  intro he
  obtain ⟨front, hfront⟩ : ∃ front, countsLine path s = front ++ " aliases" := ⟨_, rfl⟩
  have hcounts : (countsLine path s).toList.getLast? = some 's' := by
    have hend : " aliases".toList.getLast? = some 's' := by decide
    rw [hfront, String.toList_append, List.getLast?_append, hend, Option.some_or]
  have hdigit : ∀ n < 16, Bytes.hexDigit n ≠ 's' := by decide
  rw [← he, toList_aliasLine, List.getLast?_append,
    List.getLast?_eq_some_getLast k.hash.toList_toHex_ne_nil, Option.some_or,
    Option.some.injEq] at hcounts
  obtain ⟨n, hn, hc⟩ := Bytes.exists_hexDigit_of_mem_toHex
    (List.getLast_mem k.hash.toList_toHex_ne_nil)
  exact hdigit n hn (hc.symm.trans hcounts)

/-- Behind its hash the line about a track goes on otherwise than one about an alias. -/
theorem aliasLine_ne_of_trackShown (hk : TrackShown k line) : aliasLine h k ≠ line := by
  rintro rfl
  obtain ⟨rest, hrest⟩ := hk.toList_eq
  rw [toList_aliasLine, List.append_assoc] at hrest
  have hlen : h.toHex.toList.length = k.hash.toHex.toList.length := by
    rw [h.length_toList_toHex, k.hash.length_toList_toHex]
  have htail := (List.append_inj hrest hlen).2
  simp at htail

/-- Among tracks with different hashes a line belongs to one. -/
theorem eq_of_trackShown {tracks : List Track} (hn : (tracks.map Track.hash).Nodup)
    (hm : k ∈ tracks) (hm' : k' ∈ tracks) (hk : TrackShown k line) (hk' : TrackShown k' line) :
    k' = k :=
  List.inj_on_of_nodup_map hn hm' hm (hk'.hash_eq hk)

/-- What inspecting a catalog file prints, when it can be read. -/
theorem inspect_of_readBlob {t : FileTree} (hread : readBlob .catalog t path = .ok c)
    (hash : Option Hash) :
    inspect path hash t =
      ⟨t, [], (inspectCatalog path c hash).1, (inspectCatalog path c hash).2⟩ := by
  unfold inspect
  rw [hread]

theorem inspectCatalog_none (path : String) (c : Catalog) :
    inspectCatalog path c none = ([countsLine path c.summary], none) := rfl

/-- What is printed for a hash depends on what the catalog resolves it to. -/
theorem inspectCatalog_some (path : String) (c : Catalog) (h : Hash) :
    inspectCatalog path c (some h) =
      match c.resolve? h with
      | some k =>
        (countsLine path c.summary ::
          ((if k.hash = h then [] else [aliasLine h k]) ++ [describeTrack k]), none)
      | none => ([countsLine path c.summary], some ⟨s!"{h.toHex} is not in the catalog", []⟩) :=
  rfl

theorem inspectCatalog_failure_eq_none_iff :
    (inspectCatalog path c (some h)).2 = none ↔ (c.resolve? h).isSome := by
  rw [inspectCatalog_some]
  cases c.resolve? h <;> simp

/-- **A run and a look at what it wrote agree.** After a run that wrote a single file, inspecting
the destination prints the counts that the run reported. With a hash it succeeds when the hash is
that of an emitted track or is aliased, and then it prints the line about the track that the
assembled catalog resolves the hash to, behind a line on the alias unless an emitted track has the
hash itself. That line tells the track's hash, name, slot, type, course and music, and it is about
no other track of the catalog. -/
theorem inspect_agrees_with_run {config : PipelineConfig} {order : ListingOrder} {t t' : FileTree}
    {r : BuildReport} (hl : config.output.layout = .single)
    (hrun : (config.run order).Yields t r t') :
    ∃ x, (config.assembler.assemble t).result = .ok x ∧
      inspect r.destination none t' = ⟨t', [], [countsLine r.destination r.summary], none⟩ ∧
      ∀ h,
        ((inspect r.destination (some h) t').failure = none ↔
          (∃ k ∈ x.catalog.tracks, k.hash = h) ∨ ∃ e ∈ x.catalog.aliases, e.aliased = h) ∧
        ((inspect r.destination (some h) t').failure = none →
          ∃ k line, x.catalog.resolve? h = some k ∧ TrackShown k line ∧
            (inspect r.destination (some h) t').printed =
              countsLine r.destination r.summary ::
                ((if ∃ k' ∈ x.catalog.tracks, k'.hash = h then [] else [aliasLine h k]) ++
                  [line]) ∧
            (aliasLine h k ∈ (inspect r.destination (some h) t').printed ↔
              ¬ ∃ k' ∈ x.catalog.tracks, k'.hash = h) ∧
            ∀ k' ∈ x.catalog.tracks, TrackShown k' line → k' = k) := by
  obtain ⟨x, hx, hsummary, -, hread⟩ := PipelineConfig.readBlob_of_run_single hl hrun
  have hclosed := Assembler.closed_of_assemble hx
  refine ⟨x, hx, ?_, fun h => ?_⟩
  · rw [inspect_of_readBlob hread, inspectCatalog_none, hsummary]
  · rw [inspect_of_readBlob hread]
    dsimp only
    refine ⟨?_, fun hok => ?_⟩
    · rw [inspectCatalog_failure_eq_none_iff]
      exact hclosed.isSome_resolve?_iff
    · obtain ⟨k, hk⟩ := Option.isSome_iff_exists.1 (inspectCatalog_failure_eq_none_iff.1 hok)
      have hown := Catalog.hash_of_resolve?_eq_iff hk
      have hmem := Catalog.mem_of_get? (Catalog.get?_hash_of_resolve? hk)
      have hshown : TrackShown k (describeTrack k) := trackShown_iff.2 rfl
      have hprinted : (inspectCatalog r.destination x.catalog (some h)).1 =
          countsLine r.destination r.summary ::
            ((if ∃ k' ∈ x.catalog.tracks, k'.hash = h then [] else [aliasLine h k]) ++
              [describeTrack k]) := by
        rw [inspectCatalog_some, hk, hsummary]
        simp only [hown]
      refine ⟨k, describeTrack k, hk, hshown, hprinted, ?_, fun k' hk' hshown' =>
        eq_of_trackShown (Assembler.nodup_hash_of_assemble hx) hmem hk' hshown hshown'⟩
      rw [hprinted]
      -- neither of the other two lines can be mistaken for the one on the alias
      by_cases hex : ∃ k' ∈ x.catalog.tracks, k'.hash = h
      · rw [if_pos hex]
        simp [hex, aliasLine_ne_countsLine, aliasLine_ne_of_trackShown hshown]
      · rw [if_neg hex]
        simp [hex]

namespace Both

open PipelineConfig.Both (single)
open Assembler.Repeated (old taken assembled)

/-- The hash that was superseded, its digits written out. -/
def oldText : String := "bbbbbbbbbbbbbbbbbbbbbbbbbbbbbbbbbbbbbbbb"

/-- The hash that took its place. -/
def takenText : String := "aaaaaaaaaaaaaaaaaaaaaaaaaaaaaaaaaaaaaaaa"

/-- An aliased hash leads to the track that took its place, and the alias is told. -/
theorem alias_is_inspected :
    single.output.layout = .single ∧
      ∃ t', (single.run .stored).Yields Assembler.Repeated.tree
          ⟨⟨1, 1⟩, [], "out/catalog.bin"⟩ t' ∧
        (inspect "out/catalog.bin" (some old) t').failure = none ∧
        (inspect "out/catalog.bin" (some old) t').printed =
          ["out/catalog.bin: 1 tracks, 1 aliases", oldText ++ " is an alias of " ++ takenText,
            takenText ++ ": \"first\" slot 11 type 1 course 0x08 music default"] := by
  have hrun := Task.yields_of_result_eq_ok (x := single.run .stored)
    (t := Assembler.Repeated.tree) (a := ⟨⟨1, 1⟩, [], "out/catalog.bin"⟩) (by decide +kernel)
  have hassembled : (single.assembler.assemble Assembler.Repeated.tree).result = .ok assembled := by
    decide +kernel
  have hl : single.output.layout = .single := rfl
  obtain ⟨x, hx, -, hinspect⟩ := inspect_agrees_with_run hl hrun
  rw [hassembled] at hx
  cases hx
  obtain ⟨hfound, hprinted⟩ := hinspect old
  have hok := hfound.2 (.inr ⟨⟨old, taken⟩, by decide, rfl⟩)
  obtain ⟨k, line, hk, hshown, hlines, -⟩ := hprinted hok
  obtain rfl : ⟨taken, some 7, "first", 11, 1, none, none⟩ = k := by
    have hresolved : assembled.catalog.resolve? old =
        some ⟨taken, some 7, "first", 11, 1, none, none⟩ := by
      decide
    exact Option.some_inj.1 (hresolved.symm.trans hk)
  obtain rfl := trackShown_iff.1 hshown
  rw [if_neg (by decide)] at hlines
  exact ⟨hl, _, hrun, hok, hlines.trans (by decide +kernel)⟩

end Both

end CommandLine

end TrackCatalog
