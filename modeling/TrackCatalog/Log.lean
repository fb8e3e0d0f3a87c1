import TrackCatalog.Pipeline.Layout
import TrackCatalog.Text.Terminal

/-!
# The log

What the library reports while it works: each event has a level, a wording and a few named values.
Events are data, so a run returns them in order and the caller decides which to show.

* `Event.level`, `Event.render`: the level and the line of an event.
-/

namespace TrackCatalog

/-- How much an event matters. -/
inductive Level where
  | debug
  | info
  | warn
  deriving DecidableEq, Repr

/-- The level's name. -/
def Level.name : Level → String
  | debug => "DEBUG"
  | info => "INFO"
  | warn => "WARN"

/-- Something worth reporting. -/
inductive Event where
  | openedSource (path : String) (headerLines : Nat)
  | readTracks (path : String) (tracks : Nat)
  | readPrimary (path : String) (tracks : Nat)
  | warned (line : String)
  | mergedSupplemental (path : String) (merged duplicates : Nat)
  | builtIndex (externalIds : Nat)
  | resolvedAliases (path : String) (aliases excluded : Nat)
  | filteredTracks (total unassigned conflicting emitted : Nat)
  | wroteShards (dir : String) (tracks stale : Nat)
  | wroteCatalog (path summary : String)
  | wroteShardedCatalog (dir summary : String)
  | wrotePack (path name : String) (tracks unreleased : Nat)
  | building (layout : Layout) (out : String)
  deriving DecidableEq, Repr

namespace Event

/-- How much the event matters. -/
def level : Event → Level
  | openedSource .. | readTracks .. | builtIndex .. | filteredTracks .. | wroteShards .. => .debug
  | warned .. => .warn
  | readPrimary .. | mergedSupplemental .. | resolvedAliases .. | wroteCatalog ..
  | wroteShardedCatalog .. | wrotePack .. | building .. => .info

/-- The wording of the event. -/
def message : Event → String
  | openedSource .. => "opened source"
  | readTracks .. => "read track source"
  | readPrimary .. => "read primary source"
  | warned line => line
  | mergedSupplemental .. => "merged supplemental source"
  | builtIndex .. => "built identity index"
  | resolvedAliases .. => "resolved aliases"
  | filteredTracks .. => "filtered tracks"
  | wroteShards .. => "wrote track shards"
  | wroteCatalog .. => "wrote catalog"
  | wroteShardedCatalog .. => "wrote sharded catalog"
  | wrotePack .. => "wrote pack"
  | building .. => "building catalog"

/-- The named values of the event. -/
def fields : Event → List (String × String)
  | openedSource path headerLines => [("path", path), ("header_lines", toString headerLines)]
  | readTracks path tracks => [("path", path), ("tracks", toString tracks)]
  | readPrimary path tracks => [("path", path), ("tracks", toString tracks)]
  | warned _ => []
  | mergedSupplemental path merged duplicates =>
    [("path", path), ("merged", toString merged), ("duplicates", toString duplicates)]
  | builtIndex externalIds => [("external_ids", toString externalIds)]
  | resolvedAliases path aliases excluded =>
    [("path", path), ("aliases", toString aliases), ("excluded", toString excluded)]
  | filteredTracks total unassigned conflicting emitted =>
    [("total", toString total), ("unassigned", toString unassigned),
      ("conflicting", toString conflicting), ("emitted", toString emitted)]
  | wroteShards dir tracks stale =>
    [("dir", dir), ("tracks", toString tracks), ("stale", toString stale)]
  | wroteCatalog path summary => [("path", path), ("summary", summary)]
  | wroteShardedCatalog dir summary => [("dir", dir), ("summary", summary)]
  | wrotePack path name tracks unreleased =>
    [("path", path), ("name", name), ("tracks", toString tracks),
      ("unreleased", toString unreleased)]
  | building layout out => [("mode", layout.tag), ("out", out)]

/-- The line of the event: level, wording, and the values by name. The wording may hold free text,
so it is made fit for a terminal; the values are shown as they are. -/
def render (e : Event) : String :=
  e.fields.foldl (fun line (name, value) => line ++ " " ++ name ++ "=" ++ value)
    (e.level.name ++ " " ++ Text.forTerminal e.message)

end Event

end TrackCatalog
