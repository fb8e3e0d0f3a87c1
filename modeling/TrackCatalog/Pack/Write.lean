import TrackCatalog.Emit

/-!
# Writing packs
-/

namespace TrackCatalog

/-- Puts a pack in place as the file at a path. -/
def writePack (p : Pack) (path : String) : Task CatalogError Unit := do
  writeBlob .pack path p
  Task.note (.wrotePack path p.name p.trackCount p.unreleasedTracks.length)

end TrackCatalog
