import TrackCatalog.Index
import TrackCatalog.Source

/-!
# Alias resolution

A reference says that a hash once was the track with some external id. It becomes an alias when
none of its flags is excluded, the id stands for another hash, and the track that carries the id is
placed.

* `Resolution.ofReference?`: what becomes of one reference; none when the id is unknown.
* `AliasResolver.resolve`: the aliases of a whole source, in order. The first line that cannot be
  read, or that names an unknown id without being excluded, stops it.
-/

namespace TrackCatalog

/-- The flag characters that exclude a reference. -/
structure ExclusionFlags where
  chars : List Char
  deriving DecidableEq, Repr

namespace ExclusionFlags

/-- The flags of a text. -/
def ofText (text : String) : ExclusionFlags := ⟨text.toList⟩

/-- The stock flags: removed, placeholder or pending, duplicate. -/
def stock : ExclusionFlags := ofText "ZPd"

/-- One of the flags is excluded. -/
def excludes (x : ExclusionFlags) (flags : String) : Bool := flags.toList.any fun c => c ∈ x.chars

end ExclusionFlags

/-- What becomes of a reference. -/
inductive Resolution where
  | alias (entry : AliasEntry)
  | excluded
  | sameAsCanonical
  | unassignedCanonical
  deriving DecidableEq

/-- What becomes of one reference; none when no track carries its external id. -/
def Resolution.ofReference? (index : IdentityIndex) (exclusion : ExclusionFlags) (r : Reference) :
    Option Resolution :=
  if exclusion.excludes r.flags then some .excluded
  else
    match index.get? r.externalId with
    | none => none
    | some canonical =>
      some <|
        if canonical.hash = r.hash then .sameAsCanonical
        else if canonical.slot = Course.unassignedSlot then .unassignedCanonical
        else .alias { aliased := r.hash, canonical := canonical.hash }

/-- Aliases in order, and the number of references that were excluded. -/
structure ResolvedAliases where
  aliases : List AliasEntry
  excluded : Nat
  deriving DecidableEq

/-- What references are resolved against. -/
structure AliasResolver where
  index : IdentityIndex
  exclusion : ExclusionFlags

namespace AliasResolver

/-- Resolves the references of the source at `path` in order. -/
def resolveItems (x : AliasResolver) (path : String) :
    List (Item (Nat × Reference)) → Except CatalogError ResolvedAliases
  | [] => .ok ⟨[], 0⟩
  | .error e :: _ => .error e
  | .ok (line, r) :: rest =>
    match Resolution.ofReference? x.index x.exclusion r with
    | none => .error (.unknownExternalId r.externalId path line)
    | some (.alias entry) =>
      (x.resolveItems path rest).map fun y => { y with aliases := entry :: y.aliases }
    | some .excluded =>
      (x.resolveItems path rest).map fun y => { y with excluded := y.excluded + 1 }
    | some _ => x.resolveItems path rest

/-- Resolves a whole source. -/
def resolve (x : AliasResolver) (s : ReferenceSource) (t : FileTree) :
    Traced CatalogError (List AliasEntry) := do
  let resolved ← Traced.ofExcept (x.resolveItems s.path (← s.records t))
  Traced.note (.resolvedAliases s.path resolved.aliases.length resolved.excluded)
  return resolved.aliases

end AliasResolver

end TrackCatalog
