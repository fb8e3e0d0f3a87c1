import Mathlib.Logic.Basic
import Mathlib.Tactic.ByContra
import TrackCatalog.Proofs.Assembly.Resolution
import TrackCatalog.Proofs.Record.Spelling
import TrackCatalog.Proofs.Source.Lines

/-!
# What a reference source resolves to

The rules for one reference are stated here on the track list itself, without the index: a flag that
is excluded, the first track that carries the id, whether that one is placed. A source stops at the
first item that cannot be read or whose id nobody carries; up to there each item adds its alias or
nothing.

* `Item.Stops`, `aliasOf?`: the two rules for one item.
* `AliasResolver.resolveItems_of_stops`, `resolveItems_of_passes`: one item, by the rules.
* `AliasResolver.resolveItems_append`: all items before the one that stops it.
* `AliasResolver.resolves_by_first_carrier`: what a whole source resolves to, or why it does not.
-/

namespace TrackCatalog

variable {m : List Track} {x : ExclusionFlags} {path : String} {e : CatalogError}
  {i : Item (Nat × Reference)} {items before rest : List (Item (Nat × Reference))}

/-! ## The rules -/

/-- One of the flags is excluded. -/
def ExclusionFlags.Bars (x : ExclusionFlags) (flags : String) : Prop :=
  ∃ c ∈ flags.toList, c ∈ x.chars

theorem ExclusionFlags.excludes_iff {flags : String} : x.excludes flags = true ↔ x.Bars flags := by
  simp [excludes, Bars]

instance (x : ExclusionFlags) (flags : String) : Decidable (x.Bars flags) :=
  decidable_of_iff _ ExclusionFlags.excludes_iff

/-- Some track carries the external id, placed or not. -/
def IsCarried (m : List Track) (id : UInt32) : Prop := ∃ k ∈ m, k.externalId = some id

instance (m : List Track) (id : UInt32) : Decidable (IsCarried m id) :=
  decidable_of_iff (m.any (fun k => k.externalId = some id) = true) (by simp [IsCarried])

/-- The item ends the resolution: it cannot be read, or its id is unknown and matters. -/
inductive Item.Stops (m : List Track) (x : ExclusionFlags) (path : String) :
    Item (Nat × Reference) → CatalogError → Prop
  | unreadable {e : CatalogError} : Stops m x path (.error e) e
  | unknown {number : Nat} {r : Reference} (flags : ¬ x.Bars r.flags)
      (id : ¬ IsCarried m r.externalId) :
      Stops m x path (.ok (number, r)) (.unknownExternalId r.externalId path number)

/-- The item does not end the resolution. -/
def Item.Passes (m : List Track) (x : ExclusionFlags) (path : String)
    (i : Item (Nat × Reference)) : Prop := ∀ e, ¬ Item.Stops m x path i e

/-- The alias that an item adds: its reference is not excluded, and the first track with its id is
placed and has another hash. -/
def aliasOf? (m : List Track) (x : ExclusionFlags) : Item (Nat × Reference) → Option AliasEntry
  | .error _ => none
  | .ok (_, r) =>
    match m.find? fun k => k.externalId = some r.externalId with
    | none => none
    | some k =>
      if ¬ x.Bars r.flags ∧ k.slot ≠ 0 ∧ k.hash ≠ r.hash then some ⟨r.hash, k.hash⟩ else none

theorem find?_carrier_eq_none_iff {id : UInt32} :
    (m.find? fun k => k.externalId = some id) = none ↔ ¬ IsCarried m id := by
  simp [IsCarried, List.find?_eq_none]

/-! ## One item -/

namespace AliasResolver

/-- **An item that stops the resolution** is its result. -/
theorem resolveItems_of_stops (h : i.Stops m x path e) (rest : List (Item (Nat × Reference))) :
    resolveItems ⟨.ofTracks m, x⟩ path (i :: rest) = .error e := by
  cases h with
  | unreadable => rfl
  | @unknown number r flags id =>
    have hx : ¬ x.excludes r.flags = true := fun h => flags (ExclusionFlags.excludes_iff.1 h)
    have hnone : (IdentityIndex.ofTracks m).get? r.externalId = none := by
      rw [IdentityIndex.get?_ofTracks, find?_carrier_eq_none_iff.2 id]
      rfl
    rw [resolveItems, Resolution.ofReference?, if_neg hx]
    dsimp only
    rw [hnone]

/-- **An item that passes** adds its alias, if it has one, in front of those of the rest. -/
theorem resolveItems_of_passes (h : i.Passes m x path) (rest : List (Item (Nat × Reference))) :
    ∃ n, resolveItems ⟨.ofTracks m, x⟩ path (i :: rest) =
      (resolveItems ⟨.ofTracks m, x⟩ path rest).map fun y =>
        ⟨(aliasOf? m x i).toList ++ y.aliases, y.excluded + n⟩ := by
  have unchanged : ∀ z : Except CatalogError ResolvedAliases,
      z = z.map fun y => ⟨y.aliases, y.excluded⟩ := fun z => by cases z <;> rfl
  cases i with
  | error e => exact absurd .unreadable (h e)
  | ok p =>
    obtain ⟨number, r⟩ := p
    rw [resolveItems, Resolution.ofReference?, IdentityIndex.get?_ofTracks]
    by_cases hx : x.Bars r.flags
    · -- an excluded reference is only counted, whoever carries its id
      have halias : aliasOf? m x (.ok (number, r)) = none := by
        unfold aliasOf?
        dsimp only
        split
        · rfl
        · rw [if_neg (fun hc => hc.1 hx)]
      refine ⟨1, ?_⟩
      rw [if_pos (ExclusionFlags.excludes_iff.2 hx), halias]
      rfl
    · have hne : ¬ x.excludes r.flags = true := fun hc => hx (ExclusionFlags.excludes_iff.1 hc)
      rw [if_neg hne]
      unfold aliasOf?
      dsimp only
      cases hk : m.find? fun k => k.externalId = some r.externalId with
      | none => exact absurd (.unknown hx (find?_carrier_eq_none_iff.1 hk)) (h _)
      | some k =>
        -- the same hash and a track that is not placed add nothing, in this order
        rw [Option.map_some]
        dsimp only
        refine ⟨0, ?_⟩
        by_cases hh : k.indexEntry.hash = r.hash
        · rw [if_pos hh, if_neg (fun hc => hc.2.2 hh)]
          exact unchanged _
        · by_cases hs : k.indexEntry.slot = Course.unassignedSlot
          · rw [if_neg hh, if_pos hs, if_neg (fun hc => hc.2.1 hs)]
            exact unchanged _
          · rw [if_neg hh, if_neg hs, if_pos ⟨hx, hs, hh⟩]
            rfl

/-! ## All items -/

/-- Items that pass add their aliases in front of what the rest resolves to. -/
theorem resolveItems_append (h : ∀ i ∈ before, i.Passes m x path)
    (rest : List (Item (Nat × Reference))) :
    ∃ n, resolveItems ⟨.ofTracks m, x⟩ path (before ++ rest) =
      (resolveItems ⟨.ofTracks m, x⟩ path rest).map fun y =>
        ⟨before.filterMap (aliasOf? m x) ++ y.aliases, y.excluded + n⟩ := by
  induction before with
  | nil =>
    refine ⟨0, ?_⟩
    rw [List.nil_append]
    cases resolveItems ⟨.ofTracks m, x⟩ path rest <;> rfl
  | cons i before ih =>
    obtain ⟨n, hn⟩ := ih fun j hj => h j (List.mem_cons_of_mem _ hj)
    obtain ⟨k, hk⟩ := resolveItems_of_passes (h i List.mem_cons_self) (before ++ rest)
    refine ⟨n + k, ?_⟩
    rw [List.cons_append, hk, hn, List.filterMap_cons]
    cases resolveItems ⟨.ofTracks m, x⟩ path rest with
    | error e => rfl
    | ok y => cases aliasOf? m x i <;> simp [Except.map, Nat.add_assoc]

theorem resolveItems_of_all_pass (h : ∀ i ∈ items, i.Passes m x path) :
    ∃ n, resolveItems ⟨.ofTracks m, x⟩ path items =
      .ok ⟨items.filterMap (aliasOf? m x), n⟩ := by
  obtain ⟨n, hn⟩ := resolveItems_append h []
  rw [List.append_nil] at hn
  refine ⟨n, hn.trans ?_⟩
  simp [resolveItems, Except.map]

theorem resolveItems_of_first_stop (h : ∀ i ∈ before, i.Passes m x path) (hi : i.Stops m x path e)
    (rest : List (Item (Nat × Reference))) :
    resolveItems ⟨.ofTracks m, x⟩ path (before ++ i :: rest) = .error e := by
  obtain ⟨n, hn⟩ := resolveItems_append h (i :: rest)
  rw [hn, resolveItems_of_stops hi]
  rfl

/-- All items pass, or there is a first one that does not. -/
theorem all_pass_or_first_stop (m : List Track) (x : ExclusionFlags) (path : String)
    (items : List (Item (Nat × Reference))) :
    (∀ i ∈ items, i.Passes m x path) ∨
      ∃ before i rest e, items = before ++ i :: rest ∧ (∀ j ∈ before, j.Passes m x path) ∧
        i.Stops m x path e := by
  induction items with
  | nil => exact .inl (by simp)
  | cons i items ih =>
    by_cases hi : i.Passes m x path
    · rcases ih with hall | ⟨before, j, rest, e, rfl, hbefore, hj⟩
      · exact .inl (List.forall_mem_cons.2 ⟨hi, hall⟩)
      · exact .inr ⟨i :: before, j, rest, e, rfl, List.forall_mem_cons.2 ⟨hi, hbefore⟩, hj⟩
    · obtain ⟨e, he⟩ := not_forall_not.1 hi
      exact .inr ⟨[], i, items, e, rfl, by simp, he⟩

/-- **The aliases of a source** are there just when every item passes. -/
theorem resolveItems_eq_ok_iff {as : List AliasEntry} :
    (resolveItems ⟨.ofTracks m, x⟩ path items).map ResolvedAliases.aliases = .ok as ↔
      (∀ i ∈ items, i.Passes m x path) ∧ as = items.filterMap (aliasOf? m x) := by
  constructor
  · intro h
    rcases all_pass_or_first_stop m x path items with hall | ⟨before, i, rest, e, rfl, hb, hi⟩
    · obtain ⟨n, hn⟩ := resolveItems_of_all_pass hall
      rw [hn] at h
      cases h
      exact ⟨hall, rfl⟩
    · rw [resolveItems_of_first_stop hb hi rest] at h
      cases h
  · rintro ⟨hall, rfl⟩
    obtain ⟨n, hn⟩ := resolveItems_of_all_pass hall
    rw [hn]
    rfl

/-- **The fault of a source** is that of its first item that does not pass. -/
theorem resolveItems_eq_error_iff :
    (resolveItems ⟨.ofTracks m, x⟩ path items).map ResolvedAliases.aliases = .error e ↔
      ∃ before i rest, items = before ++ i :: rest ∧ (∀ j ∈ before, j.Passes m x path) ∧
        i.Stops m x path e := by
  constructor
  · intro h
    rcases all_pass_or_first_stop m x path items with hall | ⟨before, i, rest, d, rfl, hb, hi⟩
    · obtain ⟨n, hn⟩ := resolveItems_of_all_pass hall
      rw [hn] at h
      cases h
    · rw [resolveItems_of_first_stop hb hi rest] at h
      cases h
      exact ⟨before, i, rest, rfl, hb, hi⟩
  · rintro ⟨before, i, rest, rfl, hb, hi⟩
    rw [resolveItems_of_first_stop hb hi rest]
    rfl

theorem passes_iff (path : String) :
    (∀ i ∈ items, i.Passes m x path) ↔
      (∀ e, .error e ∉ items) ∧
      ∀ number r, .ok (number, r) ∈ items → ¬ x.Bars r.flags → IsCarried m r.externalId := by
  constructor
  · intro h
    refine ⟨fun e he => h _ he e .unreadable, fun number r hr hx => ?_⟩
    by_contra hid
    exact h _ hr _ (.unknown hx hid)
  · rintro ⟨herror, hid⟩ i hi e hs
    cases hs with
    | unreadable => exact herror e hi
    | unknown flags id => exact id (hid _ _ hi flags)

theorem result_resolve (m : List Track) (x : ExclusionFlags) (s : ReferenceSource) (t : FileTree) :
    (resolve ⟨.ofTracks m, x⟩ s t).result =
      (s.records t).result.bind fun items =>
        (resolveItems ⟨.ofTracks m, x⟩ s.path items).map ResolvedAliases.aliases := by
  unfold resolve
  rw [Traced.result_bind]
  congr 1
  funext items
  rw [Traced.result_bind, Traced.result_ofExcept]
  cases resolveItems ⟨.ofTracks m, x⟩ s.path items <;> rfl

/-- Only an unknown id is reported as one. -/
theorem of_unknownExternalId {s : ReferenceSource} {t : FileTree} {id : UInt32} {p : String}
    {number : Nat} (hitems : (s.records t).result = .ok items) (hi : i ∈ items)
    (h : i.Stops m x s.path (.unknownExternalId id p number)) :
    p = s.path ∧ ¬ IsCarried m id ∧
      ∃ r, .ok (number, r) ∈ items ∧ r.externalId = id ∧ ¬ x.Bars r.flags := by
  cases h with
  | unknown flags id => exact ⟨rfl, id, _, hi, rfl, flags⟩
  | unreadable =>
    -- nothing that is wrong with a line or a file is about ids
    rcases ReferenceSource.records_eq_ok hitems with ⟨bytes, -, rfl⟩ | rfl
    · obtain ⟨_, _, -, -, ⟨-, he⟩ | ⟨_, _, -, -, he⟩⟩ := ReferenceSource.line_of_error hi
      · cases he
      · cases he
    · cases List.mem_singleton.1 hi

/-- **What a reference source resolves to.** A source that cannot be opened is that fault. Otherwise
it resolves just when each item can be read and each id that matters is carried by some track; the
aliases are then those of its items, in order. If not, the first item that stops it is the result,
and an unknown id is one that an allowed reference has and no track. The items of a file are those
of its physical lines behind the header, numbered from 1. -/
theorem resolves_by_first_carrier (m : List Track) (x : ExclusionFlags) (s : ReferenceSource)
    (t : FileTree) :
    (∀ e, (s.records t).result = .error e →
      (resolve ⟨.ofTracks m, x⟩ s t).result = .error e) ∧
    ∀ items, (s.records t).result = .ok items →
      ((∃ as, (resolve ⟨.ofTracks m, x⟩ s t).result = .ok as) ↔
        (∀ e, .error e ∉ items) ∧
        ∀ number r, .ok (number, r) ∈ items → ¬ x.Bars r.flags → IsCarried m r.externalId) ∧
      (∀ as, (resolve ⟨.ofTracks m, x⟩ s t).result = .ok as →
        as = items.filterMap (aliasOf? m x)) ∧
      (∀ e, (resolve ⟨.ofTracks m, x⟩ s t).result = .error e ↔
        ∃ before i rest, items = before ++ i :: rest ∧
          (∀ j ∈ before, j.Passes m x s.path) ∧ i.Stops m x s.path e) ∧
      (∀ id p number,
        (resolve ⟨.ofTracks m, x⟩ s t).result = .error (.unknownExternalId id p number) →
        p = s.path ∧ ¬ IsCarried m id ∧
          ∃ r, .ok (number, r) ∈ items ∧ r.externalId = id ∧ ¬ x.Bars r.flags) ∧
      ∀ bytes, t.open? s.path = .ok (.file bytes) →
        items = (s.source.bodyLines bytes).filterMap s.lineItem? ∧
        (∀ number r, .ok (number, r) ∈ items →
          ∃ k line text, number = k + 1 ∧ s.source.headerLines ≤ k ∧
            (Text.lines 10 13 bytes)[k]? = some line ∧ Bytes.text? line = some text ∧
            Reference.ofLine text = .ok r) ∧
        ∀ e, .error e ∈ items →
          ∃ k line, s.source.headerLines ≤ k ∧ (Text.lines 10 13 bytes)[k]? = some line ∧
            (Bytes.text? line = none ∧ e = .file s.path .invalidText ∨
              ∃ text cause, Bytes.text? line = some text ∧
                Reference.ofLine text = .error cause ∧
                e = .malformedRecord s.path (k + 1) cause) := by
  rw [result_resolve]
  refine ⟨fun e he => by rw [he]; rfl, fun items hitems => ?_⟩
  rw [hitems]
  dsimp only [Except.bind]
  have lines : ∀ bytes, t.open? s.path = .ok (.file bytes) →
      items = (s.source.bodyLines bytes).filterMap s.lineItem? := by
    intro bytes hopen
    rw [ReferenceSource.records_of_open hopen] at hitems
    cases hitems
    rfl
  refine ⟨?_, fun as has => (resolveItems_eq_ok_iff.1 has).2, fun e => resolveItems_eq_error_iff,
    fun id p number hunknown => ?_, fun bytes hopen => ⟨lines bytes hopen, fun number r hr => ?_,
      fun e he => ?_⟩⟩
  · rw [← passes_iff s.path]
    constructor
    · rintro ⟨as, has⟩
      exact (resolveItems_eq_ok_iff.1 has).1
    · intro hall
      exact ⟨_, resolveItems_eq_ok_iff.2 ⟨hall, rfl⟩⟩
  · obtain ⟨before, i, rest, hsplit, -, hi⟩ := resolveItems_eq_error_iff.1 hunknown
    have hmem : i ∈ items := by
      rw [hsplit]
      exact List.mem_append_right _ List.mem_cons_self
    exact of_unknownExternalId hitems hmem hi
  · rw [lines bytes hopen] at hr
    exact ReferenceSource.line_of_reference hr
  · rw [lines bytes hopen] at he
    exact ReferenceSource.line_of_error he

namespace Mixed

/-- A placed track, one that is not placed, and another one with the id of the first. -/
def tracks : List Track :=
  [⟨.filled 0xAA, some 8, "first", 11, 1, none, none⟩,
    ⟨.filled 0xCC, some 9, "draft", 0, 1, none, none⟩,
    ⟨.filled 0xDD, some 8, "again", 12, 1, none, none⟩]

/-- A header, then references to a placed track, to an excluded and unknown id and to a draft, with
a blank line and a remark between them, and at last one to an unknown id. -/
def tree : FileTree :=
  FileTree.empty.putFile ["references"] (Bytes.ofText
    ("hash|id\n" ++
      "bbbbbbbbbbbbbbbbbbbbbbbbbbbbbbbbbbbbbbbb|8||||\n" ++
      " \r\n" ++
      "bbbbbbbbbbbbbbbbbbbbbbbbbbbbbbbbbbbbbbbb|404|||xZ|\n" ++
      "|remark\n" ++
      "bbbbbbbbbbbbbbbbbbbbbbbbbbbbbbbbbbbbbbbb|9||||\n" ++
      "bbbbbbbbbbbbbbbbbbbbbbbbbbbbbbbbbbbbbbbb|404||||\n"))

/-- The source in that tree. -/
def source : ReferenceSource := ⟨⟨"references", 1⟩⟩

/-- The hash that all of them were known by. -/
def old : Hash := .filled 0xBB

/-- The items before the unknown id. -/
def accepted : List (Item (Nat × Reference)) :=
  [.ok (2, ⟨old, 8, ""⟩), .ok (4, ⟨old, 404, "xZ"⟩), .ok (6, ⟨old, 9, ""⟩)]

/-- The item with the unknown id. -/
def refused : Item (Nat × Reference) := .ok (7, ⟨old, 404, ""⟩)

/-- The unknown id is reported with the seventh line; neither the excluded reference nor the draft
stops the source before it. -/
theorem unknown_id_on_seventh_line :
    (source.records tree).result = .ok (accepted ++ [refused]) ∧
      (resolve ⟨.ofTracks tracks, .stock⟩ source tree).result =
        .error (.unknownExternalId 404 "references" 7) := by
  have hitems : (source.records tree).result = .ok (accepted ++ [refused]) := by decide +kernel
  have hbefore : ∀ i ∈ accepted, i.Passes tracks .stock source.path := by
    rw [passes_iff]
    refine ⟨by simp [accepted], fun number r hr hx => ?_⟩
    simp only [accepted, List.mem_cons, Except.ok.injEq, Prod.mk.injEq, List.not_mem_nil,
      or_false] at hr
    rcases hr with ⟨-, rfl⟩ | ⟨-, rfl⟩ | ⟨-, rfl⟩
    · decide
    · exact absurd (by decide) hx
    · decide
  have hlast : refused.Stops tracks .stock source.path (.unknownExternalId 404 "references" 7) :=
    .unknown (by decide) (by decide)
  obtain ⟨-, hread⟩ := resolves_by_first_carrier tracks .stock source tree
  obtain ⟨-, -, herror, -⟩ := hread _ hitems
  exact ⟨hitems, (herror _).2 ⟨accepted, refused, [], rfl, hbefore, hlast⟩⟩

end Mixed

end AliasResolver

end TrackCatalog
