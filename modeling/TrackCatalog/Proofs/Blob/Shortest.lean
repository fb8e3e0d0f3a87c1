import TrackCatalog.Proofs.Blob.RoundTrip
import TrackCatalog.Proofs.Blob.Spelling
import TrackCatalog.Proofs.Text.Utf8

/-!
# The written form is the shortest one

A codec goes by an outline: it writes the pieces of the outline at their shortest, and it reads a
value from just the spellings of its pieces, whatever follows. Each part of a record keeps this, so
what is accepted as an artifact is known byte by byte.

* `Codec.GoesBy`: the law; `Codec.GoesBy.option`, `list`, `pair`, `map`: the parts keep it.
* `Artifact.outline`: the pieces of an artifact.
* `Blob.decode_eq_ok_iff`: what a value is read from.
* `Artifact.written_form_is_shortest`: so the written form is the shortest that is read as the
  value, and the others have longer numbers inside or bytes behind.
-/

namespace TrackCatalog

variable {α β : Type}

/-! ## Outlines -/

namespace Outline

/-- The pieces of a number. -/
def word (n : UInt32) : List Piece := [.word n]

/-- The pieces of a text. -/
def text (s : String) : List Piece := [.length (Bytes.ofText s).length, .bytes (Bytes.ofText s)]

/-- The pieces of a value that may be absent. -/
def option (f : α → List Piece) : Option α → List Piece
  | none => [.bytes [0]]
  | some a => .bytes [1] :: f a

/-- The pieces of a list. -/
def list (f : α → List Piece) (as : List α) : List Piece := .length as.length :: as.flatMap f

/-- The pieces of a hash. -/
def hash (h : Hash) : List Piece := [.bytes h.bytes]

/-- The pieces of a track. -/
def track (t : Track) : List Piece :=
  hash t.hash ++ (option word t.externalId ++ (text t.name ++ (word t.slot ++ (word t.kind ++
    (option word t.music ++ option text t.version)))))

/-- The pieces of an alias. -/
def aliasEntry (a : AliasEntry) : List Piece := hash a.aliased ++ hash a.canonical

/-- The pieces of a catalog. -/
def catalog (c : Catalog) : List Piece := list track c.tracks ++ list aliasEntry c.aliases

/-- The pieces of a pack. -/
def pack (p : Pack) : List Piece :=
  text p.name ++ (text p.authorNames ++ (text p.description ++ (list hash p.raceTracks ++
    (list hash p.coinTracks ++ (list hash p.balloonTracks ++ list track p.unreleasedTracks)))))

end Outline

/-! ## Codecs -/

namespace Codec

variable {c : Codec α} {d : Codec β} {f : α → List Piece} {g : β → List Piece}

/-- The codec writes the pieces of the outline at their shortest, and reads all their spellings and
nothing else. -/
structure GoesBy (c : Codec α) (outline : α → List Piece) : Prop where
  encode : ∀ a, c.encode a = shortestForm (outline a)
  decode : ∀ bytes a rest,
    c.decode bytes = .ok (a, rest) ↔ ∃ w, bytes = w ++ rest ∧ Spelled (outline a) w

theorem take_eq_ok_iff {n : Nat} {bytes body rest : Bytes} :
    take n bytes = .ok (body, rest) ↔ bytes = body ++ rest ∧ body.length = n := by
  unfold take
  constructor
  · intro h
    split at h
    · next hn =>
      cases h
      exact ⟨(List.take_append_drop n bytes).symm, List.length_take_of_le hn⟩
    · cases h
  · rintro ⟨rfl, rfl⟩
    rw [if_pos (by rw [List.length_append]; omega), List.take_left, List.drop_left]

theorem word_goesBy : word.GoesBy Outline.word where
  encode n := by simp [Outline.word, shortestForm, Piece.shortest, word]
  decode bytes n rest := by
    simp only [word, Outline.word, spelled_singleton, Piece.Spells, Except.bind_eq_ok_iff]
    constructor
    · rintro ⟨⟨m, rest'⟩, hm, h⟩
      cases h
      obtain ⟨w, rfl, hw⟩ := Varint.decode_eq_ok_iff.1 hm
      refine ⟨w, rfl, ?_⟩
      -- the number is below the bound, so it is that of the word
      rwa [UInt32.toNat_ofNat_of_lt' hw.lt_bound]
    · rintro ⟨w, rfl, hw⟩
      refine ⟨(n.toNat, rest), Varint.decode_eq_ok_iff.2 ⟨w, rfl, hw⟩, ?_⟩
      simp [pure, Except.pure]

theorem text_goesBy : text.GoesBy Outline.text where
  encode s := by simp [Outline.text, shortestForm, Piece.shortest, text]
  decode bytes s rest := by
    simp only [text, Outline.text, spelled_cons, spelled_nil, Piece.Spells, Except.bind_eq_ok_iff]
    constructor
    · rintro ⟨⟨n, tail⟩, hn, ⟨body, rest'⟩, hbody, h⟩
      obtain ⟨u, rfl, hu⟩ := Varint.decode_eq_ok_iff.1 hn
      obtain ⟨rfl, rfl⟩ := take_eq_ok_iff.1 hbody
      dsimp only at h
      split at h
      · next t ht =>
        cases h
        rw [Bytes.ofText_of_text? ht]
        exact ⟨u ++ body, by rw [List.append_assoc], u, body, rfl, hu, body, [], by simp, rfl, rfl⟩
      · cases h
    · rintro ⟨w, rfl, u, v, rfl, hu, x, y, rfl, rfl, rfl⟩
      refine ⟨(_, Bytes.ofText s ++ rest), Varint.decode_eq_ok_iff.2 ⟨u, by simp, hu⟩,
        (Bytes.ofText s, rest), take_eq_ok_iff.2 ⟨rfl, rfl⟩, ?_⟩
      simp [pure, Except.pure]

theorem GoesBy.option (hc : c.GoesBy f) : c.option.GoesBy (Outline.option f) where
  encode o := by
    cases o with
    | none => rfl
    | some a =>
      simp only [Codec.option, Outline.option, hc.encode a, shortestForm, List.flatMap_cons,
        Piece.shortest]
      rfl
  decode bytes o rest := by
    constructor
    · intro h
      cases bytes with
      | nil => simp [Codec.option] at h
      | cons b bytes =>
        simp only [Codec.option] at h
        split at h
        · next hb =>
          cases h
          exact ⟨[0], by rw [hb]; rfl, spelled_singleton.2 rfl⟩
        · split at h
          · next hb =>
            obtain ⟨⟨a, rest'⟩, ha, h⟩ := Except.bind_eq_ok_iff.1 h
            cases h
            obtain ⟨u, rfl, hu⟩ := (hc.decode _ _ _).1 ha
            exact ⟨1 :: u, by rw [hb]; rfl, spelled_cons.2 ⟨[1], u, rfl, rfl, hu⟩⟩
          · cases h
    · rintro ⟨w, rfl, hw⟩
      cases o with
      | none =>
        obtain rfl : w = [0] := spelled_singleton.1 hw
        rfl
      | some a =>
        obtain ⟨u, v, rfl, rfl, hv⟩ := spelled_cons.1 hw
        have ha := (hc.decode (v ++ rest) a rest).2 ⟨v, rfl, hv⟩
        change (c.decode (v ++ rest) >>= _) = _
        rw [ha]
        rfl

theorem GoesBy.pair (hc : c.GoesBy f) (hd : d.GoesBy g) :
    (c.pair d).GoesBy fun p => f p.1 ++ g p.2 where
  encode p := by
    simp only [Codec.pair, hc.encode, hd.encode, shortestForm, List.flatMap_append]
  decode bytes p rest := by
    obtain ⟨a, b⟩ := p
    simp only [Codec.pair, spelled_append, Except.bind_eq_ok_iff]
    constructor
    · rintro ⟨⟨a', tail⟩, ha, ⟨b', rest'⟩, hb, h⟩
      cases h
      obtain ⟨u, rfl, hu⟩ := (hc.decode _ _ _).1 ha
      obtain ⟨v, rfl, hv⟩ := (hd.decode _ _ _).1 hb
      exact ⟨u ++ v, by rw [List.append_assoc], u, v, rfl, hu, hv⟩
    · rintro ⟨w, rfl, u, v, rfl, hu, hv⟩
      exact ⟨(a, v ++ rest), (hc.decode _ _ _).2 ⟨u, by rw [List.append_assoc], hu⟩, (b, rest),
        (hd.decode _ _ _).2 ⟨v, rfl, hv⟩, rfl⟩

theorem GoesBy.decodeMany (hc : c.GoesBy f) {n : Nat} {bytes rest : Bytes} {as : List α} :
    c.decodeMany n bytes = .ok (as, rest) ↔
      as.length = n ∧ ∃ w, bytes = w ++ rest ∧ Spelled (as.flatMap f) w := by
  induction n generalizing bytes as with
  | zero =>
    rw [Codec.decodeMany]
    constructor
    · intro h
      cases h
      exact ⟨rfl, [], rfl, spelled_nil.2 rfl⟩
    · rintro ⟨has, w, rfl, hw⟩
      obtain rfl := List.length_eq_zero_iff.1 has
      obtain rfl := spelled_nil.1 hw
      rfl
  | succ n ih =>
    rw [Codec.decodeMany, Except.bind_eq_ok_iff]
    simp only [Except.bind_eq_ok_iff]
    constructor
    · rintro ⟨⟨a, tail⟩, ha, ⟨as', rest'⟩, has, h⟩
      cases h
      obtain ⟨u, rfl, hu⟩ := (hc.decode _ _ _).1 ha
      obtain ⟨rfl, v, rfl, hv⟩ := ih.1 has
      exact ⟨rfl, u ++ v, by rw [List.append_assoc], spelled_append.2 ⟨u, v, rfl, hu, hv⟩⟩
    · rintro ⟨has, w, rfl, hw⟩
      obtain ⟨a, as', rfl⟩ := List.exists_cons_of_length_eq_add_one has
      obtain ⟨u, v, rfl, hu, hv⟩ := spelled_append.1 hw
      exact ⟨(a, v ++ rest), (hc.decode _ _ _).2 ⟨u, by rw [List.append_assoc], hu⟩, (as', rest),
        ih.2 ⟨Nat.succ.inj has, v, rfl, hv⟩, rfl⟩

theorem GoesBy.list (hc : c.GoesBy f) : c.list.GoesBy (Outline.list f) where
  encode as := by
    have items : as.flatMap c.encode = shortestForm (as.flatMap f) := by
      rw [shortestForm, List.flatMap_assoc]
      exact List.flatMap_congr fun a _ => hc.encode a
    simp only [Codec.list, Outline.list, items, shortestForm, List.flatMap_cons, Piece.shortest]
  decode bytes as rest := by
    simp only [Codec.list, Outline.list, spelled_cons, Piece.Spells, Except.bind_eq_ok_iff]
    constructor
    · rintro ⟨⟨n, tail⟩, hn, h⟩
      obtain ⟨u, rfl, hu⟩ := Varint.decode_eq_ok_iff.1 hn
      obtain ⟨rfl, v, rfl, hv⟩ := hc.decodeMany.1 h
      exact ⟨u ++ v, by rw [List.append_assoc], u, v, rfl, hu, hv⟩
    · rintro ⟨w, rfl, u, v, rfl, hu, hv⟩
      exact ⟨(as.length, v ++ rest),
        Varint.decode_eq_ok_iff.2 ⟨u, by rw [List.append_assoc], hu⟩,
        hc.decodeMany.2 ⟨rfl, v, rfl, hv⟩⟩

theorem GoesBy.map (hc : c.GoesBy f) {ofOld : α → β} {toOld : β → α}
    (left : ∀ a, toOld (ofOld a) = a) (right : ∀ b, ofOld (toOld b) = b) :
    (c.map ofOld toOld).GoesBy fun b => f (toOld b) where
  encode b := hc.encode (toOld b)
  decode bytes b rest := by
    simp only [Codec.map, Except.bind_eq_ok_iff]
    constructor
    · rintro ⟨⟨a, rest'⟩, ha, h⟩
      cases h
      dsimp only
      rw [left]
      exact (hc.decode _ _ _).1 ha
    · intro h
      exact ⟨(toOld b, rest), (hc.decode _ _ _).2 h, by simp [right, pure, Except.pure]⟩

theorem hash_goesBy : hash.GoesBy Outline.hash where
  encode h := by simp [Outline.hash, shortestForm, Piece.shortest, hash]
  decode bytes h rest := by
    simp only [hash, Outline.hash, spelled_singleton, Piece.Spells]
    constructor
    · intro hd
      split at hd
      · next hl =>
        cases hd
        exact ⟨bytes.take 20, (List.take_append_drop 20 bytes).symm, rfl⟩
      · cases hd
    · rintro ⟨w, rfl, rfl⟩
      have hl : 20 ≤ (h.bytes ++ rest).length := by simp [h.length_bytes]
      rw [dif_pos hl]
      simp [← h.length_bytes]

theorem track_goesBy : track.GoesBy Outline.track :=
  (hash_goesBy.pair (word_goesBy.option.pair (text_goesBy.pair (word_goesBy.pair (word_goesBy.pair
    (word_goesBy.option.pair text_goesBy.option)))))).map (fun _ => rfl) fun _ => rfl

theorem aliases_goesBy : aliases.GoesBy (Outline.list Outline.aliasEntry) := by
  have entry : aliasEntry.GoesBy Outline.aliasEntry :=
    (hash_goesBy.pair hash_goesBy).map (fun _ => rfl) fun _ => rfl
  exact entry.list

theorem catalog_goesBy : catalog.GoesBy Outline.catalog :=
  (track_goesBy.list.pair aliases_goesBy).map (fun _ => rfl) fun _ => rfl

theorem pack_goesBy : pack.GoesBy Outline.pack :=
  (text_goesBy.pair (text_goesBy.pair (text_goesBy.pair (hash_goesBy.list.pair
    (hash_goesBy.list.pair (hash_goesBy.list.pair track_goesBy.list)))))).map (fun _ => rfl)
    fun _ => rfl

end Codec

namespace Artifact

/-- The pieces of an artifact. -/
def outline : (k : Artifact) → k.Value → List Piece
  | track => Outline.track
  | catalog => Outline.catalog
  | aliases => Outline.list Outline.aliasEntry
  | pack => Outline.pack

theorem goesBy : (k : Artifact) → k.codec.GoesBy k.outline
  | track => Codec.track_goesBy
  | catalog => Codec.catalog_goesBy
  | aliases => Codec.aliases_goesBy
  | pack => Codec.pack_goesBy

end Artifact

/-! ## Blobs -/

namespace Blob

/-- Four bytes are those of the version that they spell. -/
theorem versionBytes_versionOf {bytes : Bytes} (h : bytes.length = 4) :
    versionBytes (versionOf bytes) = bytes := by
  obtain ⟨a, b, c, d, rfl⟩ := List.length_eq_four.1 h
  have ha := a.toNat_lt
  have hb := b.toNat_lt
  have hc := c.toNat_lt
  have hd := d.toNat_lt
  have hv : versionOf [a, b, c, d] =
      a.toNat + 256 * (b.toNat + 256 * (c.toNat + 256 * d.toNat)) := rfl
  rw [hv, versionBytes]
  have digit : ∀ (n : Nat) (x : UInt8), n % 256 = x.toNat → UInt8.ofNat n = x := fun n x hx =>
    UInt8.toNat_inj.1 (by rw [UInt8.toNat_ofNat', ← hx])
  rw [digit _ a (by omega), digit _ b (by omega), digit _ c (by omega), digit _ d (by omega)]

/-- A blob with a payload is the header and then the payload. -/
theorem payload_eq_ok_iff {b body : Bytes} : payload b = .ok body ↔ b = header ++ body := by
  refine ⟨fun h => ?_, ?_⟩
  · unfold payload at h
    split at h
    · cases h
    · next hl =>
      split at h
      · cases h
      · next hm =>
        dsimp only at h
        split at h
        · cases h
        · next hv =>
          cases h
          rw [not_not] at hm hv
          have hver : (b.drop 8).take 4 = versionBytes schemaVersion := by
            rw [← hv, versionBytes_versionOf]
            simp only [List.length_take, List.length_drop]
            omega
          calc b = b.take 8 ++ ((b.drop 8).take 4 ++ (b.drop 8).drop 4) := by
                rw [List.take_append_drop, List.take_append_drop]
            _ = header ++ b.drop 12 := by
                rw [hm, hver, List.drop_drop, header, List.append_assoc]
  · rintro rfl
    exact payload_header_append body

/-- **What a value is read from**: the header, any spelling of the value's pieces, and whatever
bytes follow. -/
theorem decode_eq_ok_iff {c : Codec α} {outline : α → List Piece} (hc : c.GoesBy outline)
    {b : Bytes} {a : α} :
    decode c b = .ok a ↔ ∃ w rest, b = header ++ (w ++ rest) ∧ Spelled (outline a) w := by
  constructor
  · intro h
    rw [decode] at h
    split at h
    · cases h
    · next body hbody =>
      split at h
      · cases h
      · next a' rest hd =>
        cases h
        obtain ⟨w, rfl, hw⟩ := (hc.decode _ _ _).1 hd
        exact ⟨w, rest, payload_eq_ok_iff.1 hbody, hw⟩
  · rintro ⟨w, rest, rfl, hw⟩
    rw [decode, payload_header_append]
    dsimp only
    rw [(hc.decode _ _ _).2 ⟨w, rfl, hw⟩]

end Blob

namespace Artifact

/-- **The written form is the shortest that is accepted**, and no other accepted form is as short.
Accepted forms of one value differ only in how the numbers inside are spelled and in what follows,
and no number is read modulo anything. -/
theorem written_form_is_shortest (k : Artifact) (b : Bytes) (v : k.Value)
    (h : Blob.decode k.codec b = .ok v) :
    Blob.magic ++ Blob.versionBytes 1 <+: b ∧
    Blob.decode k.codec (Blob.encode k.codec v) = .ok v ∧
    (Blob.encode k.codec v).length ≤ b.length ∧
    ((Blob.encode k.codec v).length = b.length → Blob.encode k.codec v = b) ∧
    (∀ b', Blob.decode k.codec b' = .ok v →
      ∃ us us' rest rest',
        b = Blob.header ++ (us.flatten ++ rest) ∧ b' = Blob.header ++ (us'.flatten ++ rest') ∧
        List.Forall₂ Piece.Spells (k.outline v) us ∧
        List.Forall₂ Piece.Spells (k.outline v) us' ∧
        List.Forall₂ SameUpToSpelling us us') ∧
    ∀ width bytes n rest, Varint.decode width bytes = .ok (n, rest) ↔
      ∃ w, bytes = w ++ rest ∧ Varint.Spells width n w := by
  obtain ⟨w, rest, rfl, hw⟩ := (Blob.decode_eq_ok_iff k.goesBy).1 h
  have hencode : Blob.encode k.codec v = Blob.header ++ (shortestForm (k.outline v) ++ []) := by
    rw [Blob.encode, k.goesBy.encode, List.append_nil]
  have hle := hw.length_le
  refine ⟨List.prefix_append _ _, (Blob.decode_eq_ok_iff k.goesBy).2 ⟨_, [], hencode, hw.shortest⟩,
    ?_, fun hl => ?_, fun b' h' => ?_, fun width bytes n rest => Varint.decode_eq_ok_iff⟩
  · rw [hencode]
    simp only [List.length_append, List.length_nil]
    omega
  · rw [hencode] at hl ⊢
    simp only [List.length_append, List.length_nil] at hl
    have hnil : rest = [] := List.length_eq_zero_iff.1 (by omega)
    rw [hw.eq_shortest (by omega), hnil]
  · obtain ⟨w', rest', rfl, hw'⟩ := (Blob.decode_eq_ok_iff k.goesBy).1 h'
    obtain ⟨us, hus, rfl⟩ := hw
    obtain ⟨us', hus', rfl⟩ := hw'
    exact ⟨us, us', rest, rest', rfl, rfl, hus, hus', sameUpToSpelling hus hus'⟩

namespace Padded

/-- A track whose name is a character of two bytes. -/
def track : Track := ⟨Sample.accented.hash, none, "é", 1, 3, none, none⟩

/-- Its blob with a byte more than needed for the length of the name, two more for the slot, and
one behind. -/
def blob : Bytes :=
  Blob.header ++ List.replicate 20 0xFE ++
    [0, 0x82, 0x00, 0xC3, 0xA9, 0x81, 0x80, 0x00, 3, 0, 0, 0xFF]

/-- The written form has four bytes less. -/
theorem padded_blob_is_accepted :
    Blob.decode .track blob = .ok track ∧ Blob.decode .track (Blob.encode .track track) = .ok track ∧
      (Blob.encode .track track).length + 4 = blob.length := by
  have h : Blob.decode .track blob = .ok track := by decide
  obtain ⟨-, hencode, -⟩ := written_form_is_shortest .track blob track h
  exact ⟨h, hencode, by decide⟩

end Padded

end Artifact


end TrackCatalog
