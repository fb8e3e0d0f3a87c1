import TrackCatalog.Emit
import TrackCatalog.Proofs.Files.Path

/-!
# The names of shards

* `Hash.toHex_injective`, `shardName_injective`: no two hashes share a spelling, or a shard.
* `shardPath_injective`: a path to a shard says which hash the shard is for.
* `extension?_shardName`: every shard is of the kind that is looked at when stale ones go.
* `isPart_shardName`, `shardName_ne_special`: a shard's name is one part of a path, and no step in
  place or up.
-/

namespace TrackCatalog

namespace Bytes

theorem hexDigit_injective : ∀ m < 16, ∀ n < 16, hexDigit m = hexDigit n → m = n := by decide

theorem hexDigit_ne_special : ∀ n < 16, hexDigit n ≠ '.' ∧ hexDigit n ≠ '/' := by decide

/-- The two digits of a byte. -/
def hexPair (b : UInt8) : List Char := [hexDigit (b.toNat / 16), hexDigit (b.toNat % 16)]

theorem toList_toHex (bytes : Bytes) : (toHex bytes).toList = bytes.flatMap hexPair := by
  rw [toHex, String.toList_ofList]
  rfl

theorem hexPair_injective {b c : UInt8} (h : hexPair b = hexPair c) : b = c := by
  have hb := b.toNat_lt
  have hc := c.toNat_lt
  simp only [hexPair, List.cons.injEq, and_true] at h
  have hhigh := hexDigit_injective _ (by omega) _ (by omega) h.1
  have hlow := hexDigit_injective _ (by omega) _ (by omega) h.2
  apply UInt8.toNat_inj.1
  omega

theorem length_toList_toHex (bytes : Bytes) :
    (toHex bytes).toList.length = 2 * bytes.length := by
  rw [toList_toHex]
  induction bytes with
  | nil => rfl
  | cons b bs ih =>
    rw [List.flatMap_cons, List.length_append, ih, List.length_cons]
    have hpair : (hexPair b).length = 2 := rfl
    omega

/-- **No two byte strings share a spelling.** -/
theorem toHex_injective {bytes bytes' : Bytes} (h : toHex bytes = toHex bytes') :
    bytes = bytes' := by
  have hl := congrArg String.toList h
  rw [toList_toHex, toList_toHex] at hl
  clear h
  induction bytes generalizing bytes' with
  | nil =>
    cases bytes' with
    | nil => rfl
    | cons c cs => simp [hexPair] at hl
  | cons b bs ih =>
    cases bytes' with
    | nil => simp [hexPair] at hl
    | cons c cs =>
      rw [List.flatMap_cons, List.flatMap_cons] at hl
      obtain ⟨hpair, hrest⟩ := List.append_inj hl rfl
      rw [hexPair_injective hpair, ih hrest]

/-- A spelling has nothing but digits. -/
theorem exists_hexDigit_of_mem_toHex {bytes : Bytes} {c : Char} (h : c ∈ (toHex bytes).toList) :
    ∃ n < 16, c = hexDigit n := by
  rw [toList_toHex, List.mem_flatMap] at h
  obtain ⟨b, -, hc⟩ := h
  have hb := b.toNat_lt
  simp only [hexPair, List.mem_cons, List.not_mem_nil, or_false] at hc
  rcases hc with rfl | rfl
  · exact ⟨_, by omega, rfl⟩
  · exact ⟨_, by omega, rfl⟩

/-- A spelling has neither dots nor slashes. -/
theorem ne_special_of_mem_toHex {bytes : Bytes} {c : Char} (h : c ∈ (toHex bytes).toList) :
    c ≠ '.' ∧ c ≠ '/' := by
  obtain ⟨n, hn, rfl⟩ := exists_hexDigit_of_mem_toHex h
  exact hexDigit_ne_special n hn

end Bytes

/-- **No two hashes share a spelling.** -/
theorem Hash.toHex_injective {h h' : Hash} (e : h.toHex = h'.toHex) : h = h' := by
  obtain ⟨bytes, hl⟩ := h
  obtain ⟨bytes', hl'⟩ := h'
  obtain rfl : bytes = bytes' := Bytes.toHex_injective e
  rfl

/-- A spelling is not empty. -/
theorem Hash.toList_toHex_ne_nil (h : Hash) : h.toHex.toList ≠ [] := by
  obtain ⟨bytes, hl⟩ := h
  rw [toHex, Bytes.toList_toHex]
  cases bytes with
  | nil => simp at hl
  | cons b bs => simp [Bytes.hexPair]

theorem Hash.length_toList_toHex (h : Hash) : h.toHex.toList.length = 40 := by
  rw [toHex, Bytes.length_toList_toHex, h.length_bytes]

theorem toList_shardName (h : Hash) :
    (shardName h).toList = h.toHex.toList ++ '.' :: blobExtension.toList := by
  simp [shardName]

/-- **No two hashes share a shard.** -/
theorem shardName_injective {h h' : Hash} (e : shardName h = shardName h') : h = h' := by
  have hl := congrArg String.toList e
  rw [toList_shardName, toList_shardName] at hl
  exact Hash.toHex_injective (String.toList_inj.1 (List.append_inj_left' hl rfl))

theorem length_toList_shardName (h : Hash) : (shardName h).toList.length = 44 := by
  have hext : blobExtension.toList.length = 3 := by decide
  rw [toList_shardName, List.length_append, List.length_cons, h.length_toList_toHex, hext]

theorem shardName_ne_special (h : Hash) : shardName h ∉ ["", ".", ".."] := by
  intro hm
  have hlen := length_toList_shardName h
  have hshort : ∀ s ∈ ["", ".", ".."], s.toList.length < 5 := by decide
  have := hshort _ hm
  omega

theorem isPart_shardName (h : Hash) : Path.IsPart (shardName h) := by
  refine ⟨fun e => shardName_ne_special h (by simp [e]), fun hm => ?_⟩
  rw [toList_shardName, List.mem_append] at hm
  rcases hm with hm | hm
  · exact (Bytes.ne_special_of_mem_toHex hm).2 rfl
  · exact absurd hm (by decide)

/-- A path to a shard ends in the shard's name, so it says which hash it is for. -/
theorem shardPath_injective {dir dir' : String} {h h' : Hash}
    (e : shardPath dir h = shardPath dir' h') : h = h' := by
  obtain ⟨xs, hxs⟩ := Path.toList_join (tracksDir dir) (isPart_shardName h)
  obtain ⟨xs', hxs'⟩ := Path.toList_join (tracksDir dir') (isPart_shardName h')
  have hl : (shardPath dir h).toList = (shardPath dir' h').toList := congrArg String.toList e
  rw [shardPath, shardPath, hxs, hxs'] at hl
  have hlength : (shardName h).toList.length = (shardName h').toList.length := by
    rw [length_toList_shardName, length_toList_shardName]
  exact shardName_injective (String.toList_inj.1 (List.append_inj_right' hl hlength))

/-- **Every shard has the extension of a blob.** -/
theorem extension?_shardName (h : Hash) : Path.extension? (shardName h) = some blobExtension := by
  have hdot : '.' ∉ h.toHex.toList := fun hm => (Bytes.ne_special_of_mem_toHex hm).1 rfl
  have hext : blobExtension.toList.splitOn '.' = [blobExtension.toList] := by decide
  have hsplit : (shardName h).toList.splitOn '.' = [h.toHex.toList, blobExtension.toList] := by
    rw [toList_shardName, List.splitOn_append_cons_self, List.splitOn_eq_singleton hdot, hext]
    rfl
  have hne : shardName h ≠ ".." := fun e => shardName_ne_special h (by simp [e])
  obtain ⟨c, cs, hc⟩ := List.exists_cons_of_ne_nil h.toList_toHex_ne_nil
  rw [Path.extension?, if_neg hne, hsplit, hc]
  rfl

end TrackCatalog
