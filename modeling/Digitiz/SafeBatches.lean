import Digitiz.Picture
import Digitiz.StreamReset

/-!
What a batch is worth, whatever came over the link.

The bytes of a message are the peer's, and so are the sequence numbers, offsets and sizes in them.
The checks that keep them harmless are spread over the receiver and the renderer: a chunk is
copied only where there is room for it, a batch is queued only if its tiles take exactly the bytes
it has, and the renderer walks them with the same arithmetic. An offset has 32 bits and sizes have
64, so no sum of sizes wraps.
-/

namespace Digitiz

open ViewportGeometry FrameSender

/-- The bytes a batch of tiles has been walked through, as the renderer counts them; nothing if a
tile does not fit. -/
def uploadFrom (g : ViewportGeometry) (blocks : List UInt8) (offset : ℕ) : List UInt16 → Option ℕ
  | [] => some offset
  | index :: tiles =>
    let rect := g.tileOutputRect index.toNat
    let size := etc2Size rect.w rect.h
    if size = 0 ∨ offset + size > blocks.length then none
    else uploadFrom g blocks (offset + size) tiles

/-- The renderer's tiles fit when the offset says so. -/
lemma Texture.writeTiles_snd (g : ViewportGeometry) (t : Texture) (blocks : List UInt8)
    (tiles : List UInt16) (offset : ℕ) :
    (t.writeTiles g tiles (blocks.drop offset)).2 = (uploadFrom g blocks offset tiles).isSome := by
  induction tiles generalizing t offset with
  | nil => rfl
  | cons a r ih =>
    rw [Texture.writeTiles, uploadFrom, List.length_drop]
    by_cases hfit : etc2Size (g.tileOutputRect a.toNat).w (g.tileOutputRect a.toNat).h = 0 ∨
        offset + etc2Size (g.tileOutputRect a.toNat).w (g.tileOutputRect a.toNat).h > blocks.length
    · rw [if_pos hfit, if_pos (by omega)]
      rfl
    · rw [if_neg hfit, if_neg (by omega), List.drop_drop]
      exact ih _ _

/-- A batch that can be uploaded: every tile is on the grid, and the tiles take every byte. -/
structure FrameBatch.Safe (b : FrameBatch) : Prop where
  valid : b.geometry.valid = true
  inGrid : InGrid b.geometry b.tiles
  length : b.blocks.length = (b.tiles.map b.geometry.tileBytes).sum

lemma uploadFrom_eq {g : ViewportGeometry} (hv : g.valid = true) {tiles : List UInt16}
    (ht : InGrid g tiles) {blocks : List UInt8} {offset : ℕ}
    (hfit : offset + (tiles.map g.tileBytes).sum ≤ blocks.length) :
    uploadFrom g blocks offset tiles = some (offset + (tiles.map g.tileBytes).sum) := by
  induction tiles generalizing offset with
  | nil => rfl
  | cons a r ih =>
    rw [List.map_cons, List.sum_cons] at hfit ⊢
    obtain ⟨hpos, -⟩ := tileBytes_le hv (ht a List.mem_cons_self)
    rw [uploadFrom, ← tileBytes, if_neg (by omega),
      ih (fun u hu => ht u (List.mem_cons_of_mem _ hu)) (by omega), Nat.add_assoc]

/-- Its tiles are walked to the end of its bytes. -/
lemma FrameBatch.Safe.consumed {b : FrameBatch} (h : b.Safe) :
    uploadFrom b.geometry b.blocks 0 b.tiles = some b.blocks.length := by
  have hfit : 0 + (b.tiles.map b.geometry.tileBytes).sum ≤ b.blocks.length := by
    rw [h.length, Nat.zero_add]
  rw [uploadFrom_eq h.valid h.inGrid hfit, Nat.zero_add, h.length]

namespace FrameReceiver

/-- The copy of a chunk where there is room for it. -/
def copyInto (buffer : List UInt8) (offset : ℕ) (bytes : List UInt8) : Option (List UInt8) :=
  if offset + bytes.length ≤ buffer.length then some (overwrite buffer offset bytes) else none

/-- `append` with that copy; nothing when it would leave the buffer. -/
def appendChecked (r : FrameReceiver) (chunk : FrameData) :
    Option (FrameReceiver × Option Batch) :=
  if !r.haveInfo then some (r, none)
  else if chunk.seq ≠ r.info.seq then
    some ({ r with stats := { r.stats with straySeq := r.stats.straySeq + 1 } }, none)
  else if chunk.offset.toNat + chunk.bytes.length > r.compressed.length then
    some (r.countMalformed, none)
  else
    (copyInto r.compressed chunk.offset.toNat chunk.bytes).map fun compressed =>
      let received := r.received + chunk.bytes.length
      if received < compressed.length then ({ r with compressed, received }, none)
      else ({ r with compressed := [], received, haveInfo := false }, some ⟨r.info, compressed⟩)

/-- No copy leaves the buffer. -/
lemma appendChecked_eq (r : FrameReceiver) (chunk : FrameData) :
    r.appendChecked chunk = some (r.append chunk) := by
  unfold appendChecked append
  split_ifs with hhave hseq hroom
  · rfl
  · rfl
  · rfl
  · rw [copyInto, if_pos (not_lt.mp hroom), Option.map_some]

/-! ### What is queued -/

lemma of_needed {g : ViewportGeometry} {tiles : List UInt16} {n : ℕ}
    (h : needed g tiles = some n) : InGrid g tiles ∧ n = (tiles.map g.tileBytes).sum := by
  induction tiles generalizing n with
  | nil =>
    obtain rfl := Option.some.inj h
    exact ⟨fun t ht => absurd ht List.not_mem_nil, rfl⟩
  | cons a r ih =>
    unfold needed at h
    dsimp only at h
    split_ifs at h with hout
    obtain ⟨k, hk, rfl⟩ := Option.map_eq_some_iff.mp h
    obtain ⟨hgrid, rfl⟩ := ih hk
    refine ⟨fun t ht => ?_, rfl⟩
    rcases List.mem_cons.mp ht with rfl | hr
    · by_contra hlarge
      refine hout (.inl ?_)
      rw [tileOutputRect, if_pos (by omega)]
    · exact hgrid t hr

variable {decompress : List UInt8 → ℕ → Option (List UInt8)} {r : FrameReceiver}

lemma safe_of_accept {b : Batch} {batch : FrameBatch} (h : accept decompress b = some batch) :
    batch.Safe := by
  unfold accept at h
  dsimp only at h
  split_ifs at h with hf hv
  split at h
  · contradiction
  · split_ifs at h with hlen hneed
    obtain rfl := Option.some.inj h
    obtain ⟨hgrid, hsum⟩ := of_needed (not_not.mp hneed)
    exact ⟨by simpa using hv, hgrid, hsum⟩

/-- All that is queued is safe, and there is not too much of it. -/
structure Sound (r : FrameReceiver) : Prop where
  safe : ∀ b ∈ r.ready, b.Safe
  atMost : r.ready.length ≤ kMaxQueued

lemma Sound.of_ready {r' : FrameReceiver} (h : r'.ready = r.ready) (hr : r.Sound) : r'.Sound :=
  ⟨h ▸ hr.safe, h ▸ hr.atMost⟩

lemma Sound.finish (hr : r.Sound) (b : Batch) : (r.finish decompress b).Sound := by
  cases hb : accept decompress b with
  | none => exact hr.of_ready (by rw [StreamReset.finish_of_refused decompress hb]; rfl)
  | some batch =>
    have hready := (StreamReset.finish_of_accepted decompress (r := r) hb).2
    have hmax := hr.atMost
    refine ⟨fun c hc => ?_, ?_⟩
    · rw [hready] at hc
      rcases List.mem_append.mp hc with h | h
      · split_ifs at h
        · exact hr.safe c (List.mem_of_mem_drop h)
        · exact hr.safe c h
      · obtain rfl := List.mem_singleton.mp h
        exact safe_of_accept hb
    · rw [hready, List.length_append, List.length_singleton]
      split_ifs with hfull
      · rw [List.length_drop]
        exact (Nat.sub_add_cancel (by unfold kMaxQueued at hfull; omega)).trans_le hmax
      · exact not_le.mp hfull

/-- One thing that happens to the receiver. What a message decompresses to, if it comes to that,
is up to the library and the bytes. -/
inductive Event
  | message (decompress : List UInt8 → ℕ → Option (List UInt8)) (m : Msg)
  | take
  | reset

def event (r : FrameReceiver) : Event → FrameReceiver
  | .message decompress m => r.onMessage decompress m
  | .take => r.take.2
  | .reset => r.reset

def events (r : FrameReceiver) (es : List Event) : FrameReceiver := es.foldl event r

lemma Sound.event (hr : r.Sound) (e : Event) : (r.event e).Sound := by
  cases e with
  | message d m =>
    have hready := ready_assemble r m
    show (r.onMessage d m).Sound
    unfold onMessage
    split
    · next he => exact hr.of_ready (by rw [← hready, he])
    · next he => exact Sound.finish (hr.of_ready (by rw [← hready, he])) _
  | take => exact ⟨fun b hb => absurd hb List.not_mem_nil, Nat.zero_le _⟩
  | reset => exact ⟨fun b hb => absurd hb List.not_mem_nil, Nat.zero_le _⟩

lemma Sound.events (hr : r.Sound) (es : List Event) : (r.events es).Sound := by
  induction es generalizing r with
  | nil => exact hr
  | cons e es ih => exact ih (hr.event e)

lemma sound_empty : Sound {} := ⟨fun _ hb => absurd hb List.not_mem_nil, Nat.zero_le _⟩

/-- **Whatever arrives, a batch that is queued is safe to upload**: it has a grid, its tiles are on
it and take exactly its bytes, and the renderer walks them to the end. No chunk is copied past the
buffer it is copied into, and the queue stays short. -/
theorem events_safe (es : List Event) :
    (∀ b ∈ (events {} es).ready, b.geometry.valid = true ∧
      (∀ t ∈ b.tiles, (t.toNat : ℤ) < b.geometry.tileCount) ∧
      b.blocks.length = (b.tiles.map fun t => etc2Size (b.geometry.tileOutputRect t.toNat).w
        (b.geometry.tileOutputRect t.toNat).h).sum ∧
      (∀ t : Texture, (t.writeTiles b.geometry b.tiles b.blocks).2 = true) ∧
      uploadFrom b.geometry b.blocks 0 b.tiles = some b.blocks.length) ∧
    (∀ chunk, (events {} es).appendChecked chunk = some ((events {} es).append chunk)) ∧
    (events {} es).ready.length ≤ kMaxQueued := by
  have hs := sound_empty.events es
  refine ⟨fun b hb => ?_, appendChecked_eq _, hs.atMost⟩
  have hb := hs.safe b hb
  refine ⟨hb.valid, hb.inGrid, hb.length, fun t => ?_, hb.consumed⟩
  have := Texture.writeTiles_snd b.geometry t b.blocks b.tiles 0
  rwa [List.drop_zero, hb.consumed] at this

end FrameReceiver

end Digitiz
