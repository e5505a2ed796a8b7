import Digitiz.SentBatches

/-!
The grid on both sides of the cable.

The host normalises what was asked for, sends the result in the fields of a `FrameInfo`, and the
guest normalises those once more. That gives the grid back except where a field is too narrow: a
tile of 256 pixels, which is what a request for 253 or more is rounded up to, travels as 0, and 0
stands for 64.
-/

namespace Digitiz

open ViewportGeometry

/-- The grid a batch is laid out on, on the guest's side. -/
def FrameInfo.geometry (info : FrameInfo) : ViewportGeometry :=
  makeGeometry ⟨info.x.toInt, info.y.toInt, info.w.toInt, info.h.toInt⟩ info.outW.toNat
    info.outH.toNat info.tile.toNat

/-- It is the one the batch is queued with. -/
lemma FrameReceiver.accept_geometry {decompress : List UInt8 → ℕ → Option (List UInt8)} {b : Batch}
    {batch : FrameBatch} (h : accept decompress b = some batch) :
    batch.geometry = b.info.geometry := by
  unfold accept at h
  dsimp only at h
  split_ifs at h
  split at h
  · contradiction
  · split_ifs at h
    rw [← Option.some.inj h]
    rfl

/-! ### The size of a tile -/

namespace ViewportReq

variable {r : ViewportReq}

/-- The tiles asked for, rounded up; 64 if nothing was asked for. -/
lemma tile_geometry (hv : r.geometry.valid = true) :
    r.geometry.tile = roundUpTo (Rescale.clamp (if r.tile = 0 then 64 else r.tile.toNat) 8 256) 4 := by
  obtain ⟨hw, hh⟩ := pos_of_valid hv
  have h0 : ((r.tile.toNat : ℤ) ≤ 0) ↔ r.tile = 0 := by
    rw [← UInt8.toNat_inj, UInt8.toNat_zero]
    omega
  rw [geometry, makeGeometry, if_neg (by dsimp only; omega)]
  simp only [h0]

lemma tile_lt_iff (hv : r.geometry.valid = true) : r.geometry.tile < 256 ↔ r.tile ≤ 252 := by
  have hlt := r.tile.toNat_lt
  rw [tile_geometry hv, UInt8.le_iff_toNat_le, UInt8.toNat_ofNat]
  simp only [roundUpTo, Rescale.clamp, show ¬(4 : ℤ) ≤ 0 by decide, if_false]
  split_ifs with h0
  · rw [h0, UInt8.toNat_zero]
    omega
  · omega

end ViewportReq

/-! ### While a request is served -/

namespace FrameSender

/-- What the sender does between one request and the next. -/
inductive Work
  | capture (update : Option FrameUpdate)
  | setPen (down : Bool) (x y : ℤ)
  | setBudgetTiles (tiles : ℤ)
  | sendBatch (source : FrameSource) (compress : List UInt8 → Option (List UInt8))

def work (f : FrameSender) : Work → FrameSender
  | .capture update => f.capture update
  | .setPen down x y => f.setPen down x y
  | .setBudgetTiles tiles => f.setBudgetTiles tiles
  | .sendBatch source compress => (f.sendBatch source compress).1

/-- The sender while it serves a request. -/
def serve (f : FrameSender) (r : ViewportReq) (ws : List Work) : FrameSender :=
  ws.foldl work (f.setViewport r)

variable {f : FrameSender} {r : ViewportReq}

lemma geometry_sendBatch (f : FrameSender) (source : FrameSource)
    (compress : List UInt8 → Option (List UInt8)) :
    (f.sendBatch source compress).1.geometry = f.geometry := by
  unfold sendBatch
  rcases prepareBatch_cases f source compress with h | ⟨sent, payload, c, -, -, h⟩
  · rw [h]
    rfl
  · rw [h]
    rfl

lemma geometry_work (f : FrameSender) (w : Work) : (f.work w).geometry = f.geometry := by
  cases w with
  | capture update => cases update <;> rfl
  | setPen down x y => rfl
  | setBudgetTiles tiles => rfl
  | sendBatch source compress => exact geometry_sendBatch f source compress

/-- The grid is the one of the request throughout. -/
lemma geometry_serve (hr : r.starts = true) (ws : List Work) :
    (f.serve r ws).geometry = r.geometry := by
  have hstart : (f.setViewport r).geometry = r.geometry := by
    rw [setViewport_of_starts f r hr]
    split_ifs <;> rfl
  unfold serve
  generalize f.setViewport r = f' at hstart
  induction ws generalizing f' with
  | nil => exact hstart
  | cons w ws ih => exact ih _ ((geometry_work f' w).trans hstart)

variable {source : FrameSource} {compress : List UInt8 → Option (List UInt8)} {b : Batch}

/-- What a batch says of its tiles is cut down to a byte. -/
lemma tile_sendBatch (hb : (f.sendBatch source compress).2 = some b) :
    b.info.tile = UInt8.ofInt f.geometry.tile := by
  obtain ⟨sent, payload, c, -, -, rfl, -⟩ := sendBatch_of_some hb
  rfl

lemma tile_makeGeometry_zero (region : Recti) (outW outH : ℤ) :
    (makeGeometry region outW outH 0).tile ≤ 64 := by
  unfold makeGeometry
  by_cases h : region.w ≤ 0 ∨ region.h ≤ 0
  · rw [if_pos h]
    decide
  · rw [if_neg h]
    dsimp only
    decide

/-- A tile of 256 pixels comes out as one of 64. -/
lemma geometry_ne_of_tile (hv : r.geometry.valid = true) (hg : f.geometry = r.geometry)
    (ht : 252 < r.tile) (hb : (f.sendBatch source compress).2 = some b) :
    b.info.geometry ≠ f.geometry := by
  have h256 : f.geometry.tile = 256 := by
    have hle := (bounded_of_valid r hv).tile_le
    have hge := mt (ViewportReq.tile_lt_iff hv).mp (by simpa using ht)
    rw [hg]
    omega
  intro h
  have hzero : b.info.tile.toNat = 0 := by
    rw [tile_sendBatch hb, h256]
    decide
  have htile := tile_makeGeometry_zero
    ⟨b.info.x.toInt, b.info.y.toInt, b.info.w.toInt, b.info.h.toInt⟩ b.info.outW.toNat
    b.info.outH.toNat
  rw [FrameInfo.geometry, hzero] at h
  rw [← Nat.cast_zero, h, h256] at htile
  omega

lemma geometry_eq_of_tile (hv : r.geometry.valid = true) (hg : f.geometry = r.geometry)
    (ht : r.tile ≤ 252) (hb : (f.sendBatch source compress).2 = some b) :
    b.info.geometry = f.geometry := by
  obtain ⟨sent, payload, c, -, -, rfl, -⟩ := sendBatch_of_some hb
  have hbd : f.geometry.Bounded := hg ▸ bounded_of_valid r hv
  have hlt : f.geometry.tile < 256 := hg ▸ (ViewportReq.tile_lt_iff hv).mpr ht
  exact geometry_frameInfo (f := { f.focusPen with seq := f.seq + 1 }) hg hbd hlt sent payload c

/-- **Host and guest agree on the grid** of a batch exactly when the request it was made for asked
for tiles of at most 252 pixels, whatever the sender did before it. -/
theorem sendBatch_sameGrid_iff (f : FrameSender) (hr : r.starts = true) (ws : List Work)
    (hb : ((f.serve r ws).sendBatch source compress).2 = some b) :
    (∃ info, FrameInfo.decode b.info.payload = some info ∧
      info.geometry = (f.serve r ws).geometry) ↔ r.tile ≤ 252 := by
  have hv := ViewportReq.valid_of_starts hr
  have hg : (f.serve r ws).geometry = r.geometry := geometry_serve hr ws
  rw [FrameInfo.decode_payload]
  constructor
  · rintro ⟨info, hinfo, hgeo⟩
    by_contra ht
    obtain rfl := Option.some.inj hinfo
    exact geometry_ne_of_tile hv hg (by simpa using ht) hb hgeo
  · exact fun ht => ⟨b.info, rfl, geometry_eq_of_tile hv hg ht hb⟩

/-- A capture that encodes a black screen. -/
def blackScreen : FrameSource where
  bounds := ⟨0, 0, 264, 8⟩
  encoder := some fun jobs =>
    some (jobs.flatMap fun job => List.replicate (etc2Size job.outW job.outH) 0)
  read _ := none

/-- A strip in tiles of 64 pixels. -/
def strip : ViewportReq :=
  { w := 264, h := 8, outW := 264, outH := 8, tile := 64, fps := 30, format := .etc2Rgb8 }

/-- The strip in the largest tiles that can be asked for. -/
def stripOfTwo : ViewportReq := { strip with tile := 255 }

theorem strip_sameGrid : ∃ b, ((serve {} strip []).sendBatch blackScreen some).2 = some b ∧
    ∃ info, FrameInfo.decode b.info.payload = some info ∧
      info.geometry = (serve {} strip []).geometry := by
  obtain ⟨b, hb⟩ := Option.isSome_iff_exists.mp
    (show ((serve {} strip []).sendBatch blackScreen some).2.isSome = true by decide)
  exact ⟨b, hb, (sendBatch_sameGrid_iff {} (by decide) [] hb).mpr (by decide)⟩

/-- Two tiles are sent, and the guest lays them out on another grid. -/
theorem stripOfTwo_otherGrid :
    stripOfTwo.starts = true ∧ stripOfTwo.geometry.cols = 2 ∧
      ∃ b, ((serve {} stripOfTwo []).sendBatch blackScreen some).2 = some b ∧
        ¬∃ info, FrameInfo.decode b.info.payload = some info ∧
          info.geometry = (serve {} stripOfTwo []).geometry := by
  obtain ⟨b, hb⟩ := Option.isSome_iff_exists.mp
    (show ((serve {} stripOfTwo []).sendBatch blackScreen some).2.isSome = true by decide)
  refine ⟨by decide, by decide, b, hb, ?_⟩
  rintro ⟨info, hinfo, hgeo⟩
  rw [FrameInfo.decode_payload] at hinfo
  obtain rfl := Option.some.inj hinfo
  exact geometry_ne_of_tile (r := stripOfTwo) (by decide) (by decide) (by decide) hb hgeo

end FrameSender

end Digitiz
