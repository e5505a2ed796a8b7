import Digitiz.FrameSender
import Digitiz.Framer

/-!
Puts the host's tile batches back together.

A `FrameInfo` names the tiles of a batch, `FrameData` chunks fill its bytes in, and once they are
all there the batch is decompressed and queued for the render thread. Assembly is kept apart from
what happens to a complete batch, since the lock is let go between the two.
-/

namespace Digitiz

open Digitiz.Wire

/-- One batch, assembled and decompressed. It carries its own geometry: a batch that crosses a
viewport change belongs to the request it was made for. -/
structure FrameBatch where
  geometry : ViewportGeometry
  tiles : List UInt16
  blocks : List UInt8

structure FrameReceiver.Stats where
  batches : ℕ := 0
  tiles : ℕ := 0
  bytes : ℕ := 0
  malformed : ℕ := 0
  straySeq : ℕ := 0
  dropped : ℕ := 0

structure FrameReceiver where
  info : FrameInfo := {}
  compressed : List UInt8 := []
  received : ℕ := 0
  haveInfo : Bool := false
  ready : List FrameBatch := []
  stats : FrameReceiver.Stats := {}

namespace FrameReceiver

def kMaxQueued : ℕ := 8

def countMalformed (r : FrameReceiver) : FrameReceiver :=
  { r with stats := { r.stats with malformed := r.stats.malformed + 1 } }

/-- A batch that never completed is abandoned here. -/
def begin (r : FrameReceiver) (info : FrameInfo) : FrameReceiver :=
  { r with
    info := info
    compressed := List.replicate info.payloadBytes.toNat 0
    received := 0
    haveInfo := info.payloadBytes > 0 }

/-- Writes bytes over those at an offset. -/
def overwrite (buffer : List UInt8) (offset : ℕ) (bytes : List UInt8) : List UInt8 :=
  buffer.take offset ++ bytes ++ buffer.drop (offset + bytes.length)

/-- What is handed on when the chunk was the last one missing. -/
def append (r : FrameReceiver) (chunk : FrameData) : FrameReceiver × Option Batch :=
  if !r.haveInfo then (r, none)
  -- left over from a batch that was replaced
  else if chunk.seq ≠ r.info.seq then
    ({ r with stats := { r.stats with straySeq := r.stats.straySeq + 1 } }, none)
  else if chunk.offset.toNat + chunk.bytes.length > r.compressed.length then
    (r.countMalformed, none)
  else
    let compressed := overwrite r.compressed chunk.offset.toNat chunk.bytes
    let received := r.received + chunk.bytes.length
    if received < compressed.length then ({ r with compressed, received }, none)
    else ({ r with compressed := [], received, haveInfo := false }, some ⟨r.info, compressed⟩)

/-- Everything a message does before a complete batch is looked at. -/
def assemble (r : FrameReceiver) (m : Msg) : FrameReceiver × Option Batch :=
  if m.type = .frameInfo then
    match FrameInfo.decode m.payload with
    | none => (r.countMalformed, none)
    | some info => (r.begin info, none)
  else if m.type = .frameData then
    match FrameData.decode m.payload with
    | none => (r.countMalformed, none)
    | some chunk => r.append chunk
  else (r, none)

/-- The bytes the tiles take, if they are all on the grid. -/
def needed (g : ViewportGeometry) : List UInt16 → Option ℕ
  | [] => some 0
  | index :: tiles =>
    let rect := g.tileOutputRect index.toNat
    if rect.w ≤ 0 ∨ rect.h ≤ 0 then none
    else (needed g tiles).map (etc2Size rect.w rect.h + ·)

section finish

variable (decompress : List UInt8 → ℕ → Option (List UInt8))

/-- What a complete batch comes to: every byte has to be spoken for. -/
def accept (b : Batch) : Option FrameBatch :=
  if b.info.format ≠ .etc2Rgb8 then none
  else
    let geometry := makeGeometry ⟨b.info.x.toInt, b.info.y.toInt, b.info.w.toInt, b.info.h.toInt⟩
      b.info.outW.toNat b.info.outH.toNat b.info.tile.toNat
    if !geometry.valid then none
    else
      match decompress b.compressed b.info.rawBytes.toNat with
      | none => none
      | some blocks =>
        if blocks.length ≠ b.info.rawBytes.toNat then none
        else if needed geometry b.info.tiles ≠ some blocks.length then none
        else some ⟨geometry, b.info.tiles, blocks⟩

def finish (r : FrameReceiver) (b : Batch) : FrameReceiver :=
  match accept decompress b with
  | none => r.countMalformed
  | some batch =>
    let full := r.ready.length ≥ kMaxQueued
    { r with
      ready := (if full then r.ready.drop 1 else r.ready) ++ [batch]
      stats := { r.stats with
        dropped := if full then r.stats.dropped + 1 else r.stats.dropped
        batches := r.stats.batches + 1
        tiles := r.stats.tiles + batch.tiles.length
        bytes := r.stats.bytes + b.compressed.length } }

def onMessage (r : FrameReceiver) (m : Msg) : FrameReceiver :=
  match r.assemble m with
  | (r, none) => r
  | (r, some b) => r.finish decompress b

end finish

/-- The link went away, or the stream was turned off. -/
def reset (r : FrameReceiver) : FrameReceiver :=
  { r with haveInfo := false, received := 0, compressed := [], ready := [] }

/-- Everything completed since the last call, oldest first. -/
def take (r : FrameReceiver) : List FrameBatch × FrameReceiver := (r.ready, { r with ready := [] })

end FrameReceiver

end Digitiz
