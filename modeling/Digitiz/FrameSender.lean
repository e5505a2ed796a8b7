import Digitiz.Messages
import Digitiz.TileSampling
import Digitiz.TileScheduler

/-!
Picks tiles, reads them, encodes them and cuts them into messages.

A batch is chosen before anything is read, because what a read costs is the size of the box
around the tiles. The capture encodes the batch itself where it can; otherwise the pixels of the
box come across and are encoded here. Only what was handed over is marked sent.
-/

namespace Digitiz

structure TileJob where
  src : Recti
  outW : ℤ
  outH : ℤ
  deriving DecidableEq, Repr

/-- A capture at one moment: the rectangle of the desktop it sees, an encoder on the graphics
card if there is one, and the pixels of a box. -/
structure FrameSource where
  bounds : Recti
  encoder : Option (List TileJob → Option (List UInt8)) := none
  read : Recti → Option (ℤ → ℤ → Pixel)

namespace FrameSource

/-- A tile hanging over the edge would be sampled differently there, so the whole batch is handed
back unless every tile is wholly inside. -/
def encodeTiles (s : FrameSource) (jobs : List TileJob) : Option (List UInt8) :=
  match s.encoder with
  | none => none
  | some encode =>
    if jobs = [] then none
    else if jobs.any fun job => job.src.x < s.bounds.x ∨ job.src.y < s.bounds.y ∨
        job.src.x + job.src.w > s.bounds.x + s.bounds.w ∨
        job.src.y + job.src.h > s.bounds.y + s.bounds.h then none
    else encode (jobs.map fun job =>
      { job with src := { job.src with x := job.src.x - s.bounds.x, y := job.src.y - s.bounds.y } })

end FrameSource

/-- A batch as it leaves: what it is, and the bytes it is made of. -/
structure Batch where
  info : FrameInfo
  compressed : List UInt8

namespace Batch

/-- The slices of the bytes from an offset on. Cut small on purpose: the chunk size bounds how
long a pointer message can sit behind a frame. -/
def chunksFrom (seq : UInt32) (bytes : List UInt8) (offset : ℕ) : List FrameData :=
  if _h : offset < bytes.length then
    ⟨seq, UInt32.ofNat offset,
      (bytes.drop offset).take (min kFrameChunkBytes (bytes.length - offset))⟩
      :: chunksFrom seq bytes (offset + kFrameChunkBytes)
  else []
termination_by bytes.length - offset
decreasing_by unfold kFrameChunkBytes; omega

def chunks (b : Batch) : List FrameData := chunksFrom b.info.seq b.compressed 0

/-- The messages of a batch, in the order they are handed over. -/
def messages (b : Batch) : List (List UInt8) := b.info.encode :: b.chunks.map FrameData.encode

end Batch

structure FrameSender where
  scheduler : TileScheduler := {}
  geometry : ViewportGeometry := {}
  request : ViewportReq := {}
  streaming : Bool := false
  geometryReady : Bool := false
  seq : UInt32 := 0
  budgetTiles : ℤ := 32
  penDown : Bool := false
  penX : ℤ := 0
  penY : ℤ := 0

/-- The grid a request asks for. -/
def ViewportReq.geometry (r : ViewportReq) : ViewportGeometry :=
  makeGeometry ⟨r.x.toInt, r.y.toInt, r.w.toInt, r.h.toInt⟩ r.outW.toNat r.outH.toNat r.tile.toNat

namespace FrameSender

def setViewport (f : FrameSender) (request : ViewportReq) : FrameSender :=
  let fresh := request.geometry
  let wantsStream := request.fps > 0 ∧ request.format ≠ .off
  if ¬wantsStream ∨ !fresh.valid then { f with streaming := false, request := request }
  -- only ETC2 exists so far
  else if request.format ≠ .etc2Rgb8 then { f with streaming := false }
  else
    let changed := !f.geometryReady ∨ fresh.region ≠ f.geometry.region ∨
      fresh.outW ≠ f.geometry.outW ∨ fresh.outH ≠ f.geometry.outH ∨ fresh.tile ≠ f.geometry.tile
    let f := { f with request := request, geometry := fresh, streaming := true }
    if changed then
      -- tile numbers no longer mean the same places
      { f with geometryReady := true, scheduler := f.scheduler.configure fresh.cols fresh.rows }
    else f

/-- Stops sending and forgets the guest's picture. -/
def stop (f : FrameSender) : FrameSender :=
  { f with
    streaming := false, geometryReady := false, scheduler := f.scheduler.configure 0 0 }

/-- What changed on the desktop since the last look. -/
structure FrameUpdate where
  full : Bool := false
  dirty : List Recti := []
  moves : List Recti := []

/-- Marks what changed. -/
def capture (f : FrameSender) : Option FrameUpdate → FrameSender
  | none => f
  | some update =>
    let s := if update.full ∨ update.dirty = [] then f.scheduler.markAllDirty
      else update.dirty.foldl (fun s d => s.markDirtyRect (f.geometry.tilesTouching d)) f.scheduler
    { f with
      scheduler := update.moves.foldl
        (fun s d => s.markDirtyRect (f.geometry.tilesTouching d)) s }

def setPen (f : FrameSender) (down : Bool) (x y : ℤ) : FrameSender :=
  { f with penDown := down, penX := x, penY := y }

def setBudgetTiles (f : FrameSender) (tiles : ℤ) : FrameSender :=
  { f with budgetTiles := if tiles > 0 then tiles else 1 }

/-- The tile the pen is on, or -1. -/
def penTile (f : FrameSender) : ℤ :=
  if !f.penDown ∨ !f.geometry.valid then -1
  else
    let hit := f.geometry.tilesTouching ⟨f.penX, f.penY, 1, 1⟩
    if hit.w ≤ 0 ∨ hit.h ≤ 0 then -1 else hit.y * f.geometry.cols + hit.x

/-- The smallest rectangle around two. -/
def join (box src : Recti) : Recti :=
  let x0 := min box.x src.x
  let y0 := min box.y src.y
  let x1 := max (box.x + box.w) (src.x + src.w)
  let y1 := max (box.y + box.h) (src.y + src.h)
  ⟨x0, y0, x1 - x0, y1 - y0⟩

/-- Makes a box large enough for one more tile. -/
def extend (g : ViewportGeometry) (box : Option Recti) (index : UInt16) : Option Recti :=
  let src := g.tileSourceRect index.toNat
  if src.w ≤ 0 ∨ src.h ≤ 0 then box
  else
    match box with
    | none => some src
    | some box => some (join box src)

/-- The box around the source rectangles of the tiles. -/
def boundingBox (g : ViewportGeometry) (tiles : List UInt16) : Option Recti :=
  tiles.foldl (extend g) none

/-- The part of a box inside the bounds of the capture. -/
def clip (box bounds : Recti) : Option Recti :=
  let x0 := max box.x bounds.x
  let y0 := max box.y bounds.y
  let x1 := min (box.x + box.w) (bounds.x + bounds.w)
  let y1 := min (box.y + box.h) (bounds.y + bounds.h)
  if x1 ≤ x0 ∨ y1 ≤ y0 then none else some ⟨x0, y0, x1 - x0, y1 - y0⟩

/-- What is to be read for the tiles, if any of it can be seen. -/
def selectionBox (g : ViewportGeometry) (bounds : Recti) (tiles : List UInt16) : Option Recti :=
  (boundingBox g tiles).bind fun box => clip box bounds

def job (g : ViewportGeometry) (index : UInt16) : TileJob :=
  let out := g.tileOutputRect index.toNat
  ⟨g.tileSourceRect index.toNat, out.w, out.h⟩

/-- The jobs for the capture's own encoder; none at all if one of the tiles is empty. -/
def jobs (g : ViewportGeometry) (tiles : List UInt16) : List TileJob :=
  if (tiles.map (job g)).any fun j => j.outW ≤ 0 ∨ j.outH ≤ 0 ∨ j.src.w ≤ 0 ∨ j.src.h ≤ 0 then []
  else tiles.map (job g)

/-- Cuts the tiles out of the pixels read and encodes them; a tile that cannot be is left out. -/
def encodeHere (g : ViewportGeometry) (readRect : Recti) (pixels : ℤ → ℤ → Pixel)
    (tiles : List UInt16) : List (UInt16 × List UInt8) :=
  tiles.filterMap fun index =>
    ((gatherTile g readRect pixels index.toNat).bind fun (w, h, tilePixels) =>
      etc2Encode tilePixels w h (w * 4)).map fun blocks => (index, blocks)

/-- The tiles that can go out and their blocks, one after the other. -/
def encodeSelection (source : FrameSource) (g : ViewportGeometry) (selected : List UInt16) :
    Option (List UInt16 × List UInt8) :=
  match source.encodeTiles (jobs g selected) with
  | some blocks => some (selected, blocks)
  | none =>
    (selectionBox g source.bounds selected).bind fun box =>
      (source.read box).map fun pixels =>
        let encoded := encodeHere g box pixels selected
        (encoded.map Prod.fst, encoded.flatMap Prod.snd)

/-- Resolves the pen's tile. Done for every batch, so that a viewport change cannot leave a tile
number meaning a different square than it did. -/
def focusPen (f : FrameSender) : FrameSender :=
  { f with scheduler := f.scheduler.setFocus f.penTile }

/-- What opens a batch of these tiles. -/
def frameInfo (f : FrameSender) (sent : List UInt16) (payload compressed : List UInt8) :
    FrameInfo where
  seq := f.seq
  x := Int32.ofInt f.geometry.region.x
  y := Int32.ofInt f.geometry.region.y
  w := Int32.ofInt f.geometry.region.w
  h := Int32.ofInt f.geometry.region.h
  outW := UInt16.ofInt f.geometry.outW
  outH := UInt16.ofInt f.geometry.outH
  format := .etc2Rgb8
  tile := UInt8.ofInt f.geometry.tile
  rawBytes := UInt32.ofNat payload.length
  payloadBytes := UInt32.ofNat compressed.length
  tiles := sent

variable (source : FrameSource) (compress : List UInt8 → Option (List UInt8))

/-- Everything up to the moment the first message is handed over. -/
def prepareBatch (f : FrameSender) : FrameSender × Option Batch :=
  let f := f.focusPen
  let selected := f.scheduler.select f.budgetTiles
  if selected = [] then (f, none)
  else
    match encodeSelection source f.geometry selected with
    | none => (f, none)
    | some (sent, payload) =>
      if sent = [] then (f, none)
      else
        match compress payload with
        | none => (f, none)
        | some compressed =>
          let f := { f with seq := f.seq + 1 }
          (f, some ⟨f.frameInfo sent payload compressed, compressed⟩)

/-- Only now, because a tile that never reached the queue is still owed. -/
def finishBatch (f : FrameSender) (b : Batch) : FrameSender :=
  { f with scheduler := f.scheduler.markSent b.info.tiles }

def sendBatch (f : FrameSender) : FrameSender × Option Batch :=
  match f.prepareBatch source compress with
  | (f, none) => (f, none)
  | (f, some b) => (f.finishBatch b, some b)

end FrameSender

end Digitiz
