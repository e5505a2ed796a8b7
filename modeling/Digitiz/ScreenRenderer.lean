import Digitiz.FrameReceiver

/-!
The picture on the guest: one compressed texture that batches are written into.

A batch is a patch and not a picture, so what it does not cover stays as it was. Only a change of
the encoded size makes a new texture, and forgetting the picture merely stops it from being drawn.
-/

namespace Digitiz

/-- A texture, as the blocks last written over exactly a given rectangle, as long as nothing was
written across it since. -/
structure Texture where
  w : ℤ
  h : ℤ
  cells : Recti → Option (List UInt8) := fun _ => none

def Recti.overlaps (a b : Recti) : Bool :=
  a.x < b.x + b.w ∧ b.x < a.x + a.w ∧ a.y < b.y + b.h ∧ b.y < a.y + a.h

namespace Texture

def write (t : Texture) (rect : Recti) (blocks : List UInt8) : Texture :=
  { t with
    cells := fun r => if r = rect then some blocks else if r.overlaps rect then none else t.cells r }

/-- The tiles of a batch one after the other; false when the bytes run out. -/
def writeTiles (g : ViewportGeometry) (t : Texture) : List UInt16 → List UInt8 → Texture × Bool
  | [], _ => (t, true)
  | index :: tiles, blocks =>
    let rect := g.tileOutputRect index.toNat
    let size := etc2Size rect.w rect.h
    if size = 0 ∨ size > blocks.length then (t, false)
    else writeTiles g (t.write rect (blocks.take size)) tiles (blocks.drop size)

end Texture

structure ScreenRenderer where
  /-- The program is there; without it nothing is drawn or uploaded. -/
  ready : Bool := false
  texture : Option Texture := none
  region : Recti := {}
  painted : Bool := false

namespace ScreenRenderer

def init (s : ScreenRenderer) : ScreenRenderer := { s with ready := true }

/-- The objects die with the context. -/
def release (s : ScreenRenderer) : ScreenRenderer :=
  { s with ready := false, texture := none, painted := false }

/-- Forgets the picture without giving the texture up. -/
def clear (s : ScreenRenderer) : ScreenRenderer := { s with painted := false }

def hasImage (s : ScreenRenderer) : Bool := s.texture.isSome && s.painted

/-- A new texture if the size changed, and then nothing is on it. -/
def ensureTexture (s : ScreenRenderer) (w h : ℤ) : Texture × Bool :=
  match s.texture with
  | some t => if t.w = w ∧ t.h = h then (t, s.painted) else ({ w, h }, false)
  | none => ({ w, h }, false)

def upload (s : ScreenRenderer) (batch : FrameBatch) : ScreenRenderer :=
  if !s.ready ∨ !batch.geometry.valid then s
  else
    let (t, painted) := s.ensureTexture batch.geometry.outW batch.geometry.outH
    match t.writeTiles batch.geometry batch.tiles batch.blocks with
    | (t, false) => { s with texture := some t, painted := painted }
    | (t, true) => { s with texture := some t, region := batch.geometry.region, painted := true }

end ScreenRenderer

end Digitiz
