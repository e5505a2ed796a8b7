import Digitiz.Geometry
import Digitiz.SplineSmoother

/-!
Where the guest's surface lies on the desktop.

The canonical space is PC virtual-desktop pixels; a view maps it onto the device surface by a
scale and a pan. The scalars are those of the smoother: any ordered field with the operations of
the C library.
-/

namespace Digitiz

variable {R : Type} [Field R] [LinearOrder R]

namespace Point

instance : Add (Point R) := ⟨fun a b => ⟨a.x + b.x, a.y + b.y⟩⟩
instance : Sub (Point R) := ⟨fun a b => ⟨a.x - b.x, a.y - b.y⟩⟩
instance : HMul (Point R) R (Point R) := ⟨fun a s => ⟨a.x * s, a.y * s⟩⟩
instance : HDiv (Point R) R (Point R) := ⟨fun a s => ⟨a.x / s, a.y / s⟩⟩
instance : Zero (Point R) := ⟨⟨0, 0⟩⟩

end Point

structure ViewTransform (R : Type) where
  scale : R
  pan : Point R

namespace ViewTransform

/-- The value in the range, or the end of the range it lies beyond. -/
def clamp (v lo hi : R) : R := if v < lo then lo else if hi < v then hi else v

def kMinScale : R := (2 : ℕ) / (100 : ℕ)
def kMaxScale : R := 20

/-- A view as it is constructed: the desktop as it is. -/
def init : ViewTransform R := ⟨1, 0⟩

def toSurface (v : ViewTransform R) (pc : Point R) : Point R := (pc - v.pan) * v.scale

def toPc (v : ViewTransform R) (surface : Point R) : Point R := surface / v.scale + v.pan

/-- Scales about a point of the surface and keeps the desktop point under it where it is. -/
def zoomAbout (v : ViewTransform R) (surfaceAnchor : Point R) (factor : R) : ViewTransform R :=
  let pcAnchor := v.toPc surfaceAnchor
  let scale := clamp (v.scale * factor) kMinScale kMaxScale
  { scale := scale, pan := pcAnchor - surfaceAnchor / scale }

def panBy (v : ViewTransform R) (surfaceDelta : Point R) : ViewTransform R :=
  { v with pan := v.pan - surfaceDelta / v.scale }

/-- The middle of a rectangle. -/
def center (rect : Recti) : Point R :=
  ⟨(rect.x : R) + (rect.w : R) / (2 : ℕ), (rect.y : R) + (rect.h : R) / (2 : ℕ)⟩

/-- Frames a rectangle in the middle of a surface, with a part of the surface left empty around it.
The scale is that of what is left, and the middle that of the whole. -/
def fit (v : ViewTransform R) (rect : Recti) (surfaceW surfaceH margin : R) : ViewTransform R :=
  if rect.w ≤ 0 ∨ rect.h ≤ 0 ∨ surfaceW ≤ 0 ∨ surfaceH ≤ 0 then v
  else
    let usable := clamp (1 - margin) ((5 : ℕ) / (100 : ℕ)) 1
    let s := min (surfaceW * usable / (rect.w : R)) (surfaceH * usable / (rect.h : R))
    let scale := clamp s kMinScale kMaxScale
    { scale := scale
      pan := center rect - (⟨surfaceW / (2 : ℕ), surfaceH / (2 : ℕ)⟩ : Point R) / scale }

def set (_ : ViewTransform R) (scale : R) (pan : Point R) : ViewTransform R :=
  { scale := clamp scale kMinScale kMaxScale, pan := pan }

end ViewTransform

end Digitiz
