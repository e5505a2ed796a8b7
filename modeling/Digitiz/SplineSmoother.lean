import Mathlib.Algebra.Field.Rat
import Mathlib.Algebra.Order.Ring.Rat
import Mathlib.Order.Lattice
import Mathlib.Tactic.Common

/-!
Catmull-Rom smoothing of an incoming stroke.

The scalars are any ordered field together with the operations of the C library the source
calls. The window holds the last samples, at most four of them; the curve between the second
and the third is drawn once the fourth is there, so the path trails the finger by one sample and
catches up at the end. What the source hands to an `emit` callback point by point is a list
here, in the same order.
-/

namespace Digitiz

/-- The operations of the C mathematics library that are used beyond those of a field. -/
class FloatOps (R : Type) where
  sqrt : R → R
  pow : R → R → R
  ceil : R → ℤ
  /-- Rounds to the nearest integer, halves away from zero. -/
  lround : R → ℤ

/-- Rational stand-ins for the library's operations, with roots rounded down to a 1024th. -/
instance : FloatOps ℚ where
  sqrt q := (Nat.sqrt (q * 1048576).floor.toNat : ℚ) / 1024
  pow q a := if a = 0 then 1 else if a = 1 then q else
    (Nat.sqrt (q * 1048576).floor.toNat : ℚ) / 1024
  ceil := Rat.ceil
  lround q := if 0 ≤ q then (q + 1 / 2).floor else -(-q + 1 / 2).floor

@[ext] structure Point (R : Type) where
  x : R
  y : R
  deriving DecidableEq

def kMaxSubdivisions : ℤ := 64

/-- The settings and the window of samples. -/
structure SplineSmoother (R : Type) where
  enabled : Bool
  stepPx : R
  alpha : R
  window : List (Point R)
  window_le : window.length ≤ 4

namespace SplineSmoother

variable {R : Type}

def setEnabled (s : SplineSmoother R) (on : Bool) : SplineSmoother R := { s with enabled := on }

def setAlpha (s : SplineSmoother R) (alpha : R) : SplineSmoother R := { s with alpha := alpha }

def reset (s : SplineSmoother R) : SplineSmoother R :=
  { s with window := [], window_le := Nat.zero_le _ }

/-- Stroke start. The first point is doubled to stand in for the missing one before it. -/
def begin (s : SplineSmoother R) (x y : R) : SplineSmoother R :=
  { s with window := [⟨x, y⟩, ⟨x, y⟩], window_le := by simp }

lemma snoc_le (w : List (Point R)) (p : Point R) (h : w.length < 4) :
    (w ++ [p]).length ≤ 4 := by
  simp only [List.length_append, List.length_singleton]
  omega

lemma shift_le (w : List (Point R)) (p : Point R) (h : w.length ≤ 4) :
    (w.tail ++ [p]).length ≤ 4 := by
  simp; omega

def push (s : SplineSmoother R) (p : Point R) : SplineSmoother R :=
  if h : s.window.length < 4 then
    { s with window := s.window ++ [p], window_le := snoc_le _ p h }
  else
    { s with window := s.window.tail ++ [p], window_le := shift_le _ p s.window_le }

@[simp] lemma length_push (s : SplineSmoother R) (p : Point R) :
    (s.push p).window.length = min (s.window.length + 1) 4 := by
  have := s.window_le
  unfold push
  split <;> simp <;> omega

variable [Field R] [LinearOrder R]

/-- A smoother as it is constructed. -/
def init : SplineSmoother R := ⟨false, 3, 1 / 2, [], Nat.zero_le _⟩

def setStepPx (s : SplineSmoother R) (px : R) : SplineSmoother R :=
  { s with stepPx := if px > 1 / 4 then px else 1 / 4 }

variable [FloatOps R]

def distance (ax ay bx byy : R) : R :=
  let dx := bx - ax
  let dy := byy - ay
  FloatOps.sqrt (dx * dx + dy * dy)

/-- The span between the second and the third sample of a full window. -/
def emitSegment (s : SplineSmoother R) : List (Point R) :=
  match s.window with
  | [p0, p1, p2, p3] =>
    let tiny : R := 1 / 1000000000
    let span := distance p1.x p1.y p2.x p2.y
    if span ≤ tiny then [] -- the finger did not move
    else
      let t0 : R := 0
      let t1 := t0 + FloatOps.pow (distance p0.x p0.y p1.x p1.y) s.alpha
      let t2 := t1 + FloatOps.pow span s.alpha
      let t3 := t2 + FloatOps.pow (distance p2.x p2.y p3.x p3.y) s.alpha
      let steps := (max 1 (min (FloatOps.ceil (span / s.stepPx)) kMaxSubdivisions)).toNat
      let ratio (i : ℕ) : R := ((i + 1 : ℕ) : R) / (steps : R)
      -- a knot interval of zero would be divided by; a straight line is the answer there
      if t1 - t0 ≤ tiny ∨ t2 - t1 ≤ tiny ∨ t3 - t2 ≤ tiny then
        (List.range steps).map fun i =>
          ⟨p1.x + (p2.x - p1.x) * ratio i, p1.y + (p2.y - p1.y) * ratio i⟩
      else
        (List.range steps).map fun i =>
          let t := t1 + (t2 - t1) * ratio i
          let mix (u v a b : R) : R := (v - t) / (v - u) * a + (t - u) / (v - u) * b
          let axis (f : Point R → R) : R :=
            let a1 := mix t0 t1 (f p0) (f p1)
            let a2 := mix t1 t2 (f p1) (f p2)
            let a3 := mix t2 t3 (f p2) (f p3)
            let b1 := mix t0 t2 a1 a2
            let b2 := mix t1 t3 a2 a3
            mix t1 t2 b1 b2
          ⟨axis Point.x, axis Point.y⟩
  | _ => []

/-- A new sample: the points that became drawable, and the smoother after it. -/
def add (s : SplineSmoother R) (x y : R) : List (Point R) × SplineSmoother R :=
  if !s.enabled then ([⟨x, y⟩], s)
  else if s.window.length = 0 then ([⟨x, y⟩], s.begin x y)
  else
    let s := s.push ⟨x, y⟩
    (if s.window.length = 4 then s.emitSegment else [], s)

/-- Pads a window that is not full yet with its last sample. -/
def fill (s : SplineSmoother R) : List (Point R) × SplineSmoother R :=
  if _h : s.window.length < 4 then
    let s' := s.push (s.window.getLastD ⟨0, 0⟩)
    let seg := if s'.window.length = 4 then s'.emitSegment else []
    let (rest, s'') := fill s'
    (seg ++ rest, s'')
  else ([], s)
termination_by 4 - s.window.length
decreasing_by simp only [length_push]; omega

/-- Stroke end: drains the window so the path finishes on the last sample received. -/
def finish (s : SplineSmoother R) : List (Point R) × SplineSmoother R :=
  if !s.enabled ∨ s.window.length = 0 then ([], s.reset)
  else
    let (seg, s) := s.fill
    let s := s.push (s.window.getLastD ⟨0, 0⟩)
    (seg ++ s.emitSegment, s.reset)

end SplineSmoother

end Digitiz
