import Mathlib.Order.Lattice
import Mathlib.Tactic.Common

/-!
Rectangles of PC virtual-desktop pixels. Coordinates go negative on multi-monitor layouts, and
are integers without bound here: no operation of the source is meant to leave 32 bits.
-/

namespace Digitiz

structure Recti where
  x : ℤ := 0
  y : ℤ := 0
  w : ℤ := 0
  h : ℤ := 0
  deriving DecidableEq, Repr

namespace Recti

def contains (r : Recti) (px py : ℤ) : Bool :=
  px ≥ r.x && py ≥ r.y && px < r.x + r.w && py < r.y + r.h

lemma contains_iff {r : Recti} {px py : ℤ} : r.contains px py = true ↔
    (r.x ≤ px ∧ px < r.x + r.w) ∧ (r.y ≤ py ∧ py < r.y + r.h) := by
  simp only [contains, Bool.and_eq_true, decide_eq_true_eq]
  omega

end Recti

end Digitiz
