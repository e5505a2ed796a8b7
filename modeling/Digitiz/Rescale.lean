import Mathlib.Algebra.Order.Group.Int
import Mathlib.Algebra.Order.Ring.Int
import Mathlib.Tactic.Linarith

/-!
Carrying positions from one integer scale to another, rounding down or up.

A strip of `W` cells is laid over a strip of `O` cells. The edge `v` of one falls at `v * W / O`
on the other; rounded down or up, it is on one side of another edge exactly when a product is.
A block of cells that would come out empty is given one cell. The cells a block is drawn from
are then always covered by it again on the way back, whichever way the roundings fell.
-/

namespace Digitiz.Rescale

/-- The edge `v` of a strip of `n` cells on a strip of `m`, rounded down. -/
def down (v n m : ℤ) : ℤ := v * m / max n 1

/-- The same, rounded up. -/
def up (v n m : ℤ) : ℤ := (v * m + max n 1 - 1) / max n 1

/-- A value held between two bounds. -/
def clamp (v lo hi : ℤ) : ℤ := max lo (min v hi)

variable {v n m u : ℤ}

lemma down_eq (hn : 0 < n) : down v n m = v * m / n := by
  rw [down, max_eq_left (by omega)]

lemma down_lt_iff (hn : 0 < n) : down v n m < u ↔ v * m < u * n := by
  rw [down_eq hn, Int.ediv_lt_iff_lt_mul hn]

lemma le_down_iff (hn : 0 < n) : u ≤ down v n m ↔ u * n ≤ v * m := by
  rw [down_eq hn, Int.le_ediv_iff_mul_le hn]

lemma lt_up_iff (hn : 0 < n) : u < up v n m ↔ u * n < v * m := by
  rw [up, max_eq_left (by omega), ← Int.add_one_le_iff, Int.le_ediv_iff_mul_le hn, add_mul]
  omega

lemma down_mono (hn : 0 < n) (hm : 0 ≤ m) (h : v ≤ u) : down v n m ≤ down u n m := by
  rw [le_down_iff hn]
  have h1 : down v n m * n ≤ v * m := (le_down_iff hn).mp le_rfl
  exact h1.trans (mul_le_mul_of_nonneg_right h hm)

lemma down_nonneg (hn : 0 < n) (hv : 0 ≤ v) (hm : 0 ≤ m) : 0 ≤ down v n m := by
  rw [down_eq hn]
  exact Int.ediv_nonneg (mul_nonneg hv hm) hn.le

lemma up_mono (hn : 0 < n) (hm : 0 ≤ m) (h : v ≤ u) : up v n m ≤ up u n m := by
  rw [← not_lt, lt_up_iff hn, not_lt]
  have h1 : ¬up u n m < up u n m := lt_irrefl _
  rw [lt_up_iff hn, not_lt] at h1
  exact (mul_le_mul_of_nonneg_right h hm).trans h1

/-- How many cells a block from edge `a` to edge `b` is drawn from: at least one. -/
def span (a b n m : ℤ) : ℤ := max (down b n m - down a n m) 1

/-- How many blocks of `n` it takes to cover `m` cells. -/
lemma lt_ceilDiv_iff (hn : 0 < n) : u < (m + n - 1) / n ↔ u * n < m := by
  rw [← Int.add_one_le_iff, Int.le_ediv_iff_mul_le hn, add_mul]
  omega

section block

variable {a b p : ℤ} (hn : 0 < n) (hm : 0 < m)
include hn hm

/-- A block inside the strip is drawn from inside the other strip. -/
lemma block_lt (hab : a < b) (hb : b ≤ n) (hp : p < down a n m + span a b n m) : p < m := by
  have ha : down a n m < m := (down_lt_iff hn).mpr (by nlinarith)
  have hb' : down b n m ≤ m := by
    have h := down_mono hn hm.le hb
    rwa [down_eq hn (v := n), Int.mul_ediv_cancel_left m hn.ne'] at h
  unfold span at hp
  omega

/-- The way back, from below: a cell the block is drawn from begins before the block ends. -/
lemma down_lt_of_mem (hab : a < b) (hp : p < down a n m + span a b n m) : down p m n < b := by
  rw [down_lt_iff hm]
  have ha : down a n m * n ≤ a * m := (le_down_iff hn).mp le_rfl
  have hb : down b n m * n ≤ b * m := (le_down_iff hn).mp le_rfl
  unfold span at hp
  rcases max_cases (down b n m - down a n m) 1 with ⟨h, -⟩ | ⟨h, -⟩ <;> rw [h] at hp
  · -- drawn from whole cells
    have h1 : p + 1 ≤ down b n m := by omega
    nlinarith
  · -- the one cell it was given
    have h1 : p ≤ down a n m := by omega
    nlinarith

/-- And from above: it ends after the block begins. -/
lemma lt_up_of_mem (hp : down a n m ≤ p) : a < up (p + 1) m n := by
  rw [lt_up_iff hm]
  exact (down_lt_iff hn).mp (by omega)

end block

/-- Two cells of a ruler that overlap are one. -/
lemma eq_of_overlap {t a b w v : ℤ} (ht : 0 < t) (hw : w ≤ t) (hv : v ≤ t)
    (h : a * t < b * t + v) (h' : b * t < a * t + w) : a = b := by
  have h1 : a < b + 1 := by
    by_contra hn
    have hle := mul_le_mul_of_nonneg_right (not_lt.mp hn) ht.le
    rw [add_mul] at hle
    omega
  have h2 : b < a + 1 := by
    by_contra hn
    have hle := mul_le_mul_of_nonneg_right (not_lt.mp hn) ht.le
    rw [add_mul] at hle
    omega
  omega

end Digitiz.Rescale
