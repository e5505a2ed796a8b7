import Mathlib.Algebra.BigOperators.Group.Finset.Basic
import Mathlib.Algebra.BigOperators.Ring.Finset
import Mathlib.Tactic.Ring
import Digitiz.Rescale

/-!
A strip cut into blocks of one size, the last of them shorter where the strip ends inside it, and
what the blocks are drawn from on a strip of another scale.

Every cell of the strip is in exactly one block. Every cell of the other strip has a block drawn
from it, and only one as soon as a whole block is drawn from at least one cell. A grid of blocks
is a product of two rulers, and so is what is summed over it.
-/

namespace Digitiz.Rescale

variable {n m t : ℤ}

/-- The block a cell is in. -/
lemma exists_block {x : ℤ} (ht : 0 < t) (h0 : 0 ≤ x) (hx : x < n) :
    ∃ c, 0 ≤ c ∧ c * t < n ∧ c * t ≤ x ∧ x < c * t + min t (n - c * t) := by
  have hle : x / t * t ≤ x := Int.ediv_mul_le x ht.ne'
  have hlt : x < (x / t + 1) * t := Int.lt_ediv_add_one_mul_self x ht
  rw [add_mul, one_mul] at hlt
  exact ⟨x / t, Int.ediv_nonneg h0 ht.le, by omega, hle, by omega⟩

section scaled

variable (hn : 0 < n) (hm : 0 < m) (ht : 0 < t)
include hn hm ht

/-- The block drawn from a cell of the other strip: the last that begins no later. -/
lemma exists_block_over {p : ℤ} (h0 : 0 ≤ p) (hp : p < m) :
    ∃ c, 0 ≤ c ∧ c * t < n ∧ down (c * t) n m ≤ p ∧
      p < down (c * t) n m + span (c * t) (c * t + min t (n - c * t)) n m := by
  have htm : 0 < t * m := mul_pos ht hm
  set c := ((p + 1) * n - 1) / (t * m) with hc
  have hle : c * (t * m) ≤ (p + 1) * n - 1 := Int.ediv_mul_le _ htm.ne'
  have hlt : (p + 1) * n - 1 < (c + 1) * (t * m) := Int.lt_ediv_add_one_mul_self _ htm
  have hend : (p + 1) * n ≤ m * n := mul_le_mul_of_nonneg_right (by omega) hn.le
  have hcn : c * t < n := by
    refine lt_of_mul_lt_mul_right ?_ hm.le
    calc c * t * m = c * (t * m) := mul_assoc c t m
      _ < m * n := by omega
      _ = n * m := mul_comm m n
  refine ⟨c, Int.ediv_nonneg (by nlinarith) htm.le, hcn, ?_, ?_⟩
  · refine Int.lt_add_one_iff.mp ((down_lt_iff hn).mpr ?_)
    rw [mul_assoc]
    omega
  · have hlast : p + 1 ≤ down (c * t + min t (n - c * t)) n m := by
      rw [le_down_iff hn]
      rcases le_total t (n - c * t) with h | h
      · -- a whole block: the next one begins after the cell
        rw [min_eq_left h]
        calc (p + 1) * n ≤ (c + 1) * (t * m) := by omega
          _ = (c * t + t) * m := by ring
      · -- the last one: it ends where the strip does
        rw [min_eq_right h, add_sub_cancel, mul_comm n m]
        exact hend
    unfold span
    omega

/-- Blocks drawn from at least one cell each end before the next begins. -/
lemma drawn_apart {c d : ℤ} (hfine : n ≤ t * m) (hcd : c < d) (hd : d * t < n) :
    down (c * t) n m + span (c * t) (c * t + min t (n - c * t)) n m ≤ down (d * t) n m := by
  have hnext : (c + 1) * t ≤ d * t := mul_le_mul_of_nonneg_right (by omega) ht.le
  have hwhole : c * t + min t (n - c * t) = (c + 1) * t := by
    rw [add_mul, one_mul] at hnext ⊢
    omega
  have hmove : down (c * t) n m + 1 ≤ down ((c + 1) * t) n m := by
    have h : down (c * t) n m * n ≤ c * t * m := (le_down_iff hn).mp le_rfl
    rw [le_down_iff hn]
    calc (down (c * t) n m + 1) * n = down (c * t) n m * n + n := by ring
      _ ≤ c * t * m + t * m := add_le_add h hfine
      _ = (c + 1) * t * m := by ring
  have hmono := down_mono hn hm.le hnext
  rw [hwhole, span]
  omega

/-- Blocks drawn from a cell in common are then the same. -/
lemma eq_of_drawn {c d p : ℤ} (hfine : n ≤ t * m) (hc : c * t < n) (hd : d * t < n)
    (hcp : down (c * t) n m ≤ p ∧
      p < down (c * t) n m + span (c * t) (c * t + min t (n - c * t)) n m)
    (hdp : down (d * t) n m ≤ p ∧
      p < down (d * t) n m + span (d * t) (d * t + min t (n - d * t)) n m) : c = d := by
  rcases lt_trichotomy c d with h | h | h
  · have := drawn_apart hn hm ht hfine h hd
    omega
  · exact h
  · have := drawn_apart hn hm ht hfine h hc
    omega

end scaled

/-! ### Sums over blocks -/

/-- The blocks of a ruler make up the strip. -/
lemma sum_blocks (q k C : ℕ) :
    ∑ c ∈ Finset.range C, min q (k - c * q) = min (C * q) k := by
  induction C with
  | zero => simp
  | succ C ih =>
    rw [Finset.sum_range_succ, ih, Nat.succ_mul]
    omega

/-- A sum over a grid is the product of a sum over its columns and one over its rows. -/
lemma sum_grid (f g : ℕ → ℕ) (C R : ℕ) :
    ∑ i ∈ Finset.range (C * R), f (i % C) * g (i / C) =
      (∑ c ∈ Finset.range C, f c) * ∑ r ∈ Finset.range R, g r := by
  induction R with
  | zero => simp
  | succ R ih =>
    have hrow : ∑ c ∈ Finset.range C, f ((C * R + c) % C) * g ((C * R + c) / C) =
        (∑ c ∈ Finset.range C, f c) * g R := by
      rw [Finset.sum_mul]
      refine Finset.sum_congr rfl fun c hc => ?_
      have hlt := Finset.mem_range.mp hc
      rw [Nat.mul_add_mod, Nat.mod_eq_of_lt hlt, Nat.mul_add_div (by omega),
        Nat.div_eq_of_lt hlt, Nat.add_zero]
    rw [Nat.mul_succ, Finset.sum_range_add, ih, hrow, Finset.sum_range_succ, mul_add]

end Digitiz.Rescale
