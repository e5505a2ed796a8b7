import Mathlib.Algebra.Field.Basic
import Mathlib.Algebra.Order.Field.Basic
import Mathlib.Data.Int.Cast.Lemmas
import Mathlib.Algebra.Order.Ring.Cast
import Mathlib.Tactic.Linarith
import Mathlib.Tactic.LinearCombination
import Mathlib.Tactic.Ring

/-!
An endless band with `n` cells of one length on it, one after the other, over and over.

A place on the band is a number; the cell it is on is the whole number of cells before it, counted
round the ring. Going on by a whole lap leads to the same cell, by one length to the next.
-/

namespace Digitiz.Carousel

variable {R : Type*} [Field R] [LinearOrder R]

/-- The place `c` is on the cell `i` of the band. -/
def On (length : R) (n : ℕ) (c : R) (i : ℤ) : Prop :=
  0 ≤ i ∧ i < n ∧ ∃ lap : ℤ, ((lap * n + i : ℤ) : R) * length ≤ c ∧
    c < ((lap * n + i : ℤ) : R) * length + length

variable [IsStrictOrderedRing R] {length c d : R} {n : ℕ} {i j : ℤ}

lemma index_unique (hl : 0 < length) (hi : (i : R) * length ≤ c)
    (hi' : c < (i : R) * length + length) (hj : (j : R) * length ≤ c)
    (hj' : c < (j : R) * length + length) : i = j := by
  have key : ∀ a b : ℤ, (a : R) * length ≤ c → c < (b : R) * length + length → a ≤ b := by
    intro a b ha hb
    have hlt : (a : R) * length < ((b + 1 : ℤ) : R) * length := by
      push_cast
      linarith
    have : (a : R) < ((b + 1 : ℤ) : R) := lt_of_mul_lt_mul_right hlt hl.le
    exact Int.lt_add_one_iff.mp (Int.cast_lt.mp this)
  exact le_antisymm (key i j hi hj') (key j i hj hi')

omit [IsStrictOrderedRing R] in
/-- The cell is what the number of cells before the place leaves when divided by `n`. -/
lemma on_emod (hn : 0 < n) (hj : (j : R) * length ≤ c) (hj' : c < (j : R) * length + length) :
    On length n c (j % n) := by
  refine ⟨Int.emod_nonneg _ (by omega), Int.emod_lt_of_pos _ (by omega), j / n, ?_⟩
  rw [Int.ediv_mul_add_emod]
  exact ⟨hj, hj'⟩

/-- **One cell.** A place is on one cell only. -/
theorem On.unique (hl : 0 < length) (hi : On length n c i) (hj : On length n c j) : i = j := by
  obtain ⟨hi0, hin, k, hk, hk'⟩ := hi
  obtain ⟨hj0, hjn, l, hl1, hl2⟩ := hj
  have h := index_unique hl hk hk' hl1 hl2
  have hi := congrArg (· % (n : ℤ)) h
  simp only [Int.add_comm _ i, Int.add_comm _ j, Int.add_mul_emod_self_right,
    Int.emod_eq_of_lt hi0 hin, Int.emod_eq_of_lt hj0 hjn] at hi
  exact hi

/-- A whole number of laps on. -/
lemma On.add_laps (h : On length n c i) (k : ℤ) :
    On length n (c + (k : R) * ((n : R) * length)) i := by
  obtain ⟨h0, hn, lap, hlap, hlap'⟩ := h
  refine ⟨h0, hn, lap + k, ?_, ?_⟩ <;>
  · push_cast at hlap hlap' ⊢
    linarith

end Digitiz.Carousel
