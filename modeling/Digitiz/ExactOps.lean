import Mathlib.Analysis.SpecialFunctions.Pow.Real
import Digitiz.SplineSmoother

/-!
The operations of the C mathematics library on exact numbers.

What is proved about curves and pointers takes numbers to be exact and asks of the library what
its documentation promises. The real numbers, with powers of their own, are an instance.
-/

namespace Digitiz

variable (R : Type) [Field R] [LinearOrder R] [FloatOps R]

/-- The square root is the square root. -/
structure ExactRoot : Prop where
  nonneg : ∀ q : R, 0 ≤ q → 0 ≤ FloatOps.sqrt q
  mul_self : ∀ q : R, 0 ≤ q → FloatOps.sqrt q * FloatOps.sqrt q = q

omit [LinearOrder R] in
/-- Rounding leaves integers alone. -/
def ExactRound : Prop := ∀ n : ℤ, FloatOps.lround (n : R) = n

/-- The least integer that is not below. -/
def ExactCeil : Prop := ∀ (q : R) (n : ℤ), FloatOps.ceil q ≤ n ↔ q ≤ (n : R)

lemma exactCeil_rat : ExactCeil ℚ := fun _ _ => Rat.ceil_le_iff

noncomputable instance : FloatOps ℝ where
  sqrt := Real.sqrt
  pow := (· ^ ·)
  ceil := Int.ceil
  lround q := if 0 ≤ q then ⌊q + 1 / (2 : ℕ)⌋ else -⌊-q + 1 / (2 : ℕ)⌋

lemma exactRoot_real : ExactRoot ℝ where
  nonneg q _ := Real.sqrt_nonneg q
  mul_self _ hq := Real.mul_self_sqrt hq

/-- A half more than an integer is rounded down to it. -/
lemma floor_intCast_add_half (n : ℤ) : ⌊(n : ℝ) + 1 / (2 : ℕ)⌋ = n := by
  rw [Nat.cast_ofNat, Int.floor_eq_iff]
  constructor <;> linarith

lemma exactRound_real : ExactRound ℝ := by
  intro n
  show (if 0 ≤ (n : ℝ) then ⌊(n : ℝ) + 1 / (2 : ℕ)⌋ else -⌊-(n : ℝ) + 1 / (2 : ℕ)⌋) = n
  split_ifs
  · exact floor_intCast_add_half n
  · rw [← Int.cast_neg, floor_intCast_add_half, neg_neg]

end Digitiz
