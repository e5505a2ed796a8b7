import Mathlib.Data.Nat.Bitwise
import Mathlib.Tactic.Ring

/-!
Numbers packed into the bits of one word.

A word is read by shifting down and cutting off. Reading goes through a union of words, gives
back the number that was stored in the same place, and sees nothing of one stored beside it; so
a word put together from fields that do not overlap is read back field by field.
-/

namespace Digitiz.BitFields

/-- The `b` bits of a word from bit `s` on. -/
def slice (b s w : ℕ) : ℕ := (w >>> s) % 2 ^ b

variable {b s t v w n : ℕ}

lemma slice_lt (b s w : ℕ) : slice b s w < 2 ^ b := Nat.mod_lt _ (Nat.two_pow_pos b)

lemma testBit_slice (b s w i : ℕ) :
    (slice b s w).testBit i = (decide (i < b) && w.testBit (s + i)) := by
  rw [slice, Nat.testBit_mod_two_pow, Nat.testBit_shiftRight]

@[simp] lemma slice_zero (b s : ℕ) : slice b s 0 = 0 := by simp [slice]

@[simp] lemma slice_or (b s w w' : ℕ) : slice b s (w ||| w') = slice b s w ||| slice b s w' := by
  rw [slice, Nat.shiftRight_or_distrib, Nat.or_mod_two_pow]
  rfl

/-! ### One field -/

lemma slice_shiftLeft_self (hv : v < 2 ^ b) : slice b s (v <<< s) = v := by
  rw [slice, Nat.shiftLeft_shiftRight, Nat.mod_eq_of_lt hv]

lemma slice_shiftLeft_above (v : ℕ) (h : s + b ≤ t) : slice b s (v <<< t) = 0 := by
  refine Nat.eq_of_testBit_eq fun i => ?_
  rw [testBit_slice, Nat.testBit_shiftLeft, Nat.zero_testBit, Bool.and_eq_false_iff]
  by_cases hi : i < b
  · right
    rw [decide_eq_false (show ¬ t ≤ s + i by omega), Bool.false_and]
  · exact .inl (decide_eq_false hi)

lemma slice_shiftLeft_below (hv : v < 2 ^ n) (h : t + n ≤ s) : slice b s (v <<< t) = 0 := by
  have hlt : v <<< t < 2 ^ s := by
    calc v <<< t = v * 2 ^ t := Nat.shiftLeft_eq _ _
      _ < 2 ^ n * 2 ^ t := Nat.mul_lt_mul_of_pos_right hv (Nat.two_pow_pos t)
      _ = 2 ^ (t + n) := by rw [← pow_add, add_comm]
      _ ≤ 2 ^ s := Nat.pow_le_pow_right (by decide) h
  rw [slice, Nat.shiftRight_eq_zero _ _ hlt, Nat.zero_mod]

/-- A union in which one key alone counts, however often it comes. -/
lemma foldl_or_ite {α : Type*} [DecidableEq α] (l : List α) (a : α) (v w : ℕ) :
    l.foldl (fun w k => w ||| if k = a then v else 0) w = w ||| if a ∈ l then v else 0 := by
  induction l generalizing w with
  | nil => simp
  | cons k l ih =>
    rw [List.foldl_cons, ih, Nat.or_assoc]
    congr 1
    by_cases hk : k = a
    · subst hk
      by_cases hl : k ∈ l <;> simp [hl]
    · have hak : ¬ a = k := fun h => hk h.symm
      simp [hk, hak]

/-! ### Cut in pieces -/

/-- A piece laid back in its place on what is below it. -/
lemma slice_or_mod (b s w : ℕ) : slice b s w <<< s ||| w % 2 ^ s = w % 2 ^ (s + b) := by
  refine Nat.eq_of_testBit_eq fun i => ?_
  rw [Nat.testBit_or, Nat.testBit_shiftLeft, testBit_slice, Nat.testBit_mod_two_pow,
    Nat.testBit_mod_two_pow]
  by_cases hi : i < s
  · rw [decide_eq_true hi, decide_eq_true (show i < s + b by omega),
      decide_eq_false (show ¬ s ≤ i by omega)]
    rfl
  · rw [decide_eq_false hi, decide_eq_true (show s ≤ i by omega), Nat.add_sub_cancel' (by omega)]
    simp only [Bool.true_and, Bool.false_and, Bool.or_false]
    congr 1
    rw [decide_eq_decide]
    omega

/-- The first pieces of a word, from its high end on, and what is left below them. -/
lemma foldl_pieces_or_mod (b w : ℕ) {k n : ℕ} (hk : k ≤ n) :
    (List.range k).foldl (fun acc i => acc ||| slice b ((n - (i + 1)) * b) w <<<
        ((n - (i + 1)) * b)) 0 ||| w % 2 ^ ((n - k) * b) = w % 2 ^ (n * b) := by
  induction k with
  | zero => exact Nat.zero_or _
  | succ k ih =>
    have hnext : (n - (k + 1)) * b + b = (n - k) * b := by
      rw [show n - k = n - (k + 1) + 1 by omega, add_mul, one_mul]
    rw [List.range_succ, List.foldl_append, List.foldl_cons, List.foldl_nil, Nat.or_assoc,
      slice_or_mod, hnext]
    exact ih (by omega)

/-- **All the pieces of a word make the word.** -/
lemma foldl_pieces (b n w : ℕ) :
    (List.range n).foldl (fun acc i => acc ||| slice b ((n - (i + 1)) * b) w <<<
        ((n - (i + 1)) * b)) 0 = w % 2 ^ (n * b) := by
  have h := foldl_pieces_or_mod b w (le_refl n)
  rwa [Nat.sub_self, zero_mul, pow_zero, Nat.mod_one, Nat.or_zero] at h

end Digitiz.BitFields
