import Mathlib.Algebra.Order.BigOperators.Group.List
import Mathlib.Algebra.Order.Ring.Nat
import Mathlib.Order.Interval.Finset.Nat

/-!
Spans of cells laid over a row, one after the other.

Adding up their lengths says how many cells are covered only if none is covered twice. What the
lengths overstate is the number of cells that were covered already when a span came.
-/

namespace Digitiz.Spans

/-- A span by its first cell and its length. -/
abbrev Span := ℕ × ℕ

def cells (s : Span) : Finset ℕ := Finset.Ico s.1 (s.1 + s.2)

/-- The cells under any of the spans, of which the last comes first. -/
def covered : List Span → Finset ℕ
  | [] => ∅
  | s :: l => cells s ∪ covered l

/-- How many cells were covered again by a later span. -/
def again : List Span → ℕ
  | [] => 0
  | s :: l => again l + (cells s ∩ covered l).card

def total (l : List Span) : ℕ := (l.map Prod.snd).sum

@[simp] lemma card_cells (s : Span) : (cells s).card = s.2 := by
  rw [cells, Nat.card_Ico, Nat.add_sub_cancel_left]

lemma mem_covered {l : List Span} {i : ℕ} :
    i ∈ covered l ↔ ∃ s ∈ l, s.1 ≤ i ∧ i < s.1 + s.2 := by
  induction l with
  | nil => simp [covered]
  | cons s l ih => simp [covered, cells, ih]

/-- The lengths count every cell once, and once more each time it is covered again. -/
lemma again_add_card (l : List Span) : again l + (covered l).card = total l := by
  induction l with
  | nil => rfl
  | cons s l ih =>
    have hunion := Finset.card_union_add_card_inter (cells s) (covered l)
    rw [card_cells] at hunion
    rw [again, covered, total, List.map_cons, List.sum_cons, ← total]
    omega

/-- **A row is covered exactly when the lengths make up for what was covered again.** -/
theorem covers_iff {l : List Span} {n : ℕ} (h : ∀ s ∈ l, s.1 + s.2 ≤ n) :
    (∀ i < n, ∃ s ∈ l, s.1 ≤ i ∧ i < s.1 + s.2) ↔ again l + n ≤ total l := by
  have hsub : covered l ⊆ Finset.range n := by
    intro i hi
    obtain ⟨s, hs, -, hlt⟩ := mem_covered.mp hi
    exact Finset.mem_range.mpr (hlt.trans_le (h s hs))
  have hcount := again_add_card l
  constructor
  · intro hall
    have hle : (Finset.range n).card ≤ (covered l).card :=
      Finset.card_le_card fun i hi => mem_covered.mpr (hall i (Finset.mem_range.mp hi))
    rw [Finset.card_range] at hle
    omega
  · intro hle i hi
    have heq : covered l = Finset.range n := by
      refine Finset.eq_of_subset_of_card_le hsub ?_
      rw [Finset.card_range]
      omega
    exact mem_covered.mp (heq ▸ Finset.mem_range.mpr hi)

end Digitiz.Spans
