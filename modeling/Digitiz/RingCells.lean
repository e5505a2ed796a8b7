import Mathlib.Data.List.DropRight
import Mathlib.Data.List.Rotate

/-!
Cells that are written in turn, round and round.

A ring has a fixed number of cells and writes a new item over the oldest one. Until it has gone
round once its first cells are all there was; from then on it holds the last items there were, and
turned to the cell that is written next it holds them in their order.
-/

namespace Digitiz

variable {α : Type*}

/-- The `k` cells after the items `xs` were written in turn, starting from the first cell. -/
structure RingCells (k : ℕ) (cells : List α) (next filled : ℕ) (xs : List α) : Prop where
  cells_length : cells.length = k
  next_eq : next = xs.length % k
  filled_eq : filled = min xs.length k
  /-- Before the ring is full. -/
  fresh : xs.length ≤ k → cells.take xs.length = xs
  /-- Once it is. -/
  full : k ≤ xs.length → cells.rotate next = xs.rtake k

namespace RingCells

variable {k next filled : ℕ} {cells xs : List α}

lemma nil (h : cells.length = k) (hk : 0 < k) : RingCells k cells 0 0 [] where
  cells_length := h
  next_eq := (Nat.zero_mod k).symm
  filled_eq := by simp
  fresh _ := rfl
  full h := absurd h (not_le.mpr hk)

lemma take_set {l : List α} {i : ℕ} (h : i < l.length) (x : α) :
    (l.set i x).take (i + 1) = l.take i ++ [x] := by
  rw [List.take_add_one, List.take_set_of_le le_rfl]
  simp [h]

/-- Writing a cell and turning on drops what was there and adds the item at the end. -/
lemma rotate_set {l : List α} {i : ℕ} (h : i < l.length) (x : α) :
    (l.set i x).rotate (i + 1) = (l.rotate i).tail ++ [x] := by
  have hset : i + 1 ≤ (l.set i x).length := by
    rw [List.length_set]
    exact h
  have htail : (l.drop i ++ l.take i).tail = l.drop (i + 1) ++ l.take i := by
    rw [List.drop_eq_getElem_cons h]
    rfl
  rw [List.rotate_eq_drop_append_take hset, List.rotate_eq_drop_append_take h.le,
    List.drop_set_of_lt (Nat.lt_succ_self i), take_set h, htail, List.append_assoc]

lemma rtake_concat (hk : 0 < k) (h : k ≤ xs.length) (x : α) :
    (xs ++ [x]).rtake k = (xs.rtake k).tail ++ [x] := by
  obtain ⟨j, rfl⟩ := Nat.exists_eq_succ_of_ne_zero hk.ne'
  rw [List.rtake_concat_succ]
  unfold List.rtake
  rw [List.tail_drop, show xs.length - j.succ + 1 = xs.length - j by omega]

lemma rtake_of_length_le (h : xs.length ≤ k) : xs.rtake k = xs := by
  unfold List.rtake
  rw [Nat.sub_eq_zero_of_le h, List.drop_zero]

/-- **One more item.** -/
theorem push (h : RingCells k cells next filled xs) (hk : 0 < k) (x : α) :
    RingCells k (cells.set next x) ((next + 1) % k) (if filled < k then filled + 1 else filled)
      (xs ++ [x]) := by
  have hnext : next < cells.length := by
    rw [h.next_eq, h.cells_length]
    exact Nat.mod_lt _ hk
  have hfresh : xs.length < k → next = xs.length := fun hlt =>
    h.next_eq.trans (Nat.mod_eq_of_lt hlt)
  have htaken : xs.length < k → (cells.set next x).take (xs.length + 1) = xs ++ [x] := by
    intro hlt
    rw [← hfresh hlt, take_set hnext, hfresh hlt, h.fresh hlt.le]
  refine ⟨by simpa using h.cells_length, by simp [h.next_eq], ?_, fun hle => ?_, fun hle => ?_⟩
  · have := h.filled_eq
    simp only [List.length_append, List.length_singleton]
    split_ifs <;> omega
  · rw [List.length_append] at hle ⊢
    exact htaken hle
  · rw [List.length_append, List.length_singleton] at hle
    obtain hlt | hge := Nat.lt_or_ge xs.length k
    · -- the last cell is written for the first time
      have hlast : xs.length + 1 = k := by omega
      have hwhole := htaken hlt
      rw [hlast, ← h.cells_length, ← @List.length_set _ cells next x,
        List.take_length] at hwhole
      rw [hfresh hlt, hlast, Nat.mod_self, List.rotate_zero, ← hfresh hlt, hwhole,
        rtake_of_length_le (by simp [hlast])]
    · rw [← h.cells_length, ← @List.length_set _ cells next x,
        List.rotate_mod, List.length_set, rotate_set hnext, h.full hge, h.cells_length,
        rtake_concat hk hge]

/-- What the filled cells hold, in some order, are the last items there were. -/
theorem perm (h : RingCells k cells next filled xs) :
    (cells.take filled).Perm (xs.rtake k) := by
  obtain hle | hle := Nat.le_total xs.length k
  · rw [h.filled_eq, min_eq_left hle, h.fresh hle, rtake_of_length_le hle]
  · rw [h.filled_eq, min_eq_right hle, ← h.full hle, ← h.cells_length, List.take_length]
    exact (List.rotate_perm cells next).symm

end RingCells

end Digitiz
