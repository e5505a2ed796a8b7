import Mathlib.Order.Bounds.Basic
import Mathlib.Tactic.Common

/-!
The cheapest of a list, found in one pass.

A pass keeps the cheapest so far, and starts from something whose cost is below zero to say that
nothing is kept yet. What it has kept is always the cheapest of what it has seen, which carries
over from one item to the next; no cost may be negative but the one it starts from.
-/

namespace Digitiz.Cheapest

variable {α β : Type*} [LinearOrder β] [Zero β] {cost : α → β} {init best next : α}
  {seen l : List α}

/-- The cheaper of two, and of two that cost the same the first. Below zero nothing is kept. -/
def keep (cost : α → β) (best next : α) : α :=
  if cost best < 0 ∨ cost next < cost best then next else best

lemma keep_of_neg (h : cost best < 0) (next : α) : keep cost best next = next := if_pos (.inl h)

/-- What a pass has kept is one of what it has seen, and none of them is cheaper. -/
structure Kept (cost : α → β) (seen : List α) (best : α) : Prop where
  mem : best ∈ seen
  le : ∀ c ∈ seen, cost best ≤ cost c

namespace Kept

lemma start (h : cost init < 0) (next : α) : Kept cost [next] (keep cost init next) where
  mem := by rw [keep_of_neg h]; exact List.mem_singleton_self next
  le c hc := by rw [keep_of_neg h, List.mem_singleton.mp hc]

lemma step (h : Kept cost seen best) (h0 : 0 ≤ cost best) (next : α) :
    Kept cost (seen ++ [next]) (keep cost best next) := by
  unfold keep
  split_ifs with hlt
  · have hlt : cost next < cost best := hlt.resolve_left (not_lt.mpr h0)
    refine ⟨List.mem_append_right _ (List.mem_singleton_self _), fun c hc => ?_⟩
    rcases List.mem_append.mp hc with hc | hc
    · exact hlt.le.trans (h.le c hc)
    · rw [List.mem_singleton.mp hc]
  · have hle : cost best ≤ cost next := not_lt.mp fun hn => hlt (.inr hn)
    refine ⟨List.mem_append_left _ h.mem, fun c hc => ?_⟩
    rcases List.mem_append.mp hc with hc | hc
    · exact h.le c hc
    · rw [List.mem_singleton.mp hc]
      exact hle

/-- The rest of a pass. -/
lemma run (h : Kept cost seen best) (hc : ∀ c ∈ seen ++ l, 0 ≤ cost c) :
    Kept cost (seen ++ l) (l.foldl (keep cost) best) := by
  induction l generalizing seen best with
  | nil => rwa [List.append_nil]
  | cons next l ih =>
    have h0 : 0 ≤ cost best := hc best (List.mem_append_left _ h.mem)
    rw [List.append_cons] at hc ⊢
    exact ih (h.step h0 next) hc

end Kept

/-- **A pass finds the cheapest.** -/
theorem kept_foldl (cost : α → β) (init : α) (l : List α) (h : cost init < 0) (hl : l ≠ [])
    (hc : ∀ c ∈ l, 0 ≤ cost c) : Kept cost l (l.foldl (keep cost) init) := by
  cases l with
  | nil => exact absurd rfl hl
  | cons next l => exact (Kept.start h next).run hc

omit [Zero β] in
/-- As a least cost, over whatever set the costs of the list are the least of. -/
lemma Kept.isLeast (h : Kept cost l best) {s : Set β} (hs : ∀ c ∈ l, cost c ∈ s)
    (hle : ∀ e ∈ s, ∃ c ∈ l, cost c ≤ e) : IsLeast s (cost best) := by
  refine ⟨hs best h.mem, fun e he => ?_⟩
  obtain ⟨c, hc, hce⟩ := hle e he
  exact (h.le c hc).trans hce

end Digitiz.Cheapest
