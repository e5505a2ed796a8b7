import Mathlib.Data.List.Basic
import Mathlib.Tactic.Ring

/-!
Results stored by many workers, each at its own place, in no particular order.

The work items are dealt out in strides: a worker starts at its own number and goes on by the
number of workers. What is left in memory does not depend on the order of the stores as long as
all of them agree with one list laid down at one address, and that is shown piece by piece: the
stores of two lists laid one behind the other are the stores of both.
-/

namespace Digitiz.Scatter

variable {α β : Type}

/-! ### Strides -/

/-- The items from `i` up to `total`, every `step`th one. -/
def strided (step total i : ℕ) : List ℕ :=
  if _h : i < total ∧ 0 < step then i :: strided step total (i + step) else []
termination_by total - i
decreasing_by omega

lemma mem_strided {step total i j : ℕ} (hs : 0 < step) :
    j ∈ strided step total i ↔ j < total ∧ ∃ k, j = i + k * step := by
  fun_induction strided step total i with
  | case1 i h ih =>
    rw [List.mem_cons, ih]
    constructor
    · rintro (rfl | ⟨hj, k, rfl⟩)
      · exact ⟨h.1, 0, by ring⟩
      · exact ⟨hj, k + 1, by ring⟩
    · rintro ⟨hj, k, rfl⟩
      cases k with
      | zero => exact .inl (by ring)
      | succ k => exact .inr ⟨hj, k, by ring⟩
  | case2 i h =>
    simp only [List.not_mem_nil, false_iff, not_and, not_exists]
    rintro hj k rfl
    exact h ⟨Nat.lt_of_le_of_lt (Nat.le_add_right _ _) hj, hs⟩

/-- Together the workers take every item. -/
lemma mem_workers {step total j : ℕ} (hs : 0 < step) :
    j ∈ (List.range step).flatMap (strided step total) ↔ j < total := by
  simp only [List.mem_flatMap, List.mem_range, mem_strided hs]
  constructor
  · rintro ⟨-, -, hj, -⟩
    exact hj
  · intro hj
    refine ⟨j % step, Nat.mod_lt j hs, hj, j / step, ?_⟩
    rw [mul_comm, Nat.mod_add_div]

/-! ### Pieces of one length -/

section Pieces

variable {f : ℕ → List β} {size n : ℕ}

lemma length_pieces (hf : ∀ i, (f i).length = size) :
    ((List.range n).flatMap f).length = n * size := by
  simp [List.length_flatMap, hf]

lemma getElem?_pieces {i k : ℕ} (hf : ∀ i, (f i).length = size) (hi : i < n) (hk : k < size) :
    ((List.range n).flatMap f)[i * size + k]? = (f i)[k]? := by
  induction n with
  | zero => omega
  | succ n ih =>
    simp only [List.range_succ, List.flatMap_append, List.flatMap_singleton]
    obtain hin | rfl := Nat.lt_succ_iff_lt_or_eq.mp hi
    · have hle : (i + 1) * size ≤ n * size := Nat.mul_le_mul_right _ hin
      rw [List.getElem?_append_left, ih hin]
      rw [length_pieces hf]
      rw [add_mul, one_mul] at hle
      omega
    · rw [List.getElem?_append_right (by rw [length_pieces hf]; omega), length_pieces hf,
        Nat.add_sub_cancel_left]

end Pieces

/-! ### Stores -/

/-- Memory after some stores, a later one over an earlier one. -/
def run [DecidableEq α] (memory : α → β) (stores : List (α × β)) : α → β :=
  stores.foldl (fun m s => Function.update m s.1 s.2) memory

/-- What all stores to an address agree on is what it holds afterwards. -/
lemma run_eq [DecidableEq α] {memory : α → β} {stores : List (α × β)} {a : α} {v : β}
    (hv : ∀ s ∈ stores, s.1 = a → s.2 = v) (ha : memory a = v ∨ ∃ s ∈ stores, s.1 = a) :
    run memory stores a = v := by
  induction stores generalizing memory with
  | nil => exact ha.resolve_right (by simp)
  | cons s rest ih =>
    refine ih (fun t ht => hv t (List.mem_cons_of_mem _ ht)) ?_
    dsimp only
    by_cases hs : s.1 = a
    · left
      rw [← hs, Function.update_self]
      exact hv s List.mem_cons_self hs
    · rw [Function.update_of_ne (Ne.symm hs)]
      refine ha.imp_right ?_
      rintro ⟨t, ht, hta⟩
      obtain rfl | ht := List.mem_cons.mp ht
      · exact absurd hta hs
      · exact ⟨t, ht, hta⟩

/-- The stores put a list at an address: all of it, and nothing else. -/
structure Lays (stores : List (ℕ × β)) (base : ℕ) (l : List β) : Prop where
  agree : ∀ s ∈ stores, ∃ k, s.1 = base + k ∧ l[k]? = some s.2
  all : ∀ k < l.length, ∃ s ∈ stores, s.1 = base + k

namespace Lays

variable {stores stores' : List (ℕ × β)} {base : ℕ} {l l' : List β}

lemma nil : Lays ([] : List (ℕ × β)) base [] := ⟨by simp, by simp⟩

/-- Only which stores there are counts. -/
lemma of_mem_iff (h : Lays stores base l) (hm : ∀ s, s ∈ stores' ↔ s ∈ stores) :
    Lays stores' base l where
  agree s hs := h.agree s ((hm s).mp hs)
  all k hk := by
    obtain ⟨s, hs, hk⟩ := h.all k hk
    exact ⟨s, (hm s).mpr hs, hk⟩

lemma append (h : Lays stores base l) (h' : Lays stores' (base + l.length) l') :
    Lays (stores ++ stores') base (l ++ l') where
  agree s hs := by
    obtain hs | hs := List.mem_append.mp hs
    · obtain ⟨k, hk, hl⟩ := h.agree s hs
      exact ⟨k, hk, by rw [List.getElem?_append_left (List.getElem?_eq_some_iff.mp hl).1, hl]⟩
    · obtain ⟨k, hk, hl⟩ := h'.agree s hs
      refine ⟨l.length + k, by omega, ?_⟩
      rw [List.getElem?_append_right (by omega), Nat.add_sub_cancel_left, hl]
  all k hk := by
    rw [List.length_append] at hk
    by_cases hkl : k < l.length
    · obtain ⟨s, hs, hk⟩ := h.all k hkl
      exact ⟨s, List.mem_append_left _ hs, hk⟩
    · obtain ⟨s, hs, hk⟩ := h'.all (k - l.length) (by omega)
      exact ⟨s, List.mem_append_right _ hs, by omega⟩

/-- A value at an address. -/
lemma single (v : β) : Lays [(base, v)] base [v] where
  agree s hs := by
    obtain rfl := List.mem_singleton.mp hs
    exact ⟨0, rfl, rfl⟩
  all k hk := ⟨(base, v), List.mem_singleton_self _, by simp at hk; simp [hk]⟩

lemma cons {v : β} (h : Lays stores (base + 1) l) : Lays ((base, v) :: stores) base (v :: l) :=
  append (single v) h

/-- Pieces of one length, the `i`th stored at `i` times that length. -/
lemma range {f : ℕ → List β} {g : ℕ → List (ℕ × β)} {size n : ℕ} (hf : ∀ i, (f i).length = size)
    (hg : ∀ i < n, Lays (g i) (base + i * size) (f i)) :
    Lays ((List.range n).flatMap g) base ((List.range n).flatMap f) := by
  induction n with
  | zero => exact nil
  | succ n ih =>
    simp only [List.range_succ, List.flatMap_append, List.flatMap_singleton]
    refine (ih fun i hi => hg i (by omega)).append ?_
    rw [length_pieces hf]
    exact hg n n.lt_succ_self

/-- **Order does not matter.** Whatever memory held before, and in whatever order the stores were
made, the list is there afterwards. -/
theorem read_run {order : List (ℕ × β)} (h : Lays stores base l) (hp : order.Perm stores)
    (memory : ℕ → β) : (List.range l.length).map (fun k => run memory order (base + k)) = l := by
  have h := h.of_mem_iff fun s => hp.mem_iff
  refine List.ext_getElem (by simp) fun k hk hk' => ?_
  rw [List.getElem_map, List.getElem_range]
  refine run_eq (fun s hs ha => ?_) (.inr (h.all k hk'))
  obtain ⟨k', hk', hl⟩ := h.agree s hs
  obtain rfl : k' = k := by omega
  exact ((List.getElem?_eq_some_iff.mp hl).2).symm

end Lays

end Digitiz.Scatter
