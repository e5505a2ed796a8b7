import Digitiz.TileScheduler

/-!
Round after round of the sweep.

A round hands over what was selected. Between rounds the desktop changes, which marks tiles, and
the pen moves, which moves the focus. Neither moves the cursor, and a round that passes a tile by
has at least the budget's worth of tiles before it; so the way to a dirty tile shrinks by the
budget every round until the tile is taken.
-/

namespace Digitiz

open Lap

namespace TileScheduler

/-- What happens between rounds. -/
inductive Mark
  | dirty (index : ℤ)
  | dirtyRect (rect : Recti)
  | allDirty
  | focus (index : ℤ)
  deriving DecidableEq, Repr

def mark (s : TileScheduler) : Mark → TileScheduler
  | .dirty index => s.markDirty index
  | .dirtyRect rect => s.markDirtyRect rect
  | .allDirty => s.markAllDirty
  | .focus index => s.setFocus index

def marks (s : TileScheduler) (ms : List Mark) : TileScheduler := ms.foldl mark s

/-- A round: what is selected is handed over. -/
def round (s : TileScheduler) (budget : ℤ) : TileScheduler := s.markSent (s.select budget)

/-- The scheduler after `k` rounds, with the marks `history j` behind the round `j`. -/
def rounds (s : TileScheduler) (budget : ℤ) (history : ℕ → List Mark) : ℕ → TileScheduler
  | 0 => s
  | k + 1 => ((s.rounds budget history k).round budget).marks (history k)

/-! ### What a mark leaves alone -/

variable (s : TileScheduler)

@[simp] lemma markDirty_cursor (index : ℤ) : (s.markDirty index).cursor = s.cursor := by
  unfold markDirty; split_ifs <;> rfl

lemma markDirtyRect_cursor (rect : Recti) : (s.markDirtyRect rect).cursor = s.cursor := by
  unfold markDirtyRect
  generalize s.rectIndices rect = indices
  induction indices generalizing s with
  | nil => rfl
  | cons a r ih => rw [List.foldl_cons, ih, markDirty_cursor]

/-- The grid and the cursor stay, and what is dirty stays dirty. -/
lemma mark_keeps (m : Mark) :
    (s.mark m).size = s.size ∧ (s.mark m).cursor = s.cursor ∧
      ∀ i, s.isDirty i = true → (s.mark m).isDirty i = true := by
  cases m with
  | dirty index =>
    refine ⟨?_, markDirty_cursor s index, fun i hi => ?_⟩
    · rw [mark, size, markDirty_cols, markDirty_rows, size]
    · rw [mark, isDirty_markDirty, hi, Bool.true_or]
  | dirtyRect rect =>
    obtain ⟨hw, hh⟩ := s.markDirtyRect_grid rect
    refine ⟨?_, markDirtyRect_cursor s rect, fun i hi => isDirty_markDirtyRect s rect (.inl hi)⟩
    rw [mark, size, hw, hh, size]
  | allDirty =>
    refine ⟨rfl, rfl, fun i hi => ?_⟩
    rw [mark, isDirty_markAllDirty, decide_eq_true (lt_size_of_isDirty s hi)]
  | focus index => exact ⟨rfl, rfl, fun i hi => hi⟩

lemma marks_keep (ms : List Mark) :
    (s.marks ms).size = s.size ∧ (s.marks ms).cursor = s.cursor ∧
      ∀ i, s.isDirty i = true → (s.marks ms).isDirty i = true := by
  induction ms generalizing s with
  | nil => exact ⟨rfl, rfl, fun _ hi => hi⟩
  | cons m ms ih =>
    obtain ⟨hs, hc, hd⟩ := mark_keeps s m
    obtain ⟨hs', hc', hd'⟩ := ih (s.mark m)
    exact ⟨hs'.trans hs, hc'.trans hc, fun i hi => hd' i (hd i hi)⟩

/-! ### Towards a dirty tile -/

/-- How far the sweep is from a tile. -/
def away (i : ℕ) : ℕ := distance s.size s.cursor i

variable {s} {b : ℤ} {i : ℕ}

/-- A tile that is selected is clean after the round. -/
lemma round_clean (h : i ∈ (s.select b).map UInt16.toNat) : (s.round b).isDirty i = false := by
  rw [round, isDirty_markSent, decide_eq_false (not_not_intro h), Bool.and_false]

/-- A round takes a dirty tile or comes nearer to it by the budget. -/
lemma round_progress (hsize : s.size ≤ 65536) (hb : 1 ≤ b) (hi : s.isDirty i = true) :
    i ∈ (s.select b).map UInt16.toNat ∨
      (s.round b).isDirty i = true ∧ (s.round b).away i + b.toNat ≤ s.away i := by
  have hb0 : 0 < b := by omega
  have hlt := lt_size_of_isDirty s hi
  by_cases hin : i ∈ (s.select b).map UInt16.toNat
  · exact .inl hin
  refine .inr ⟨?_, ?_⟩
  · rw [round, isDirty_markSent, hi, decide_eq_true hin, Bool.and_true]
  rw [s.map_toNat_select hb0 hsize, chosen, List.mem_append, not_or] at hin
  have hfocus : s.focus ≠ some i := by
    intro hf
    exact hin.1 (List.mem_filter.mpr ⟨by rw [hf]; exact List.mem_singleton_self i, by simpa using hlt⟩)
  have howed : i ∈ s.owed := s.mem_owed.mpr ⟨hi, hfocus⟩
  have hdrop : i ∈ s.owed.drop b.toNat := by
    rw [← List.take_append_drop b.toNat s.owed] at howed
    exact (List.mem_append.mp howed).resolve_left hin.2
  have hcur : s.cursor < s.size := s.cursor_lt (Nat.zero_lt_of_lt hlt)
  obtain ⟨k, -, hle, hat, -⟩ := Lap.sweep s.swept _ b.toNat (by omega) hcur
    (List.ne_nil_of_mem howed) fun j _ => s.swept_markSent_select hb0 hsize j
  obtain ⟨hbk, hki⟩ := passed_of_drop s.swept hcur hle hat hdrop
  have hnear := distance_add hcur hlt hki
  rw [away, round, markSent_size, s.cursor_markSent_select hb0 hsize hle hat, Nat.add_assoc, away]
  omega

/-- The first round and then the others. -/
lemma rounds_succ (history : ℕ → List Mark) (k : ℕ) :
    s.rounds b history (k + 1)
      = ((s.round b).marks (history 0)).rounds b (fun j => history (j + 1)) k := by
  induction k with
  | zero => rfl
  | succ k ih => rw [rounds, ih, rounds]

lemma exists_round (hb : 1 ≤ b) (d : ℕ) (hsize : s.size ≤ 65536) (history : ℕ → List Mark)
    (hi : s.isDirty i = true) (hd : s.away i ≤ d) :
    ∃ k ≤ d / b.toNat, i ∈ ((s.rounds b history k).select b).map UInt16.toNat := by
  induction d using Nat.strong_induction_on generalizing s history with
  | _ d ih =>
    rcases round_progress hsize hb hi with hin | ⟨hstill, hnear⟩
    · exact ⟨0, Nat.zero_le _, hin⟩
    -- the tile is left for a later round, which starts nearer to it
    obtain ⟨hs, hc, hkeep⟩ := marks_keep (s.round b) (history 0)
    have hs' : ((s.round b).marks (history 0)).size = s.size := hs.trans (markSent_size s _)
    have haway : ((s.round b).marks (history 0)).away i ≤ d - b.toNat := by
      rw [away, hs, hc, ← away]
      omega
    obtain ⟨k, hk, hin⟩ := ih (d - b.toNat) (by omega) (hs' ▸ hsize) (fun j => history (j + 1))
      (hkeep i hstill) haway
    refine ⟨k + 1, ?_, ?_⟩
    · rw [Nat.le_div_iff_mul_le (by omega)] at hk ⊢
      rw [Nat.succ_mul]
      omega
    · rw [rounds_succ]
      exact hin

/-- **The sweep cannot starve a tile.** A tile that is dirty at the distance `d` is selected and
clean again within `d / b + 1` rounds, and so within the rounds that a lap of the grid takes,
whatever is marked meanwhile and wherever the pen goes. -/
theorem selected_in_time (hsize : s.size ≤ 65536) (hb : 1 ≤ b) (history : ℕ → List Mark)
    (hi : s.isDirty i = true) :
    (∃ k < distance s.size s.cursor i / b.toNat + 1,
      i ∈ ((s.rounds b history k).select b).map UInt16.toNat ∧
        ((s.rounds b history k).round b).isDirty i = false) ∧
      distance s.size s.cursor i / b.toNat + 1 ≤ (s.size + b.toNat - 1) / b.toNat := by
  obtain ⟨k, hk, hin⟩ := exists_round hb (s.away i) hsize history hi le_rfl
  refine ⟨⟨k, Nat.lt_succ_of_le hk, hin, round_clean hin⟩, ?_⟩
  have hlt := distance_lt (n := s.size) (c := s.cursor) (i := i)
    (Nat.zero_lt_of_lt (lt_size_of_isDirty s hi))
  rw [← Nat.add_div_right _ (by omega)]
  exact Nat.div_le_div_right (by omega)

/-- A tile nine cells ahead of a budget of two, with the pen on another tile and all of it marked
again between the rounds. -/
theorem selected_in_time_five :
    ∃ k < 5, 9 ∈ (((configure {} 4 3).rounds 2 (fun _ => [.allDirty, .focus 3]) k).select 2).map
      UInt16.toNat := by
  obtain ⟨⟨k, hk, hin, -⟩, -⟩ := selected_in_time (s := configure {} 4 3) (b := 2) (i := 9)
    (by decide) (by decide) (fun _ => [.allDirty, .focus 3]) (by decide)
  exact ⟨k, hk, hin⟩

end TileScheduler

end Digitiz
