import Mathlib.Data.List.Basic
import Digitiz.Geometry
import Digitiz.Lap

/-!
Which tiles go out next.

The pen's tile comes first and every time. The rest of the budget walks the grid from where the
last walk stopped and takes the dirty tiles it passes, so that no tile starves however often the
others change. A tile is clean only once it was handed over; the cursor moves at that moment and
at no other.
-/

namespace Digitiz

open Lap

namespace TileScheduler

lemma length_none : ([] : List Bool).length = 0 * 0 := rfl

lemma count_none : 0 = ([] : List Bool).count true := rfl

lemma cursor_none : 0 < 0 * 0 → 0 < 0 * 0 := id

end TileScheduler

structure TileScheduler where
  cols : ℕ := 0
  rows : ℕ := 0
  dirty : List Bool := []
  dirtyCount : ℕ := 0
  cursor : ℕ := 0
  focus : Option ℕ := none
  dirty_length : dirty.length = cols * rows := by exact TileScheduler.length_none
  dirtyCount_eq : dirtyCount = dirty.count true := by exact TileScheduler.count_none
  cursor_lt : 0 < cols * rows → cursor < cols * rows := by exact TileScheduler.cursor_none

namespace TileScheduler

def size (s : TileScheduler) : ℕ := s.cols * s.rows

/-- The tile is in the grid and owed. -/
def isDirty (s : TileScheduler) (i : ℕ) : Bool := s.dirty.getD i false

def markAllDirty (s : TileScheduler) : TileScheduler :=
  { s with
    dirty := List.replicate s.dirty.length true
    dirtyCount := s.dirty.length
    dirty_length := by rw [List.length_replicate, s.dirty_length]
    dirtyCount_eq := by rw [List.count_replicate_self] }

/-- A new grid. The guest has nothing for it yet, so all of it is owed. -/
def configure (_s : TileScheduler) (cols rows : ℤ) : TileScheduler :=
  markAllDirty
    { cols := cols.toNat
      rows := rows.toNat
      dirty := List.replicate (cols.toNat * rows.toNat) false
      dirty_length := List.length_replicate
      dirtyCount_eq := by rw [List.count_replicate]; rfl
      cursor_lt := id }

lemma count_set_true (l : List Bool) (i : ℕ) (h : l.getD i true = false) :
    (l.set i true).count true = l.count true + 1 := by
  have hi : i < l.length := by
    by_contra hn
    simp [List.getD_eq_getElem?_getD, List.getElem?_eq_none (Nat.le_of_not_lt hn)] at h
  have hget : l[i] = false := by
    simpa [List.getD_eq_getElem?_getD, hi] using h
  simp [List.count_set hi, hget]

lemma count_set_false (l : List Bool) (i : ℕ) (h : l.getD i false = true) :
    (l.set i false).count true = l.count true - 1 := by
  have hi : i < l.length := by
    by_contra hn
    simp [List.getD_eq_getElem?_getD, List.getElem?_eq_none (Nat.le_of_not_lt hn)] at h
  have hget : l[i] = true := by
    simpa [List.getD_eq_getElem?_getD, hi] using h
  simp [List.count_set hi, hget]

/-- Marks a tile; one outside the grid or already marked changes nothing. -/
def markDirty (s : TileScheduler) (index : ℤ) : TileScheduler :=
  if h : index < 0 ∨ s.dirty.getD index.toNat true = true then s
  else
    { s with
      dirty := s.dirty.set index.toNat true
      dirtyCount := s.dirtyCount + 1
      dirty_length := by rw [List.length_set, s.dirty_length]
      dirtyCount_eq := by
        rw [count_set_true _ _ (by simpa using (not_or.mp h).2), s.dirtyCount_eq] }

/-- The indices of a rectangle in tile coordinates, clipped to the grid. -/
def rectIndices (s : TileScheduler) (rect : Recti) : List ℤ :=
  let x0 := max rect.x 0
  let y0 := max rect.y 0
  let x1 := min (rect.x + rect.w) s.cols
  let y1 := min (rect.y + rect.h) s.rows
  (List.range (y1 - y0).toNat).flatMap fun dy : ℕ =>
    (List.range (x1 - x0).toNat).map fun dx : ℕ => (y0 + dy) * s.cols + (x0 + dx)

def markDirtyRect (s : TileScheduler) (rect : Recti) : TileScheduler :=
  (s.rectIndices rect).foldl markDirty s

def setFocus (s : TileScheduler) (index : ℤ) : TileScheduler :=
  { s with focus := if 0 ≤ index ∧ index < s.size then some index.toNat else none }

/-- What the sweep takes: dirty, and not the pen's tile. -/
def swept (s : TileScheduler) (i : ℕ) : Bool := s.isDirty i && decide (s.focus ≠ some i)

/-- The dirty tiles along the sweep, from the cursor on. -/
def owed (s : TileScheduler) : List ℕ := (lap s.size s.cursor).filter s.swept

/-- The pen's tile if there is one, then up to `budget` tiles along the sweep. -/
def select (s : TileScheduler) (budget : ℤ) : List UInt16 :=
  if s.size = 0 then []
  else
    (s.focus.toList.filter (· < s.size) ++
      if budget ≤ 0 ∨ s.dirtyCount = 0 then [] else s.owed.take budget.toNat).map UInt16.ofNat

/-- Takes a tile off the dirty ones. -/
def clear (s : TileScheduler) (i : ℕ) : TileScheduler :=
  if h : s.isDirty i = true then
    { s with
      dirty := s.dirty.set i false
      dirtyCount := s.dirtyCount - 1
      dirty_length := by rw [List.length_set, s.dirty_length]
      dirtyCount_eq := by rw [count_set_false _ _ h, s.dirtyCount_eq] }
  else s

/-- How far round the lap the tiles handed over reach; the pen's tile is not part of the lap. -/
def furthest (s : TileScheduler) (tiles : List UInt16) : ℤ :=
  tiles.foldl (fun f tile =>
    if tile.toNat < s.size ∧ s.focus ≠ some tile.toNat then
      max f (distance s.size s.cursor tile.toNat)
    else f) (-1)

def moveCursor (s : TileScheduler) (furthest : ℤ) : TileScheduler :=
  if furthest ≥ 0 then
    { s with
      cursor := (s.cursor + furthest.toNat + 1) % s.size
      cursor_lt := fun h => Nat.mod_lt _ h }
  else s

/-- Clears the dirty flags and advances the sweep past what was taken. -/
def markSent (s : TileScheduler) (tiles : List UInt16) : TileScheduler :=
  if tiles = [] ∨ s.dirty = [] then s
  else (tiles.foldl (fun s tile => s.clear tile.toNat) s).moveCursor (s.furthest tiles)

def anythingDirty (s : TileScheduler) : Bool := s.dirtyCount > 0

/-! ### Which tiles are owed after each call -/

variable (s : TileScheduler)

lemma lt_size_of_isDirty {i : ℕ} (h : s.isDirty i = true) : i < s.size := by
  by_contra hn
  have hlen : s.dirty.length ≤ i := by rw [s.dirty_length]; exact Nat.le_of_not_lt hn
  simp [isDirty, List.getD_eq_getElem?_getD, List.getElem?_eq_none hlen] at h

lemma anythingDirty_iff : s.anythingDirty = true ↔ ∃ i, s.isDirty i = true := by
  simp only [anythingDirty, s.dirtyCount_eq, decide_eq_true_eq, gt_iff_lt, List.count_pos_iff,
    isDirty, List.getD_eq_getElem?_getD]
  constructor
  · intro h
    obtain ⟨i, hi⟩ := List.mem_iff_getElem?.mp h
    exact ⟨i, by simp [hi]⟩
  · rintro ⟨i, hi⟩
    cases hget : s.dirty[i]? with
    | none => simp [hget] at hi
    | some b =>
      obtain rfl : b = true := by simpa [hget] using hi
      exact List.mem_of_getElem? hget

lemma isDirty_markAllDirty (i : ℕ) : s.markAllDirty.isDirty i = decide (i < s.size) := by
  have hlen := s.dirty_length
  simp only [isDirty, markAllDirty, List.getD_eq_getElem?_getD, List.getElem?_replicate, hlen, size]
  split_ifs with h <;> simp [h]

/-- A new grid is owed whole. -/
lemma isDirty_configure (cols rows : ℤ) (i : ℕ) :
    (s.configure cols rows).isDirty i = decide (i < cols.toNat * rows.toNat) :=
  isDirty_markAllDirty _ i

lemma isDirty_markDirty (index : ℤ) (j : ℕ) :
    (s.markDirty index).isDirty j = (s.isDirty j || decide ((j : ℤ) = index ∧ j < s.size)) := by
  have hlen := s.dirty_length
  unfold markDirty
  split_ifs with h
  · by_cases hj : (j : ℤ) = index ∧ j < s.size
    · obtain ⟨rfl, hlt⟩ := hj
      have hd : s.dirty.getD j true = true := by
        simpa using h.resolve_left (by omega)
      have hlt' : j < s.dirty.length := hlen ▸ hlt
      have hdirty : s.isDirty j = true := by
        simpa [isDirty, List.getD_eq_getElem?_getD, hlt'] using hd
      simp [hdirty]
    · simp [hj]
  · simp only [isDirty, List.getD_eq_getElem?_getD, List.getElem?_set, hlen, size]
    by_cases hj : index.toNat = j
    · have hi : (j : ℤ) = index := by omega
      subst hj
      by_cases hlt : index.toNat < s.cols * s.rows
      · simp [hlt, hi]
      · simp [hlt, hi, List.getElem?_eq_none (hlen ▸ Nat.le_of_not_lt hlt)]
    · have hi : ¬(j : ℤ) = index := by omega
      simp [hj, hi]

@[simp] lemma markDirty_cols (index : ℤ) : (s.markDirty index).cols = s.cols := by
  unfold markDirty; split_ifs <;> rfl
@[simp] lemma markDirty_rows (index : ℤ) : (s.markDirty index).rows = s.rows := by
  unfold markDirty; split_ifs <;> rfl

/-- Marking tile after tile. -/
lemma markAll_spec (indices : List ℤ) :
    let t := indices.foldl markDirty s
    (∀ j : ℕ, t.isDirty j = (s.isDirty j || decide ((j : ℤ) ∈ indices ∧ j < s.size))) ∧
      t.cols = s.cols ∧ t.rows = s.rows := by
  induction indices generalizing s with
  | nil => simp
  | cons a r ih =>
    obtain ⟨hd, hw, hh⟩ := ih (s.markDirty a)
    refine ⟨fun j => ?_, hw.trans (markDirty_cols s a), hh.trans (markDirty_rows s a)⟩
    have hsize : (s.markDirty a).size = s.size := by
      rw [size, markDirty_cols, markDirty_rows, size]
    rw [List.foldl_cons, hd j, isDirty_markDirty, hsize]
    by_cases ha : (j : ℤ) = a <;> by_cases hlt : j < s.size <;> simp [ha, hlt]

lemma mem_rectIndices {rect : Recti} {j : ℕ} (hj : j < s.size)
    (hin : rect.contains (j % s.cols : ℕ) (j / s.cols : ℕ) = true) :
    (j : ℤ) ∈ s.rectIndices rect := by
  have hc : 0 < s.cols := Nat.pos_of_ne_zero fun h => by simp [size, h] at hj
  have hcol : j % s.cols < s.cols := Nat.mod_lt _ hc
  have hrow : j / s.cols < s.rows := Nat.div_lt_of_lt_mul hj
  have hdm := Nat.div_add_mod' j s.cols
  rw [Recti.contains_iff] at hin
  generalize j % s.cols = col at hin hcol hdm
  generalize j / s.cols = row at hin hrow hdm
  refine List.mem_flatMap.mpr ⟨(row - max rect.y 0 : ℤ).toNat, List.mem_range.mpr (by omega),
    List.mem_map.mpr ⟨(col - max rect.x 0 : ℤ).toNat, List.mem_range.mpr (by omega), ?_⟩⟩
  rw [Int.toNat_of_nonneg (by omega), Int.toNat_of_nonneg (by omega), add_sub_cancel,
    add_sub_cancel, ← hdm]
  push_cast
  rfl

/-- A rectangle of tiles is marked, and nothing is unmarked. -/
lemma isDirty_markDirtyRect (rect : Recti) {j : ℕ}
    (h : s.isDirty j = true ∨
      j < s.size ∧ rect.contains (j % s.cols : ℕ) (j / s.cols : ℕ) = true) :
    (s.markDirtyRect rect).isDirty j = true := by
  rw [markDirtyRect, (s.markAll_spec _).1 j, Bool.or_eq_true, decide_eq_true_eq]
  exact h.imp_right fun ⟨hj, hin⟩ => ⟨s.mem_rectIndices hj hin, hj⟩

lemma markDirtyRect_grid (rect : Recti) :
    (s.markDirtyRect rect).cols = s.cols ∧ (s.markDirtyRect rect).rows = s.rows :=
  (s.markAll_spec _).2

lemma isDirty_clear (i j : ℕ) : (s.clear i).isDirty j = (s.isDirty j && decide (j ≠ i)) := by
  unfold clear
  split_ifs with h
  · simp only [isDirty, List.getD_eq_getElem?_getD, List.getElem?_set]
    by_cases hij : i = j
    · subst hij
      simp
      split_ifs <;> rfl
    · simp [hij, Ne.symm hij]
  · by_cases hij : j = i
    · subst hij
      simpa using h
    · simp [hij]

@[simp] lemma clear_cols (i : ℕ) : (s.clear i).cols = s.cols := by
  unfold clear; split_ifs <;> rfl
@[simp] lemma clear_rows (i : ℕ) : (s.clear i).rows = s.rows := by
  unfold clear; split_ifs <;> rfl
@[simp] lemma clear_focus (i : ℕ) : (s.clear i).focus = s.focus := by
  unfold clear; split_ifs <;> rfl
@[simp] lemma clear_cursor (i : ℕ) : (s.clear i).cursor = s.cursor := by
  unfold clear; split_ifs <;> rfl

/-- Clearing tile after tile. -/
lemma clearAll_spec (tiles : List UInt16) :
    let t := tiles.foldl (fun s tile => s.clear tile.toNat) s
    (∀ j, t.isDirty j = (s.isDirty j && decide (j ∉ tiles.map UInt16.toNat))) ∧
      (t.cols = s.cols ∧ t.rows = s.rows) ∧ t.focus = s.focus ∧ t.cursor = s.cursor := by
  induction tiles generalizing s with
  | nil => simp
  | cons a r ih =>
    obtain ⟨hd, ⟨hw, hh⟩, hf, hc⟩ := ih (s.clear a.toNat)
    refine ⟨fun j => ?_, ⟨hw.trans (clear_cols s _), hh.trans (clear_rows s _)⟩,
      hf.trans (clear_focus s _), hc.trans (clear_cursor s _)⟩
    rw [List.foldl_cons, hd j, isDirty_clear]
    simp [Bool.and_assoc]

lemma isDirty_markSent (tiles : List UInt16) (j : ℕ) :
    (s.markSent tiles).isDirty j = (s.isDirty j && decide (j ∉ tiles.map UInt16.toNat)) := by
  unfold markSent
  split_ifs with h
  · rcases h with rfl | h
    · simp
    · simp [isDirty, h]
  · rw [← (clearAll_spec s tiles).1 j]
    unfold moveCursor
    split_ifs <;> rfl

/-- The grid stays. -/
lemma markSent_grid (tiles : List UInt16) :
    (s.markSent tiles).cols = s.cols ∧ (s.markSent tiles).rows = s.rows := by
  unfold markSent moveCursor
  split_ifs
  · exact ⟨rfl, rfl⟩
  · exact (clearAll_spec s tiles).2.1
  · exact (clearAll_spec s tiles).2.1

lemma markSent_size (tiles : List UInt16) : (s.markSent tiles).size = s.size := by
  obtain ⟨hw, hh⟩ := s.markSent_grid tiles
  rw [size, hw, hh, size]

lemma markSent_focus (tiles : List UInt16) : (s.markSent tiles).focus = s.focus := by
  unfold markSent moveCursor
  split_ifs
  · rfl
  · exact (clearAll_spec s tiles).2.2.1
  · exact (clearAll_spec s tiles).2.2.1

lemma setFocus_focus (i : ℤ) :
    (s.setFocus i).focus = if 0 ≤ i ∧ i < s.size then some i.toNat else none := rfl

/-- Resolving the same tile again after a batch changes nothing. -/
lemma setFocus_markSent (i : ℤ) (tiles : List UInt16) :
    ((s.setFocus i).markSent tiles).setFocus i = (s.setFocus i).markSent tiles := by
  have hf : ((s.setFocus i).markSent tiles).focus = (s.setFocus i).focus := markSent_focus _ _
  have hs : ((s.setFocus i).markSent tiles).size = s.size := markSent_size _ _
  have he : (((s.setFocus i).markSent tiles).setFocus i).focus
      = ((s.setFocus i).markSent tiles).focus := by
    rw [setFocus_focus, hs, hf, setFocus_focus]
  generalize (s.setFocus i).markSent tiles = t at he
  cases t
  simp only [setFocus] at he ⊢
  rw [he]

/-! ### The sweep -/

lemma mem_owed {i : ℕ} : i ∈ s.owed ↔ s.isDirty i = true ∧ s.focus ≠ some i := by
  simp only [owed, List.mem_filter, mem_lap, swept, Bool.and_eq_true, decide_eq_true_eq]
  exact ⟨fun h => h.2, fun h => ⟨lt_size_of_isDirty s h.1, h⟩⟩

lemma owed_lt {i : ℕ} (h : i ∈ s.owed) : i < s.size :=
  lt_size_of_isDirty s (s.mem_owed.mp h).1

lemma length_owed_le : s.owed.length ≤ s.size := by
  refine (List.length_filter_le _ _).trans ?_
  rw [length_lap]

/-- The tiles chosen, before they are cut down to sixteen bits. -/
def chosen (budget : ℕ) : List ℕ := s.focus.toList.filter (· < s.size) ++ s.owed.take budget

lemma select_eq {budget : ℤ} (hb : 0 < budget) :
    s.select budget = (s.chosen budget.toNat).map UInt16.ofNat := by
  have hnil : s.dirtyCount = 0 → s.owed = [] := by
    intro h0
    refine List.eq_nil_iff_forall_not_mem.mpr fun i hi => ?_
    have hd := s.anythingDirty_iff.mpr ⟨i, (s.mem_owed.mp hi).1⟩
    rw [anythingDirty, h0] at hd
    contradiction
  unfold select chosen
  split_ifs with hs h0
  · have ho : s.owed = [] := List.length_eq_zero_iff.mp (by have := s.length_owed_le; omega)
    simp [hs, ho]
  · rcases h0 with h0 | h0
    · omega
    · rw [hnil h0, List.take_nil]
  · rfl

lemma lt_size_of_chosen {budget i : ℕ} (h : i ∈ s.chosen budget) : i < s.size := by
  rcases List.mem_append.mp h with h | h
  · simpa using (List.mem_filter.mp h).2
  · exact s.owed_lt (List.mem_of_mem_take h)

/-- On a grid that sixteen bits can number, the indices chosen are the tiles meant. -/
lemma map_toNat_select {budget : ℤ} (hb : 0 < budget) (hsize : s.size ≤ 65536) :
    (s.select budget).map UInt16.toNat = s.chosen budget.toNat := by
  rw [s.select_eq hb, List.map_map]
  refine (List.map_congr_left fun i hi => ?_).trans (List.map_id _)
  have hlt := s.lt_size_of_chosen hi
  exact UInt16.toNat_ofNat_of_lt (by simpa [UInt16.size] using hlt.trans_le hsize)

lemma furthest_eq {tiles : List UInt16} {k : ℕ}
    (hle : ∀ t ∈ tiles, t.toNat < s.size → s.focus ≠ some t.toNat →
      distance s.size s.cursor t.toNat ≤ k)
    (hat : ∃ t ∈ tiles, t.toNat < s.size ∧ s.focus ≠ some t.toNat ∧
      distance s.size s.cursor t.toNat = k) : s.furthest tiles = k := by
  -- generalised over where the maximum starts
  have key : ∀ (ts : List UInt16) (f : ℤ), (∀ t ∈ ts, t ∈ tiles) → f ≤ k →
      (f = k ∨ ∃ t ∈ ts, t.toNat < s.size ∧ s.focus ≠ some t.toNat ∧
        distance s.size s.cursor t.toNat = k) →
      ts.foldl (fun (f : ℤ) (tile : UInt16) => if tile.toNat < s.size ∧ s.focus ≠ some tile.toNat then
        max f (distance s.size s.cursor tile.toNat) else f) f = k := by
    intro ts
    induction ts with
    | nil =>
      intro f _ _ h
      simpa using h
    | cons a r ih =>
      intro f hmem hf h
      rw [List.foldl_cons]
      have hr : ∀ t ∈ r, t ∈ tiles := fun t ht => hmem t (List.mem_cons_of_mem _ ht)
      split_ifs with ha
      · have hd := hle a (hmem a List.mem_cons_self) ha.1 ha.2
        refine ih _ hr (by omega) ?_
        rcases h with rfl | ⟨t, ht, h1, h2, h3⟩
        · exact .inl (by omega)
        · rcases List.mem_cons.mp ht with rfl | ht
          · exact .inl (by omega)
          · exact .inr ⟨t, ht, h1, h2, h3⟩
      · refine ih _ hr hf ?_
        rcases h with h | ⟨t, ht, h1, h2, h3⟩
        · exact .inl h
        · rcases List.mem_cons.mp ht with rfl | ht
          · exact absurd ⟨h1, h2⟩ ha
          · exact .inr ⟨t, ht, h1, h2, h3⟩
  exact key tiles (-1) (fun _ h => h) (by omega) (.inr hat)

lemma markSent_cursor {tiles : List UInt16} (ht : tiles ≠ []) (hd : s.dirty ≠ []) :
    (s.markSent tiles).cursor = if s.furthest tiles ≥ 0 then
      (s.cursor + (s.furthest tiles).toNat + 1) % s.size else s.cursor := by
  obtain ⟨-, ⟨hw, hh⟩, -, hc⟩ := clearAll_spec s tiles
  rw [markSent, if_neg (by tauto), moveCursor]
  split_ifs
  · dsimp only
    rw [size, hw, hh, hc, size]
  · exact hc

lemma size_pos_of_owed (hne : s.owed ≠ []) : 0 < s.size := by
  obtain ⟨i, hi⟩ := List.exists_mem_of_ne_nil _ hne
  exact Nat.zero_lt_of_lt (s.owed_lt hi)

lemma swept_markSent_select {budget : ℤ} (hb : 0 < budget) (hsize : s.size ≤ 65536) (i : ℕ) :
    (s.markSent (s.select budget)).swept i
      = (s.swept i && decide (i ∉ s.owed.take budget.toNat)) := by
  simp only [swept, isDirty_markSent, markSent_focus, s.map_toNat_select hb hsize, chosen]
  by_cases hf : s.focus = some i
  · simp [hf]
  · have hnf : i ∉ s.focus.toList := by simpa [Option.mem_toList] using hf
    simp [hf, hnf]

/-- The cursor goes behind the furthest of the tiles handed over along the sweep. -/
lemma cursor_markSent_select {budget : ℤ} {k : ℕ} (hb : 0 < budget) (hsize : s.size ≤ 65536)
    (hle : ∀ i ∈ s.owed.take budget.toNat, distance s.size s.cursor i ≤ k)
    (hat : ∃ i ∈ s.owed.take budget.toNat, distance s.size s.cursor i = k) :
    (s.markSent (s.select budget)).cursor = (s.cursor + k + 1) % s.size := by
  have hmap := s.map_toNat_select hb hsize
  obtain ⟨i, hi, hk⟩ := hat
  have hpos : 0 < s.size := s.size_pos_of_owed (List.ne_nil_of_mem (List.mem_of_mem_take hi))
  have hmem : i ∈ (s.select budget).map UInt16.toNat := hmap ▸ List.mem_append_right _ hi
  have hin : ∀ t ∈ s.select budget, t.toNat ∈ s.chosen budget.toNat := fun t ht =>
    hmap ▸ List.mem_map_of_mem ht
  have hfur : s.furthest (s.select budget) = k := by
    refine s.furthest_eq (fun t ht _ hf => ?_) ?_
    · refine hle _ ((List.mem_append.mp (hin t ht)).resolve_left fun h => hf ?_)
      simpa [Option.mem_toList] using List.mem_of_mem_filter h
    · obtain ⟨t, ht, rfl⟩ := List.mem_map.mp hmem
      have ho := List.mem_of_mem_take hi
      exact ⟨t, ht, s.owed_lt ho, (s.mem_owed.mp ho).2, hk⟩
  have hsel : s.select budget ≠ [] := by
    intro h0
    rw [h0] at hmem
    exact List.not_mem_nil hmem
  have hdirty : s.dirty ≠ [] := by
    intro h0
    have hlen := s.dirty_length
    rw [h0] at hlen
    exact hpos.ne hlen
  rw [s.markSent_cursor hsel hdirty, hfur, if_pos (by omega), Int.toNat_natCast]

/-- **The sweep resumes behind what was taken.** Handing over what was selected leaves the other
dirty tiles in the order the sweep was going to take them in. -/
theorem owed_markSent_select {budget : ℤ} (hb : 0 < budget) (hsize : s.size ≤ 65536) :
    (s.markSent (s.select budget)).owed = s.owed.drop budget.toNat := by
  by_cases hne : s.owed = []
  · rw [hne, List.drop_nil]
    refine List.eq_nil_iff_forall_not_mem.mpr fun i hi => ?_
    rw [mem_owed, isDirty_markSent, markSent_focus, Bool.and_eq_true] at hi
    have hmem : i ∈ s.owed := s.mem_owed.mpr ⟨hi.1.1, hi.2⟩
    rw [hne] at hmem
    exact List.not_mem_nil hmem
  obtain ⟨k, -, hle, hat, hlap⟩ := Lap.sweep s.swept _ budget.toNat (by omega)
    (s.cursor_lt (s.size_pos_of_owed hne)) hne fun i _ => s.swept_markSent_select hb hsize i
  rw [owed, markSent_size, s.cursor_markSent_select hb hsize hle hat]
  exact hlap

end TileScheduler

end Digitiz
