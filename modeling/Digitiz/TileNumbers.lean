import Digitiz.Rounds
import Digitiz.SenderSteps

/-!
The numbers by which tiles go by.

The scheduler counts its tiles without a bound, but the numbers it hands out and takes back have
sixteen bits. On a grid that sixteen bits can number they are the tiles meant, after any calls. On
a larger one they are not: the tile 65536 goes by the number of the tile 0.
-/

namespace Digitiz

open Lap

namespace TileScheduler

inductive Call
  | mark (m : Mark)
  | select (budget : ℤ)
  | markSent (tiles : List UInt16)
  deriving DecidableEq, Repr

def call (s : TileScheduler) : Call → TileScheduler
  | .mark m => s.mark m
  -- nothing is clean until it has gone out
  | .select _ => s
  | .markSent tiles => s.markSent tiles

def calls (s : TileScheduler) (cs : List Call) : TileScheduler := cs.foldl call s

variable (s : TileScheduler)

lemma size_call (c : Call) : (s.call c).size = s.size := by
  cases c with
  | mark m => exact (mark_keeps s m).1
  | select b => rfl
  | markSent tiles => exact markSent_size s tiles

/-- No call changes the grid. -/
lemma size_calls (cs : List Call) : (s.calls cs).size = s.size := by
  induction cs generalizing s with
  | nil => rfl
  | cons c cs ih => exact (ih (s.call c)).trans (size_call s c)

/-- The numbers handed out are those of the tiles meant. -/
structure Names (s : TileScheduler) (budget : ℤ) : Prop where
  distinct : (s.select budget).Nodup
  inGrid : ∀ t ∈ s.select budget, t.toNat < s.size
  meant : ∀ t ∈ s.select budget, s.isDirty t.toNat = true ∨ s.focus = some t.toNat
  atMost : ((s.select budget).filter fun t => s.focus ≠ some t.toNat).length ≤ budget.toNat
  cleared : ∀ i, (s.markSent (s.select budget)).isDirty i
    = (s.isDirty i && decide (i ∉ (s.select budget).map UInt16.toNat))
  counted : s.dirtyCount = s.dirty.count true ∧
    (s.markSent (s.select budget)).dirtyCount = (s.markSent (s.select budget)).dirty.count true

/-! ### Grids that sixteen bits can number -/

lemma select_of_nonpos {budget : ℤ} (hb : budget ≤ 0) :
    s.select budget = (s.chosen budget.toNat).map UInt16.ofNat := by
  unfold select chosen
  rw [Int.toNat_of_nonpos hb, List.take_zero]
  split_ifs with hs h0
  · simp [hs]
  · rfl
  · exact absurd (.inl hb) h0

lemma toNat_chosen (hsize : s.size ≤ 65536) (b : ℤ) :
    (s.select b).map UInt16.toNat = s.chosen b.toNat := by
  rcases lt_or_ge 0 b with hb | hb
  · exact s.map_toNat_select hb hsize
  · rw [s.select_of_nonpos hb, List.map_map]
    refine (List.map_congr_left fun i hi => ?_).trans (List.map_id _)
    have hlt := s.lt_size_of_chosen hi
    exact UInt16.toNat_ofNat_of_lt (by simpa [UInt16.size] using hlt.trans_le hsize)

lemma nodup_chosen (b : ℕ) : (s.chosen b).Nodup := by
  have howed : s.owed.Nodup := nodup_lap.filter _
  refine List.Nodup.append ?_ (howed.sublist (List.take_sublist b _)) ?_
  · cases s.focus with
    | none => exact List.nodup_nil
    | some i => exact (List.nodup_singleton i).filter _
  · intro i hi ho
    refine (s.mem_owed.mp (List.mem_of_mem_take ho)).2 ?_
    simpa [Option.mem_toList] using List.mem_of_mem_filter hi

lemma mem_chosen {i b : ℕ} (h : i ∈ s.chosen b) : s.isDirty i = true ∨ s.focus = some i := by
  rcases List.mem_append.mp h with hf | ho
  · exact .inr (by simpa [Option.mem_toList] using List.mem_of_mem_filter hf)
  · exact .inl (s.mem_owed.mp (List.mem_of_mem_take ho)).1

/-- Besides the pen's tile, no more than the budget. -/
lemma length_chosen (b : ℕ) : ((s.chosen b).filter fun i => s.focus ≠ some i).length ≤ b := by
  rw [chosen, List.filter_append, List.length_append]
  have hpen : (s.focus.toList.filter (· < s.size)).filter (fun i => s.focus ≠ some i) = [] := by
    refine List.filter_eq_nil_iff.mpr fun i hi => ?_
    have hf : s.focus = some i := by simpa [Option.mem_toList] using List.mem_of_mem_filter hi
    simp [hf]
  rw [hpen, List.length_nil, Nat.zero_add]
  exact (List.length_filter_le _ _).trans (List.length_take_le _ _)

lemma names_of_size_le (hsize : s.size ≤ 65536) (b : ℤ) : Names s b := by
  have hmap := s.toNat_chosen hsize b
  have hmem : ∀ t ∈ s.select b, t.toNat ∈ s.chosen b.toNat := fun t ht =>
    hmap ▸ List.mem_map_of_mem ht
  refine ⟨?_, fun t ht => s.lt_size_of_chosen (hmem t ht), fun t ht => s.mem_chosen (hmem t ht), ?_,
    s.isDirty_markSent _, s.dirtyCount_eq, (s.markSent _).dirtyCount_eq⟩
  · exact List.Nodup.of_map UInt16.toNat (hmap ▸ s.nodup_chosen b.toNat)
  · have hlen := s.length_chosen b.toNat
    rw [← hmap, List.filter_map, List.length_map] at hlen
    exact hlen

/-! ### Grids that they cannot -/

/-- A new grid is swept from its first tile to its last. -/
lemma owed_configure (cols rows : ℤ) :
    (s.configure cols rows).owed = List.range (cols.toNat * rows.toNat) := by
  have hlap : lap (cols.toNat * rows.toNat) 0 = List.range (cols.toNat * rows.toNat) := by
    rw [lap_eq_rotate, List.rotate_zero]
  refine Eq.trans (List.filter_eq_self.mpr fun i hi => ?_) hlap
  have hlt : i < cols.toNat * rows.toNat := mem_lap.mp hi
  rw [swept, isDirty_configure, decide_eq_true hlt]
  rfl

lemma chosen_configure (cols rows : ℤ) (b : ℕ) :
    (s.configure cols rows).chosen b = List.range (min b (cols.toNat * rows.toNat)) := by
  rw [chosen, owed_configure, List.take_range]
  rfl

/-- On a grid that sixteen bits cannot number, two of the tiles selected go by the number 0. -/
lemma not_names_of_lt {cols rows : ℤ} (h : 65536 < cols.toNat * rows.toNat) :
    ¬Names (s.configure cols rows) 65537 := by
  intro hn
  have hsel : (s.configure cols rows).select 65537 = (List.range 65537).map UInt16.ofNat := by
    have hb : (65537 : ℤ).toNat = 65537 := by decide
    rw [select_eq _ (by decide), chosen_configure, hb, Nat.min_eq_left (by omega)]
  have hd := hn.distinct
  rw [hsel] at hd
  have h0 : ((List.range 65537).map UInt16.ofNat)[0]? = some 0 := by
    rw [List.getElem?_map, List.getElem?_range (by omega)]
    rfl
  have h1 : ((List.range 65537).map UInt16.ofNat)[65536]? = some 0 := by
    rw [List.getElem?_map, List.getElem?_range (by omega)]
    rfl
  have := List.nodup_iff_getElem?_ne_getElem?.mp hd 0 65536 (by omega)
    (by rw [List.length_map, List.length_range]; omega)
  exact this (h0.trans h1.symm)

end TileScheduler

open TileScheduler

variable {r : ViewportReq}

lemma ViewportReq.toNat_mul (hr : r.starts = true) :
    ((r.geometry.cols.toNat * r.geometry.rows.toNat : ℕ) : ℤ) = r.geometry.tileCount := by
  have hv := ViewportReq.valid_of_starts hr
  rw [Nat.cast_mul, Int.toNat_of_nonneg (ViewportGeometry.cols_pos hv).le,
    Int.toNat_of_nonneg (ViewportGeometry.rows_pos hv).le, ViewportGeometry.tileCount]

/-- **The scheduler names the tiles it means** on the grids that sixteen bits can number, after
any calls, and on no other. -/
theorem calls_names_iff (hr : r.starts = true) (s : TileScheduler) :
    (∀ cs budget, Names ((s.configure r.geometry.cols r.geometry.rows).calls cs) budget) ↔
      r.geometry.tileCount ≤ 65536 := by
  have hcount := ViewportReq.toNat_mul hr
  constructor
  · intro h
    by_contra hlarge
    exact not_names_of_lt s (by omega) (h [] 65537)
  · intro hle cs budget
    refine names_of_size_le _ ?_ budget
    rw [size_calls]
    show r.geometry.cols.toNat * r.geometry.rows.toNat ≤ 65536
    omega

/-- A whole 4K desktop in tiles of eight pixels. -/
def fineGrid : ViewportReq := { w := 3840, h := 2160, tile := 8, fps := 30, format := .etc2Rgb8 }

/-- The same in tiles of sixteen. -/
def coarseGrid : ViewportReq := { fineGrid with tile := 16 }

theorem coarseGrid_names :
    coarseGrid.starts = true ∧ ∀ cs budget,
      Names ((configure {} coarseGrid.geometry.cols coarseGrid.geometry.rows).calls cs) budget :=
  ⟨by decide, (calls_names_iff (by decide) {}).mpr (by decide)⟩

/-- On the fine grid two tiles go out under one number. -/
theorem fineGrid_renamed :
    fineGrid.starts = true ∧ ¬∀ cs budget,
      Names ((configure {} fineGrid.geometry.cols fineGrid.geometry.rows).calls cs) budget :=
  ⟨by decide, fun h => not_names_of_lt {} (by decide) (h [] 65537)⟩

end Digitiz
