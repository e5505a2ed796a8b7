import Digitiz.Ruler
import Digitiz.SentBatches

/-!
Tiles as a partition.

The tiles of a grid cut the encoded surface up exactly, and the rectangles they are drawn from
cover the region. Those may share pixels when the surface has more of them than the region does;
otherwise they cut the region up as well. Each axis is a ruler, and a tile is a block of both.
-/

namespace Digitiz

open Rescale

/-- The tiles cut the surface up, and are drawn from everything that is in the region. -/
structure ViewportGeometry.Partitions (g : ViewportGeometry) : Prop where
  whole : ∀ i, 0 ≤ i → i < g.tileCount →
    (0 < (g.tileOutputRect i).w ∧ (g.tileOutputRect i).w % 4 = 0) ∧
      (0 < (g.tileOutputRect i).h ∧ (g.tileOutputRect i).h % 4 = 0)
  surface : ∀ x y, Recti.contains ⟨0, 0, g.outW, g.outH⟩ x y = true ↔
    ∃ i, (0 ≤ i ∧ i < g.tileCount) ∧ (g.tileOutputRect i).contains x y = true
  apart : ∀ i j, (0 ≤ i ∧ i < g.tileCount) → (0 ≤ j ∧ j < g.tileCount) → ∀ x y,
    (g.tileOutputRect i).contains x y = true → (g.tileOutputRect j).contains x y = true → i = j
  bytes : ∑ i ∈ Finset.range g.tileCount.toNat,
    etc2Size (g.tileOutputRect i).w (g.tileOutputRect i).h = etc2Size g.outW g.outH
  drawn : ∀ i, 0 ≤ i → i < g.tileCount → 0 < (g.tileSourceRect i).w ∧ 0 < (g.tileSourceRect i).h
  region : ∀ x y, g.region.contains x y = true ↔
    ∃ i, (0 ≤ i ∧ i < g.tileCount) ∧ (g.tileSourceRect i).contains x y = true
  drawnApart : g.outW ≤ g.tile * g.region.w → g.outH ≤ g.tile * g.region.h →
    ∀ i j, (0 ≤ i ∧ i < g.tileCount) → (0 ≤ j ∧ j < g.tileCount) → ∀ x y,
    (g.tileSourceRect i).contains x y = true → (g.tileSourceRect j).contains x y = true → i = j

/-- The geometry made once more of its own numbers. -/
def ViewportGeometry.remade (g : ViewportGeometry) : ViewportGeometry :=
  makeGeometry g.region g.outW g.outH g.tile

namespace ViewportGeometry

variable {g : ViewportGeometry}

/-! ### Tiles and the two rulers -/

/-- The blocks of a tile along one axis, as a tile of the ruler counted in blocks. -/
lemma blocks_min {t n c : ℤ} (ht : t % 4 = 0) (hn : n % 4 = 0) (h0 : 0 ≤ c) (hc : c * t < n)
    (htp : 0 < t) : (min t (n - c * t) / 4).toNat =
      min (t / 4).toNat ((n / 4).toNat - c.toNat * (t / 4).toNat) := by
  have hfour : t = 4 * (t / 4) := by omega
  have hprod : c * t = 4 * (c * (t / 4)) := by
    conv_lhs => rw [hfour]
    ring
  have hcast : ((c.toNat * (t / 4).toNat : ℕ) : ℤ) = c * (t / 4) := by
    rw [Nat.cast_mul, Int.toNat_of_nonneg h0, Int.toNat_of_nonneg (by omega)]
  have hnonneg : 0 ≤ c * (t / 4) := mul_nonneg h0 (by omega)
  omega

/-- The blocks of a strip fit a ruler that is long enough for it. -/
lemma blocks_le_ruler {n t C : ℤ} (hn : n % 4 = 0) (ht4 : t % 4 = 0) (ht : 0 < t) (hC : 0 ≤ C)
    (h : n ≤ C * t) : (n / 4).toNat ≤ C.toNat * (t / 4).toNat := by
  have hprod : C * t = 4 * (C * (t / 4)) := by
    conv_lhs => rw [show t = 4 * (t / 4) by omega]
    ring
  have hcast : ((C.toNat * (t / 4).toNat : ℕ) : ℤ) = C * (t / 4) := by
    rw [Nat.cast_mul, Int.toNat_of_nonneg hC, Int.toNat_of_nonneg (by omega)]
  omega

variable (hv : g.valid = true)
include hv

/-- A column and a row make a tile. -/
lemma exists_index {c r : ℤ} (hc0 : 0 ≤ c) (hc : c * g.tile < g.outW) (hr0 : 0 ≤ r)
    (hr : r * g.tile < g.outH) :
    ∃ i, (0 ≤ i ∧ i < g.tileCount) ∧ i % g.cols = c ∧ i / g.cols = r := by
  have hcols := cols_pos hv
  have hlt : c < g.cols := (lt_cols_iff hv c).mpr hc
  have hrow : r + 1 ≤ g.rows := (lt_rows_iff hv r).mpr hr
  have hstart : 0 ≤ g.cols * r := mul_nonneg hcols.le hr0
  refine ⟨c + g.cols * r, ⟨by omega, ?_⟩, ?_, ?_⟩
  · calc c + g.cols * r < g.cols + g.cols * r := by omega
      _ = g.cols * (r + 1) := by ring
      _ ≤ g.cols * g.rows := mul_le_mul_of_nonneg_left hrow hcols.le
  · rw [Int.add_mul_emod_self_left, Int.emod_eq_of_lt hc0 hlt]
  · rw [Int.add_mul_ediv_left _ _ hcols.ne', Int.ediv_eq_zero_of_lt hc0 hlt, zero_add]

/-! ### The surface -/

lemma surface_iff (x y : ℤ) : Recti.contains ⟨0, 0, g.outW, g.outH⟩ x y = true ↔
    ∃ i, (0 ≤ i ∧ i < g.tileCount) ∧ (g.tileOutputRect i).contains x y = true := by
  have ht := (valid_iff.mp hv).2.2.2.2.1
  rw [Recti.contains_iff]
  constructor
  · rintro ⟨⟨hx0, hx⟩, hy0, hy⟩
    dsimp only at hx0 hx hy0 hy
    obtain ⟨c, hc0, hcn, hxc⟩ := exists_block ht hx0 (by omega : x < g.outW)
    obtain ⟨r, hr0, hrn, hyr⟩ := exists_block ht hy0 (by omega : y < g.outH)
    obtain ⟨i, hi, rfl, rfl⟩ := exists_index hv hc0 hcn hr0 hrn
    refine ⟨i, hi, ?_⟩
    rw [tileOutputRect_eq hv hi.1 hi.2, Recti.contains_iff]
    exact ⟨hxc, hyr⟩
  · rintro ⟨i, ⟨h0, h1⟩, hxy⟩
    obtain ⟨⟨hc, -⟩, hr, -⟩ := index_spec hv h0 h1
    have hc' := mul_nonneg hc ht.le
    have hr' := mul_nonneg hr ht.le
    rw [tileOutputRect_eq hv h0 h1, Recti.contains_iff] at hxy
    dsimp only at hxy ⊢
    omega

lemma surface_apart {i j x y : ℤ} (hi : 0 ≤ i ∧ i < g.tileCount) (hj : 0 ≤ j ∧ j < g.tileCount)
    (hxi : (g.tileOutputRect i).contains x y = true)
    (hxj : (g.tileOutputRect j).contains x y = true) : i = j := by
  have ht := (valid_iff.mp hv).2.2.2.2.1
  rw [tileOutputRect_eq hv hi.1 hi.2, Recti.contains_iff] at hxi
  rw [tileOutputRect_eq hv hj.1 hj.2, Recti.contains_iff] at hxj
  obtain ⟨⟨hx1, hx2⟩, hy1, hy2⟩ := hxi
  obtain ⟨⟨hx3, hx4⟩, hy3, hy4⟩ := hxj
  refine index_ext (g := g) ?_ ?_
  · exact eq_of_overlap ht (min_le_left _ _) (min_le_left _ _) (hx1.trans_lt hx4) (hx3.trans_lt hx2)
  · exact eq_of_overlap ht (min_le_left _ _) (min_le_left _ _) (hy1.trans_lt hy4) (hy3.trans_lt hy2)

/-- The blocks of the tiles make up the blocks of the surface. -/
lemma sum_etc2Size : ∑ i ∈ Finset.range g.tileCount.toNat,
    etc2Size (g.tileOutputRect i).w (g.tileOutputRect i).h = etc2Size g.outW g.outH := by
  obtain ⟨-, -, how, hoh, ht, hw4, hh4, ht4⟩ := valid_iff.mp hv
  have hcols := cols_pos hv
  have hrows := rows_pos hv
  set q := (g.tile / 4).toNat with hq
  have hcount : g.tileCount.toNat = g.cols.toNat * g.rows.toNat := by
    rw [tileCount, Int.toNat_mul hcols.le hrows.le]
  -- the size of one tile as a product of what its column and its row give
  have hone : ∀ i ∈ Finset.range (g.cols.toNat * g.rows.toNat),
      etc2Size (g.tileOutputRect i).w (g.tileOutputRect i).h =
        min q ((g.outW / 4).toNat - i % g.cols.toNat * q) *
          (min q ((g.outH / 4).toNat - i / g.cols.toNat * q) * kEtc2BlockBytes) := by
    intro i hi
    have hlt : (i : ℤ) < g.tileCount := by
      have := Finset.mem_range.mp hi
      omega
    obtain ⟨⟨hc0, hc⟩, hr0, hr⟩ := index_spec hv (by omega : (0 : ℤ) ≤ i) hlt
    have hpos := tileOutputRect_pos hv (by omega) hlt
    have hcol : ((i : ℤ) % g.cols).toNat = i % g.cols.toNat := by
      rw [← Int.toNat_of_nonneg hcols.le, ← Int.natCast_emod, Int.toNat_natCast, Int.toNat_natCast]
    have hrow : ((i : ℤ) / g.cols).toNat = i / g.cols.toNat := by
      rw [← Int.toNat_of_nonneg hcols.le, ← Int.natCast_ediv, Int.toNat_natCast, Int.toNat_natCast]
    rw [etc2Size, if_neg (by omega), tileOutputRect_eq hv (by omega) hlt]
    dsimp only [kEtc2BlockSize]
    rw [blocks_min ht4 hw4 hc0 hc ht, blocks_min ht4 hh4 hr0 hr ht, hcol, hrow, mul_assoc]
  have hW : (g.outW / 4).toNat ≤ g.cols.toNat * q :=
    blocks_le_ruler hw4 ht4 ht hcols.le (not_lt.mp ((lt_cols_iff hv _).not.mp (lt_irrefl _)))
  have hH : (g.outH / 4).toNat ≤ g.rows.toNat * q :=
    blocks_le_ruler hh4 ht4 ht hrows.le (not_lt.mp ((lt_rows_iff hv _).not.mp (lt_irrefl _)))
  rw [hcount, Finset.sum_congr rfl hone, sum_grid (fun c => min q ((g.outW / 4).toNat - c * q))
    (fun r => min q ((g.outH / 4).toNat - r * q) * kEtc2BlockBytes), ← Finset.sum_mul,
    sum_blocks, sum_blocks,
    min_eq_right hW, min_eq_right hH, etc2Size, if_neg (by omega), ← mul_assoc]
  rfl

/-! ### The region -/

/-- Where a tile is drawn from, in the terms of its column and its row. -/
lemma mem_tileSourceRect {i : ℤ} (hi : 0 ≤ i ∧ i < g.tileCount) (x y : ℤ) :
    let a := i % g.cols * g.tile
    let b := i / g.cols * g.tile
    (g.tileSourceRect i).contains x y = true ↔
      (down a g.outW g.region.w ≤ x - g.region.x ∧ x - g.region.x <
        down a g.outW g.region.w + span a (a + min g.tile (g.outW - a)) g.outW g.region.w) ∧
      (down b g.outH g.region.h ≤ y - g.region.y ∧ y - g.region.y <
        down b g.outH g.region.h + span b (b + min g.tile (g.outH - b)) g.outH g.region.h) := by
  dsimp only
  rw [tileSourceRect_eq hv hi.1 hi.2, tileOutputRect_eq hv hi.1 hi.2, Recti.contains_iff]
  dsimp only
  omega

lemma region_iff (x y : ℤ) : g.region.contains x y = true ↔
    ∃ i, (0 ≤ i ∧ i < g.tileCount) ∧ (g.tileSourceRect i).contains x y = true := by
  obtain ⟨hw, hh, how, hoh, ht, -⟩ := valid_iff.mp hv
  rw [Recti.contains_iff]
  constructor
  · rintro ⟨⟨hx0, hx⟩, hy0, hy⟩
    obtain ⟨c, hc0, hcn, hxc⟩ :=
      exists_block_over how hw ht (p := x - g.region.x) (by omega) (by omega)
    obtain ⟨r, hr0, hrn, hyr⟩ :=
      exists_block_over hoh hh ht (p := y - g.region.y) (by omega) (by omega)
    obtain ⟨i, hi, rfl, rfl⟩ := exists_index hv hc0 hcn hr0 hrn
    exact ⟨i, hi, (mem_tileSourceRect hv hi x y).mpr ⟨hxc, hyr⟩⟩
  · rintro ⟨i, hi, hxy⟩
    obtain ⟨⟨hc, hcn⟩, hr, hrn⟩ := index_spec hv hi.1 hi.2
    obtain ⟨⟨hx1, hx2⟩, hy1, hy2⟩ := (mem_tileSourceRect hv hi x y).mp hxy
    have hx0 := down_nonneg how (mul_nonneg hc ht.le) hw.le
    have hy0 := down_nonneg hoh (mul_nonneg hr ht.le) hh.le
    have hx := block_lt how hw (by omega) (by omega) hx2
    have hy := block_lt hoh hh (by omega) (by omega) hy2
    omega

lemma region_apart (hfw : g.outW ≤ g.tile * g.region.w) (hfh : g.outH ≤ g.tile * g.region.h)
    {i j x y : ℤ} (hi : 0 ≤ i ∧ i < g.tileCount) (hj : 0 ≤ j ∧ j < g.tileCount)
    (hxi : (g.tileSourceRect i).contains x y = true)
    (hxj : (g.tileSourceRect j).contains x y = true) : i = j := by
  obtain ⟨hw, hh, how, hoh, ht, -⟩ := valid_iff.mp hv
  obtain ⟨⟨-, hci⟩, -, hri⟩ := index_spec hv hi.1 hi.2
  obtain ⟨⟨-, hcj⟩, -, hrj⟩ := index_spec hv hj.1 hj.2
  obtain ⟨hx, hy⟩ := (mem_tileSourceRect hv hi x y).mp hxi
  obtain ⟨hx', hy'⟩ := (mem_tileSourceRect hv hj x y).mp hxj
  exact index_ext (eq_of_drawn how hw ht hfw hci hcj hx hx')
    (eq_of_drawn hoh hh ht hfh hri hrj hy hy')

lemma partitions_of_valid : g.Partitions where
  whole i h0 h1 := by
    have hpos := tileOutputRect_pos hv h0 h1
    have hmod := tileOutputRect_mod hv h0 h1
    exact ⟨⟨hpos.1, hmod.1⟩, hpos.2, hmod.2⟩
  surface := surface_iff hv
  apart i j hi hj x y := surface_apart hv hi hj
  bytes := sum_etc2Size hv
  drawn i h0 h1 := tileSourceRect_pos hv h0 h1
  region := region_iff hv
  drawnApart hfw hfh i j hi hj x y := region_apart hv hfw hfh hi hj

end ViewportGeometry

/-- Rounding up to whole blocks loses nothing and adds no more than it must. -/
lemma roundUpTo_isLeast (v : ℤ) : IsLeast {n : ℤ | 4 ∣ n ∧ v ≤ n} (roundUpTo v 4) := by
  have he : roundUpTo v 4 = (v + 4 - 1) / 4 * 4 := if_neg (by decide)
  refine ⟨⟨⟨(v + 4 - 1) / 4, by rw [he, mul_comm]⟩, by omega⟩, ?_⟩
  rintro n ⟨⟨k, rfl⟩, hn⟩
  omega

/-- A grid that shows what was asked for: the region itself, at sizes that are held to their bounds
and then rounded up to whole blocks; what was not asked for is the region's own size and 64. -/
structure ViewportGeometry.Shows (g : ViewportGeometry) (region : Recti) (outW outH tile : ℤ) :
    Prop where
  valid : g.valid = true
  place : g.region = region
  width : IsLeast {n : ℤ | 4 ∣ n ∧ clamp (if outW ≤ 0 then region.w else outW) 4 8192 ≤ n} g.outW
  height : IsLeast {n : ℤ | 4 ∣ n ∧ clamp (if outH ≤ 0 then region.h else outH) 4 8192 ≤ n} g.outH
  side : IsLeast {n : ℤ | 4 ∣ n ∧ clamp (if tile ≤ 0 then 64 else tile) 8 256 ≤ n} g.tile

variable (region : Recti) (outW outH tile : ℤ)

lemma makeGeometry_shows (hw : 0 < region.w) (hh : 0 < region.h) :
    (makeGeometry region outW outH tile).Shows region outW outH tile := by
  obtain ⟨hv, -⟩ := ViewportGeometry.makeGeometry_spec region outW outH tile hw hh
  have he : makeGeometry region outW outH tile = ⟨region,
      roundUpTo (clamp (if outW ≤ 0 then region.w else outW) 4 8192) 4,
      roundUpTo (clamp (if outH ≤ 0 then region.h else outH) 4 8192) 4,
      roundUpTo (clamp (if tile ≤ 0 then 64 else tile) 8 256) 4⟩ := if_neg (by omega)
  refine ⟨hv, ?_, ?_, ?_, ?_⟩
  · rw [he]
  all_goals
    rw [he]
    exact roundUpTo_isLeast _

/-- **Tiles partition the surface and cover the region**, whatever was asked for: the grid shows the
region at the sizes asked for, its tiles partition it, and it is the one its own numbers make. -/
theorem makeGeometry_partitions (hw : 0 < region.w) (hh : 0 < region.h) :
    (makeGeometry region outW outH tile).Shows region outW outH tile ∧
      (makeGeometry region outW outH tile).Partitions ∧
      (makeGeometry region outW outH tile).remade = makeGeometry region outW outH tile := by
  obtain ⟨hv, how, hoh, ht8, ht256⟩ :=
    ViewportGeometry.makeGeometry_spec region outW outH tile hw hh
  exact ⟨makeGeometry_shows region outW outH tile hw hh, ViewportGeometry.partitions_of_valid hv,
    FrameSender.makeGeometry_self ⟨hv, how, hoh, ht8, ht256⟩⟩

/-- A region stretched over more pixels than it has, in tiles that do not come out even. -/
theorem makeGeometry_partitions_stretched :
    let g := makeGeometry ⟨-100, 50, 7, 5⟩ 1000 130 60
    g.region = ⟨-100, 50, 7, 5⟩ ∧ IsLeast {n : ℤ | 4 ∣ n ∧ 130 ≤ n} g.outH ∧ g.Partitions ∧
      g.remade = g := by
  obtain ⟨hshows, hparts, hself⟩ := makeGeometry_partitions ⟨-100, 50, 7, 5⟩ 1000 130 60
    (show (0 : ℤ) < 7 by omega) (show (0 : ℤ) < 5 by omega)
  exact ⟨hshows.place, hshows.height, hparts, hself⟩

end Digitiz
