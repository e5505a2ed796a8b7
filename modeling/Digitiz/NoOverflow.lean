import Digitiz.HostArith
import Digitiz.PointerTrack
import Digitiz.SenderSteps
import Digitiz.Sweep

/-!
Which messages the arithmetic of the host can take.

The size of the encoded surface and of a tile is bounded by what a geometry allows, and what stays
on that surface never leaves the integers. Where the far edges of things on the desktop are added
up they can leave them, and where a tile is gathered so can the products and the sums. For each
function it is said exactly when they do not.
-/

namespace Digitiz

open Rescale ViewportGeometry

/-- A geometry the host may have: one it was asked for. -/
structure Served (g : ViewportGeometry) : Prop where
  valid : g.valid = true
  outW_le : g.outW ≤ 8192
  outH_le : g.outH ≤ 8192
  le_tile : 8 ≤ g.tile
  tile_le : g.tile ≤ 256
  x : InInt g.region.x
  y : InInt g.region.y
  w : InInt g.region.w
  h : InInt g.region.h

lemma Served.ints {g : ViewportGeometry} (hg : Served g) :
    InInt g.region.x ∧ InInt g.region.y ∧ InInt g.region.w ∧ InInt g.region.h :=
  ⟨hg.x, hg.y, hg.w, hg.h⟩

lemma inInt_toInt (v : Int32) : InInt v.toInt :=
  ⟨v.le_toInt, Int.lt_add_one_iff.mp v.toInt_lt⟩

lemma served_of_starts {r : ViewportReq} (h : r.starts = true) : Served r.geometry := by
  have hv := ViewportReq.valid_of_starts h
  have hpos : ¬(r.w.toInt ≤ 0 ∨ r.h.toInt ≤ 0) := by
    intro hbad
    have hno : r.geometry.valid = false := makeGeometry_invalid _ _ _ _ hbad
    rw [hno] at hv
    contradiction
  obtain ⟨-, hw, hh, ht, ht'⟩ := makeGeometry_spec
    ⟨r.x.toInt, r.y.toInt, r.w.toInt, r.h.toInt⟩ r.outW.toNat r.outH.toNat r.tile.toNat
    (by dsimp only; omega) (by dsimp only; omega)
  have hregion : r.geometry.region = ⟨r.x.toInt, r.y.toInt, r.w.toInt, r.h.toInt⟩ := by
    unfold ViewportReq.geometry makeGeometry
    rw [if_neg hpos]
  refine ⟨hv, hw, hh, ht, ht', ?_, ?_, ?_, ?_⟩
  all_goals rw [hregion]; exact inInt_toInt _

namespace Arith

lemma fits_roundUpTo (v : ℤ) {lo hi : ℤ} (hlo : 0 ≤ lo) (hle : lo ≤ hi) (hhi : hi ≤ 8192) :
    (roundUpTo (clamp v lo hi) 4).Fits := by
  have hv : 0 ≤ clamp v lo hi ∧ clamp v lo hi ≤ 8192 := by
    unfold clamp
    omega
  unfold roundUpTo
  rw [if_neg (by omega)]
  simp only [fits_bind, fits_int, val_int, InInt]
  omega

/-- A geometry can always be made. -/
lemma fits_makeGeometry (region : Recti) (outW outH tile : ℤ) :
    (makeGeometry region outW outH tile).Fits := by
  unfold makeGeometry
  split_ifs
  · exact fits_pure _
  all_goals
    simp only [fits_bind, fits_pure, and_true]
    exact ⟨fits_roundUpTo _ (by omega) (by omega) (by omega),
      fits_roundUpTo _ (by omega) (by omega) (by omega),
      fits_roundUpTo _ (by omega) (by omega) (by omega)⟩

variable {g : ViewportGeometry} (hg : Served g)
include hg

/-! ### On the encoded surface -/

lemma fits_tilesAcross {out : ℤ} (h0 : 0 ≤ out) (hle : out ≤ 8192) :
    (tilesAcross g out).Fits := by
  have h1 := hg.le_tile
  have h2 := hg.tile_le
  have hq : 0 ≤ (out + g.tile - 1) / g.tile := Int.ediv_nonneg (by omega) (by omega)
  have hq' : (out + g.tile - 1) / g.tile ≤ out + g.tile - 1 := Int.ediv_le_self _ (by omega)
  unfold tilesAcross
  rw [if_pos (by omega)]
  simp only [fits_bind, fits_int, val_int, InInt]
  omega

lemma fits_cols : (cols g).Fits :=
  fits_tilesAcross hg (by have := valid_iff.mp hg.valid; omega) hg.outW_le

lemma fits_rows : (rows g).Fits :=
  fits_tilesAcross hg (by have := valid_iff.mp hg.valid; omega) hg.outH_le

/-- No more than so many tiles fit on the largest surface. -/
lemma count_le {n out : ℤ} (hn : (n - 1) * g.tile < out) (hle : out ≤ 8192) : n ≤ 1024 := by
  by_contra hbig
  have h1 := hg.le_tile
  have h : 1024 * 8 ≤ (n - 1) * g.tile := Int.mul_le_mul (by omega) h1 (by omega) (by omega)
  omega

lemma cols_le : g.cols ≤ 1024 :=
  count_le hg ((lt_cols_iff hg.valid (g.cols - 1)).mp (by omega)) hg.outW_le

lemma rows_le : g.rows ≤ 1024 :=
  count_le hg ((lt_rows_iff hg.valid (g.rows - 1)).mp (by omega)) hg.outH_le

lemma fits_tileCount : (tileCount g).Fits := by
  have hc := cols_pos hg.valid
  have hr := rows_pos hg.valid
  have hprod : g.cols * g.rows ≤ 1024 * 1024 :=
    Int.mul_le_mul (cols_le hg) (rows_le hg) hr.le (by omega)
  have hpos : 0 < g.cols * g.rows := Int.mul_pos hc hr
  unfold tileCount
  simp only [fits_bind, fits_int, val_cols, val_rows, InInt]
  exact ⟨fits_cols hg, fits_rows hg, by omega, by omega⟩

/-- Where a tile lands can always be told. -/
lemma fits_tileOutputRect (index : ℤ) : (tileOutputRect g index).Fits := by
  unfold tileOutputRect
  split_ifs with hout
  · exact fits_pure _
  · rw [fits_bind]
    refine ⟨fits_tileCount hg, ?_⟩
    rw [val_tileCount]
    split_ifs with hend
    · exact fits_pure _
    · obtain ⟨⟨hx, hx'⟩, hy, hy'⟩ := @index_spec g hg.valid index (by omega) (by omega)
      have hc := cols_pos hg.valid
      have hcl := cols_le hg
      have hrl := rows_le hg
      have hcol : index % g.cols < g.cols := Int.emod_lt_of_pos _ hc
      have hrow : index / g.cols < g.rows := (lt_rows_iff hg.valid _).mpr hy'
      have hxt : 0 ≤ index % g.cols * g.tile := Int.mul_nonneg hx (by have := hg.le_tile; omega)
      have hyt : 0 ≤ index / g.cols * g.tile := Int.mul_nonneg hy (by have := hg.le_tile; omega)
      have hw := hg.outW_le
      have hh := hg.outH_le
      simp only [fits_bind, fits_int, val_int, val_cols, fits_pure, and_true, InInt]
      exact ⟨fits_cols hg, ⟨by omega, by omega⟩, fits_cols hg, by omega⟩

/-! ### On the desktop -/

omit hg in
/-- The edges of a block on the other strip. -/
lemma edges_bounds {a b n m : ℤ} (hn : 0 < n) (hm : 0 < m) (ha : 0 ≤ a) (hab : a < b)
    (hb : b ≤ n) : 0 ≤ down a n m ∧ down a n m ≤ down b n m ∧ down b n m ≤ m ∧
      down a n m + span a b n m ≤ m := by
  have hend : down a n m + span a b n m ≤ m := by
    have h := block_lt hn hm hab hb (Int.sub_one_lt_iff.mpr le_rfl : _ < down a n m + span a b n m)
    omega
  have hmono := down_mono hn hm.le hab.le
  refine ⟨down_nonneg hn ha hm.le, hmono, ?_, hend⟩
  unfold span at hend
  omega

section tile

variable {index : ℤ} (h0 : 0 ≤ index) (h1 : index < g.tileCount)
include h0 h1

/-- The tile is on the surface. -/
lemma tileOutputRect_within :
    (0 ≤ (g.tileOutputRect index).x ∧
      (g.tileOutputRect index).x + (g.tileOutputRect index).w ≤ g.outW) ∧
    (0 ≤ (g.tileOutputRect index).y ∧
      (g.tileOutputRect index).y + (g.tileOutputRect index).h ≤ g.outH) := by
  obtain ⟨⟨hx, hx'⟩, hy, hy'⟩ := index_spec hg.valid h0 h1
  have ht : 0 ≤ g.tile := by have := hg.le_tile; omega
  have hxt : 0 ≤ index % g.cols * g.tile := Int.mul_nonneg hx ht
  have hyt : 0 ≤ index / g.cols * g.tile := Int.mul_nonneg hy ht
  rw [tileOutputRect_eq hg.valid h0 h1]
  dsimp only
  omega

/-- What it is sampled from is part of the region. -/
lemma tileSourceRect_within :
    (g.region.x ≤ (g.tileSourceRect index).x ∧
      (g.tileSourceRect index).x + (g.tileSourceRect index).w ≤ g.region.x + g.region.w) ∧
    (g.region.y ≤ (g.tileSourceRect index).y ∧
      (g.tileSourceRect index).y + (g.tileSourceRect index).h ≤ g.region.y + g.region.h) := by
  obtain ⟨hrw, hrh, how, hoh, -⟩ := valid_iff.mp hg.valid
  obtain ⟨⟨hx, hx'⟩, hy, hy'⟩ := tileOutputRect_within hg h0 h1
  obtain ⟨hw, hh⟩ := tileOutputRect_pos hg.valid h0 h1
  have hcols := edges_bounds how hrw hx (lt_add_of_pos_right _ hw) hx'
  have hrows := edges_bounds hoh hrh hy (lt_add_of_pos_right _ hh) hy'
  rw [tileSourceRect_eq hg.valid h0 h1]
  dsimp only
  omega

end tile

omit hg in
/-- There is nothing to tell of a tile that does not exist. -/
lemma tileOutputRect_of_not {index : ℤ} (h : ¬(0 ≤ index ∧ index < g.tileCount)) :
    g.tileOutputRect index = {} := if_pos (by omega)

/-- The pixels of a tile can be told exactly if their corner is still a pixel. -/
lemma fits_tileSourceRect_iff (index : ℤ) : (tileSourceRect g index).Fits ↔
    (0 ≤ index → index < g.tileCount →
      (g.tileSourceRect index).x ≤ 2147483647 ∧ (g.tileSourceRect index).y ≤ 2147483647) := by
  unfold tileSourceRect
  rw [fits_bind, and_iff_right (fits_tileOutputRect hg index), val_tileOutputRect]
  by_cases hin : 0 ≤ index ∧ index < g.tileCount
  · obtain ⟨h0, h1⟩ := hin
    obtain ⟨hw, hh⟩ := tileOutputRect_pos hg.valid h0 h1
    obtain ⟨hrw, hrh, how, hoh, -⟩ := valid_iff.mp hg.valid
    obtain ⟨⟨hx, hx'⟩, hy, hy'⟩ := tileOutputRect_within hg h0 h1
    have hcols := edges_bounds how hrw hx (lt_add_of_pos_right _ hw) hx'
    have hrows := edges_bounds hoh hrh hy (lt_add_of_pos_right _ hh) hy'
    have hb := hg.outW_le
    have hb' := hg.outH_le
    obtain ⟨⟨hbx, -⟩, ⟨hby, -⟩, ⟨-, hbw⟩, -, hbh⟩ := hg.ints
    rw [if_neg (by omega), tileSourceRect_eq hg.valid h0 h1]
    simp only [fits_bind, fits_int, val_int, fits_pure, and_true, InInt, h0, h1, true_implies]
    omega
  · rw [tileOutputRect_of_not hin, if_pos (by decide)]
    exact iff_of_true (fits_pure _) fun h0 h1 => absurd ⟨h0, h1⟩ hin

omit hg in
/-- Carried over to a surface that fits, a part of a strip lands on it. -/
lemma down_up_bounds {a b n m : ℤ} (hn : 0 < n) (hm : 0 ≤ m) (ha : 0 ≤ a) (hab : a < b)
    (hb : b ≤ n) : (0 ≤ down a n m ∧ down a n m ≤ m) ∧ 0 ≤ up b n m ∧ up b n m ≤ m := by
  have hbm : b * m ≤ n * m := mul_le_mul_of_nonneg_right hb hm
  have hdown : down a n m ≤ down n n m := down_mono hn hm (hab.le.trans hb)
  rw [down_eq hn (v := n), Int.mul_ediv_cancel_left m hn.ne'] at hdown
  refine ⟨⟨down_nonneg hn ha hm, hdown⟩, ?_, ?_⟩
  · rw [← Int.sub_one_lt_iff, lt_up_iff hn]
    have h : 0 ≤ b * m := Int.mul_nonneg (by omega) hm
    omega
  · rw [← not_lt, lt_up_iff hn, not_lt, mul_comm m]
    exact hbm

/-- Which tiles a rectangle touches can be told exactly if its edges are pixels, both on the
desktop and from the corner of the region. -/
lemma fits_tilesTouching_iff (d : Recti) : (tilesTouching g d).Fits ↔
    InInt (d.x - g.region.x) ∧ InInt (d.y - g.region.y) ∧
    InInt (d.x + d.w) ∧ InInt (d.x + d.w - g.region.x) ∧
    InInt (d.y + d.h) ∧ InInt (d.y + d.h - g.region.y) := by
  unfold tilesTouching
  rw [if_neg (by simp [hg.valid])]
  simp only [fits_bind, fits_int, val_int]
  refine and_congr_right fun _ => and_congr_right fun _ => and_congr_right fun _ =>
    and_congr_right fun _ => and_congr_right fun _ => and_iff_left ?_
  refine fits_ite (fun _ => fits_pure _) fun hne => ?_
  obtain ⟨hrw, hrh, how, hoh, -⟩ := valid_iff.mp hg.valid
  have hx := down_up_bounds hrw how.le (le_max_right (d.x - g.region.x) 0)
    (b := min (d.x + d.w - g.region.x) g.region.w) (by omega) (min_le_right _ _)
  have hy := down_up_bounds hrh hoh.le (le_max_right (d.y - g.region.y) 0)
    (b := min (d.y + d.h - g.region.y) g.region.h) (by omega) (min_le_right _ _)
  have hb := hg.outW_le
  have hb' := hg.outH_le
  have ht := hg.le_tile
  have ht' := hg.tile_le
  have hcols := cols_pos hg.valid
  have hrows := rows_pos hg.valid
  have hcols' := cols_le hg
  have hrows' := rows_le hg
  have hdiv {v : ℤ} (h0 : 0 ≤ v) : 0 ≤ v / g.tile ∧ v / g.tile ≤ v :=
    ⟨Int.ediv_nonneg h0 (by omega), Int.ediv_le_self _ h0⟩
  have hx0 := hdiv hx.1.1
  have hy0 := hdiv hy.1.1
  have hx1 := hdiv (show 0 ≤ up (min (d.x + d.w - g.region.x) g.region.w) g.region.w g.outW +
    g.tile - 1 by omega)
  have hy1 := hdiv (show 0 ≤ up (min (d.y + d.h - g.region.y) g.region.h) g.region.h g.outH +
    g.tile - 1 by omega)
  simp only [fits_bind, fits_int, val_int, val_cols, val_rows, fits_pure, and_true, InInt, clamp]
  simp only [fits_cols hg, fits_rows hg, true_and]
  omega

/-! ### Reading a selection -/

/-- A tile that exists has pixels, and one that does not has none. -/
lemma sampled_iff (t : UInt16) :
    ¬((g.tileSourceRect t.toNat).w ≤ 0 ∨ (g.tileSourceRect t.toNat).h ≤ 0) ↔
      (t.toNat : ℤ) < g.tileCount := by
  by_cases h : (t.toNat : ℤ) < g.tileCount
  · have hpos := tileSourceRect_pos hg.valid (Int.natCast_nonneg t.toNat) h
    exact iff_of_true (by omega) h
  · have hempty : g.tileSourceRect t.toNat = {} := by
      unfold ViewportGeometry.tileSourceRect
      rw [tileOutputRect_of_not fun hin => h hin.2]
      rfl
    rw [hempty]
    exact iff_of_false (by decide) h

lemma foldl_extend_eq_none_iff (tiles : List UInt16) (start : Option Recti) :
    tiles.foldl (FrameSender.extend g) start = none ↔
      start = none ∧ ∀ t ∈ tiles, ¬(t.toNat : ℤ) < g.tileCount := by
  induction tiles generalizing start with
  | nil => simp
  | cons t r ih =>
    have hone : FrameSender.extend g start t = none ↔
        start = none ∧ ¬(t.toNat : ℤ) < g.tileCount := by
      rw [← sampled_iff hg, not_not]
      unfold FrameSender.extend
      dsimp only
      split_ifs with hempty
      · exact (and_iff_left hempty).symm
      · cases start <;> simp [hempty]
    rw [List.foldl_cons, ih, hone, List.forall_mem_cons, and_assoc]

/-- What a box may be while tiles are collected in it. -/
structure Collected (g : ViewportGeometry) (b : Recti) : Prop where
  left : g.region.x ≤ b.x
  top : g.region.y ≤ b.y
  right : b.x + b.w ≤ g.region.x + g.region.w
  bottom : b.y + b.h ≤ g.region.y + g.region.h
  wide : 0 < b.w
  high : 0 < b.h
  right_le : b.x + b.w ≤ 2147483647
  bottom_le : b.y + b.h ≤ 2147483647

lemma collected_tileSourceRect {t : UInt16} (ht : (t.toNat : ℤ) < g.tileCount)
    (hfar : (g.tileSourceRect t.toNat).x + (g.tileSourceRect t.toNat).w ≤ 2147483647 ∧
      (g.tileSourceRect t.toNat).y + (g.tileSourceRect t.toNat).h ≤ 2147483647) :
    Collected g (g.tileSourceRect t.toNat) := by
  have h0 := Int.natCast_nonneg t.toNat
  obtain ⟨⟨hx, hx'⟩, hy, hy'⟩ := tileSourceRect_within hg h0 ht
  obtain ⟨hw, hh⟩ := tileSourceRect_pos hg.valid h0 ht
  exact ⟨hx, hy, hx', hy', hw, hh, hfar.1, hfar.2⟩

/-- Two boxes can be joined. -/
lemma fits_join {b src : Recti} (hb : Collected g b) (hs : Collected g src) :
    (join b src).Fits ∧ Collected g (FrameSender.join b src) := by
  obtain ⟨hbx, hby, hbr, hbb, hbw, hbh, hbr', hbb'⟩ := hb
  obtain ⟨hsx, hsy, hsr, hsb, hsw, hsh, hsr', hsb'⟩ := hs
  obtain ⟨⟨hrx, -⟩, ⟨hry, -⟩, ⟨-, hrw⟩, -, hrh⟩ := hg.ints
  constructor
  · unfold join
    simp only [fits_bind, fits_int, val_int, fits_pure, and_true, InInt]
    omega
  · unfold FrameSender.join
    constructor <;> (dsimp only; omega)

/-- One more tile. -/
lemma fits_extend {box : Option Recti} {t : UInt16}
    (hfar : (t.toNat : ℤ) < g.tileCount →
      (g.tileSourceRect t.toNat).x + (g.tileSourceRect t.toNat).w ≤ 2147483647 ∧
      (g.tileSourceRect t.toNat).y + (g.tileSourceRect t.toNat).h ≤ 2147483647)
    (hbox : ∀ b, box = some b → Collected g b) :
    (extend g box t).Fits ∧ ∀ b, (extend g box t).val = some b → Collected g b := by
  have htile : (tileSourceRect g t.toNat).Fits := by
    rw [fits_tileSourceRect_iff hg]
    intro h0 ht
    obtain ⟨hw, hh⟩ := tileSourceRect_pos hg.valid h0 ht
    have hend := hfar ht
    omega
  by_cases ht : (t.toNat : ℤ) < g.tileCount
  · have hsrc := collected_tileSourceRect hg ht (hfar ht)
    have hsome := (sampled_iff hg t).mpr ht
    constructor
    · unfold extend
      rw [fits_bind, and_iff_right htile, val_tileSourceRect, if_neg hsome]
      cases box with
      | none => exact fits_pure _
      | some b =>
        dsimp only
        rw [fits_bind]
        exact ⟨(fits_join hg (hbox b rfl) hsrc).1, fits_pure _⟩
    · intro b hb
      rw [val_extend] at hb
      unfold FrameSender.extend at hb
      dsimp only at hb
      rw [if_neg hsome] at hb
      cases box with
      | none => exact Option.some.inj hb ▸ hsrc
      | some b' => exact Option.some.inj hb ▸ (fits_join hg (hbox b' rfl) hsrc).2
  · have hnone : (g.tileSourceRect t.toNat).w ≤ 0 ∨ (g.tileSourceRect t.toNat).h ≤ 0 := by
      by_contra hne
      exact ht ((sampled_iff hg t).mp hne)
    constructor
    · unfold extend
      rw [fits_bind, and_iff_right htile, val_tileSourceRect, if_pos hnone]
      exact fits_pure _
    · rw [val_extend]
      unfold FrameSender.extend
      dsimp only
      rw [if_pos hnone]
      exact hbox

lemma fits_clip {b bounds : Recti} (hb : Collected g b) :
    (clip b bounds).Fits ↔ InInt (bounds.x + bounds.w) ∧ InInt (bounds.y + bounds.h) := by
  obtain ⟨hx, hy, hr, hb, hw, hh, hr', hb'⟩ := hb
  obtain ⟨⟨hrx, -⟩, ⟨hry, -⟩, ⟨-, hrw⟩, -, hrh⟩ := hg.ints
  have hright : InInt (b.x + b.w) := ⟨by omega, hr'⟩
  have hbottom : InInt (b.y + b.h) := ⟨by omega, hb'⟩
  unfold clip
  simp only [fits_bind, fits_int, val_int]
  rw [and_iff_right hright, and_iff_right hbottom]
  refine and_congr_right fun _ => and_iff_left (fits_ite (fun _ => fits_pure _) fun hne => ?_)
  simp only [fits_bind, fits_int, val_int, fits_pure, and_true, InInt]
  omega

lemma fits_selectionBox_iff (bounds : Recti) (tiles : List UInt16) :
    (selectionBox g bounds tiles).Fits ↔
      (∀ t ∈ tiles, (t.toNat : ℤ) < g.tileCount →
        (g.tileSourceRect t.toNat).x + (g.tileSourceRect t.toNat).w ≤ 2147483647 ∧
        (g.tileSourceRect t.toNat).y + (g.tileSourceRect t.toNat).h ≤ 2147483647) ∧
      ((∃ t ∈ tiles, (t.toNat : ℤ) < g.tileCount) →
        InInt (bounds.x + bounds.w) ∧ InInt (bounds.y + bounds.h)) := by
  have hbox := foldl_extend_eq_none_iff hg tiles none
  rw [and_iff_right rfl] at hbox
  unfold selectionBox
  rw [fits_bind, val_boundingBox]
  constructor
  · intro hfits
    cases hb : FrameSender.boundingBox g tiles with
    | none =>
      have hnot := hbox.mp hb
      exact ⟨fun t ht hin => absurd hin (hnot t ht), fun ⟨t, ht, hin⟩ => absurd hin (hnot t ht)⟩
    | some b =>
      have hclip : (clip b bounds).Fits := by
        rw [hb] at hfits
        exact hfits.2
      unfold clip at hclip
      simp only [fits_bind, fits_int, val_int] at hclip
      obtain ⟨⟨-, hright⟩, hbx, ⟨-, hbottom⟩, hby, -⟩ := hclip
      refine ⟨fun t ht hin => ?_, fun _ => ⟨hbx, hby⟩⟩
      have hpos := tileSourceRect_pos hg.valid (Int.natCast_nonneg t.toNat) hin
      obtain ⟨hx, hy⟩ := (FrameSender.within_foldl_extend hb).2 t ht hpos.1 hpos.2
      omega
  · rintro ⟨hfar, hbounds⟩
    have hrule := fits_sweep_of (f := extend g) (l := tiles)
      (P := fun box => ∀ b, box = some b → Collected g b)
      (fun box hP t ht => fits_extend hg (hfar t ht) hP) (s := none)
      fun b hb => absurd hb (Option.some_ne_none b).symm
    rw [val_boundingBox] at hrule
    refine ⟨hrule.1, ?_⟩
    cases hb : FrameSender.boundingBox g tiles with
    | none => exact fits_pure _
    | some b =>
      refine (fits_clip hg (hrule.2 b hb)).mpr (hbounds ?_)
      by_contra hnone
      have hb' : FrameSender.boundingBox g tiles = none :=
        hbox.mpr fun t ht hin => hnone ⟨t, ht, hin⟩
      exact absurd (hb.symm.trans hb') (Option.some_ne_none b)

/-! ### Gathering a tile -/

omit hg

/-- The pixels of block `v` of `out` on a side of `size` pixels, from where was read. -/
def blockOf (src read v size out : ℤ) : ℤ × ℤ :=
  (src - read + v * size / out,
    max (src - read + v * size / out + 1) (src - read + (v + 1) * size / out))

lemma val_block (src read v size out : ℤ) :
    (block src read v size out).val = blockOf src read v size out := rfl

/-- All blocks of a side can be told exactly if the first and the last can. -/
lemma fits_blocks_iff {src read size out : ℤ} (hs : 0 < size) (ho : 0 < out) (hle : out ≤ 256) :
    (∀ v ∈ intRange 0 out, (block src read v size out).Fits) ↔
      -2147483648 ≤ src - read ∧ src - read + size ≤ 2147483647 ∧ out * size ≤ 2147483647 := by
  unfold block edge
  simp only [fits_bind, fits_int, val_bind, val_int, fits_pure, and_true, mem_intRange]
  constructor
  · intro hall
    have hlast := hall (out - 1) ⟨by omega, by omega⟩
    rw [Int.sub_add_cancel, Int.mul_ediv_cancel_left size ho.ne'] at hlast
    unfold InInt at hlast
    omega
  · rintro ⟨hlo, hhi, hprod⟩ v ⟨h0, h1⟩
    have hv : v * size / out < size := by
      rw [Int.ediv_lt_iff_lt_mul ho, mul_comm size]
      exact mul_lt_mul_of_pos_right h1 hs
    have hv' : (v + 1) * size / out ≤ size := by
      refine Int.ediv_le_of_le_mul ho ?_
      rw [mul_comm size]
      exact mul_le_mul_of_nonneg_right (by omega) hs.le
    have hpos : 0 ≤ v * size := Int.mul_nonneg h0 hs.le
    have hpos' : 0 ≤ (v + 1) * size := Int.mul_nonneg (by omega) hs.le
    have hup : (v + 1) * size ≤ out * size := mul_le_mul_of_nonneg_right (by omega) hs.le
    have hstep : (v + 1) * size = v * size + size := by rw [add_mul, one_mul]
    have hq : 0 ≤ v * size / out := Int.ediv_nonneg hpos ho.le
    have hq' : 0 ≤ (v + 1) * size / out := Int.ediv_nonneg hpos' ho.le
    unfold InInt
    omega

/-- How many of the pixels from `a` up to `b` are on a side of `n`. -/
def seen (a b n : ℤ) : ℕ := (min b n - max a 0).toNat

lemma seen_le (a b n : ℤ) : seen a b n ≤ n.toNat := by
  unfold seen
  omega

lemma length_seen (a b n : ℤ) :
    ((intRange a b).filter fun v => ¬(v < 0 ∨ v ≥ n)).length = seen a b n := by
  have hnodup (a b : ℤ) : (intRange a b).Nodup :=
    List.nodup_range.map fun i j h => by simpa using h
  have hperm : ((intRange a b).filter fun v => ¬(v < 0 ∨ v ≥ n)).Perm
      (intRange (max a 0) (min b n)) := by
    rw [List.perm_ext_iff_of_nodup ((hnodup a b).filter _) (hnodup _ _)]
    intro v
    simp only [List.mem_filter, mem_intRange, decide_eq_true_eq]
    omega
  rw [hperm.length_eq]
  simp [intRange, seen]

/-- The pixels a block looks at, one after the other. -/
def cells (region : Recti) (sx0 sx1 sy0 sy1 : ℤ) : List (ℤ × ℤ) :=
  ((intRange sy0 sy1).filter fun v => ¬(v < 0 ∨ v ≥ region.h)).flatMap fun sy =>
    ((intRange sx0 sx1).filter fun v => ¬(v < 0 ∨ v ≥ region.w)).map fun sx => (sx, sy)

lemma length_cells (region : Recti) (sx0 sx1 sy0 sy1 : ℤ) :
    (cells region sx0 sx1 sy0 sy1).length = seen sy0 sy1 region.h * seen sx0 sx1 region.w := by
  unfold cells
  rw [List.length_flatMap]
  simp only [List.length_map, length_seen, List.map_const', List.sum_replicate_nat]

lemma sampleBox_eq (pixels : ℤ → ℤ → Pixel) (region : Recti) (sx0 sx1 sy0 sy1 : ℤ) :
    sampleBox pixels region sx0 sx1 sy0 sy1 =
      sweep (fun s c => add s (pixels c.1 c.2)) (cells region sx0 sx1 sy0 sy1) {} := by
  unfold sampleBox cells
  rw [sweep_filter, ← sweep_flatMap]
  simp only [sweep_filter, ← sweep_map]

lemma fits_add_iff (s : Sample) (p : Pixel) : (add s p).Fits ↔
    s.b + p.b.toNat ≤ 2147483647 ∧ s.g + p.g.toNat ≤ 2147483647 ∧
      s.r + p.r.toNat ≤ 2147483647 ∧ s.n + 1 ≤ 2147483647 := by
  unfold add Sample.add
  simp only [fits_bind, fits_int, fits_pure, and_true, InInt]
  omega

/-- The sums stay in range as long as white pixels would keep them there. -/
lemma fits_sums_of (pixels : ℤ → ℤ → Pixel) (l : List (ℤ × ℤ)) (s : Sample)
    (h : ∀ v ∈ [s.b, s.g, s.r, s.n], v + 255 * l.length ≤ 2147483647) :
    (sweep (fun s c => add s (pixels c.1 c.2)) l s).Fits := by
  induction l generalizing s with
  | nil => exact fits_sweep_nil _ s
  | cons c r ih =>
    have hb := (pixels c.1 c.2).b.toNat_lt
    have hg := (pixels c.1 c.2).g.toNat_lt
    have hr := (pixels c.1 c.2).r.toNat_lt
    simp only [List.forall_mem_cons, List.length_cons] at h
    rw [fits_sweep_cons, fits_add_iff]
    refine ⟨by omega, ih _ ?_⟩
    show ∀ v ∈ [s.b + (pixels c.1 c.2).b.toNat, s.g + (pixels c.1 c.2).g.toNat,
      s.r + (pixels c.1 c.2).r.toNat, s.n + 1], v + 255 * r.length ≤ 2147483647
    simp only [List.forall_mem_cons, List.not_mem_nil, false_implies, implies_true, and_true]
    omega

lemma sums_le_of_fits (l : List (ℤ × ℤ)) (s : Sample) (hs : s.b ≤ 2147483647)
    (h : (sweep (fun s _ => add s ⟨255, 255, 255, 255⟩) l s).Fits) :
    s.b + 255 * l.length ≤ 2147483647 := by
  induction l generalizing s with
  | nil => exact hs
  | cons c r ih =>
    rw [fits_sweep_cons, fits_add_iff] at h
    have hrest : s.b + 255 + 255 * r.length ≤ 2147483647 := ih _ h.1.1 h.2
    rw [List.length_cons]
    omega

/-- The sums over a block stay in range whatever is on the screen exactly if there is room for so
many white pixels. -/
lemma fits_sampleBox_iff (region : Recti) (sx0 sx1 sy0 sy1 : ℤ) :
    (∀ pixels, (sampleBox pixels region sx0 sx1 sy0 sy1).Fits) ↔
      255 * (seen sy0 sy1 region.h * seen sx0 sx1 region.w) ≤ 2147483647 := by
  simp only [sampleBox_eq]
  rw [← length_cells]
  constructor
  · intro hall
    have hwhite := sums_le_of_fits _ {} (by decide) (hall fun _ _ => ⟨255, 255, 255, 255⟩)
    exact (Nat.zero_add _).symm.trans_le hwhite
  · intro h pixels
    refine fits_sums_of pixels _ {} ?_
    simp only [List.forall_mem_cons, List.not_mem_nil, false_implies, implies_true, and_true]
    omega

include hg in
/-- What is carried out for a tile that exists. -/
lemma fits_gatherTile (readRect : Recti) (pixels : ℤ → ℤ → Pixel) {index : ℤ} (h0 : 0 ≤ index)
    (h1 : index < g.tileCount) : (gatherTile g readRect pixels index).Fits ↔
      (tileSourceRect g index).Fits ∧ ∀ y ∈ intRange 0 (g.tileOutputRect index).h,
        (block (g.tileSourceRect index).y readRect.y y (g.tileSourceRect index).h
          (g.tileOutputRect index).h).Fits ∧
        ∀ x ∈ intRange 0 (g.tileOutputRect index).w,
          (block (g.tileSourceRect index).x readRect.x x (g.tileSourceRect index).w
            (g.tileOutputRect index).w).Fits ∧
          (sampleBox pixels readRect
            (blockOf (g.tileSourceRect index).x readRect.x x (g.tileSourceRect index).w
              (g.tileOutputRect index).w).1
            (blockOf (g.tileSourceRect index).x readRect.x x (g.tileSourceRect index).w
              (g.tileOutputRect index).w).2
            (blockOf (g.tileSourceRect index).y readRect.y y (g.tileSourceRect index).h
              (g.tileOutputRect index).h).1
            (blockOf (g.tileSourceRect index).y readRect.y y (g.tileSourceRect index).h
              (g.tileOutputRect index).h).2).Fits := by
  obtain ⟨hw, hh⟩ := tileOutputRect_pos hg.valid h0 h1
  unfold gatherTile
  rw [fits_bind, and_iff_right (fits_tileOutputRect hg index), fits_bind]
  refine and_congr_right fun _ => ?_
  rw [val_tileOutputRect, val_tileSourceRect, if_neg (by omega), fits_bind,
    and_iff_left (fits_pure _), fits_each]
  refine forall₂_congr fun y _ => ?_
  rw [fits_bind]
  refine and_congr_right fun _ => ?_
  show (each _ _ >>= _).Fits ↔ _
  rw [fits_bind, and_iff_left (fits_pure _), fits_each]
  refine forall₂_congr fun x _ => ?_
  rw [fits_bind]
  refine and_congr_right fun _ => ?_
  show (sampleBox _ _ _ _ _ _ >>= _).Fits ↔ _
  rw [fits_bind, and_iff_left (fits_pure _)]
  exact Iff.rfl

include hg in
/-- **A tile can be gathered whatever is on the screen** exactly under these bounds. -/
lemma fits_gatherTile_iff (readRect : Recti) {index : ℤ} (h0 : 0 ≤ index)
    (h1 : index < g.tileCount) :
    (∀ pixels, (gatherTile g readRect pixels index).Fits) ↔
      let out := g.tileOutputRect index
      let src := g.tileSourceRect index
      (src.x ≤ 2147483647 ∧ src.y ≤ 2147483647) ∧
      (-2147483648 ≤ src.x - readRect.x ∧ src.x - readRect.x + src.w ≤ 2147483647 ∧
        out.w * src.w ≤ 2147483647) ∧
      (-2147483648 ≤ src.y - readRect.y ∧ src.y - readRect.y + src.h ≤ 2147483647 ∧
        out.h * src.h ≤ 2147483647) ∧
      ∀ x y, (0 ≤ x ∧ x < out.w) → (0 ≤ y ∧ y < out.h) →
        255 * (seen (blockOf src.y readRect.y y src.h out.h).1
            (blockOf src.y readRect.y y src.h out.h).2 readRect.h *
          seen (blockOf src.x readRect.x x src.w out.w).1
            (blockOf src.x readRect.x x src.w out.w).2 readRect.w) ≤ 2147483647 := by
  obtain ⟨hw, hh⟩ := tileOutputRect_pos hg.valid h0 h1
  obtain ⟨hsw, hsh⟩ := tileSourceRect_pos hg.valid h0 h1
  have hle : (g.tileOutputRect index).w ≤ 256 ∧ (g.tileOutputRect index).h ≤ 256 := by
    have ht := hg.tile_le
    rw [tileOutputRect_eq hg.valid h0 h1]
    dsimp only
    omega
  have hcols := @fits_blocks_iff (g.tileSourceRect index).x readRect.x _ _ hsw hw hle.1
  have hrows := @fits_blocks_iff (g.tileSourceRect index).y readRect.y _ _ hsh hh hle.2
  have hsrc := fits_tileSourceRect_iff hg index
  simp only [h0, h1, true_implies] at hsrc
  dsimp only
  rw [← hcols, ← hrows, ← hsrc]
  simp only [fits_gatherTile hg readRect _ h0 h1, mem_intRange, ← fits_sampleBox_iff]
  constructor
  · intro hall
    have hany := hall fun _ _ => ⟨0, 0, 0, 0⟩
    refine ⟨hany.1, fun x hx => ((hany.2 0 ⟨le_rfl, hh⟩).2 x hx).1, fun y hy => (hany.2 y hy).1, ?_⟩
    exact fun x y hx hy pixels => (((hall pixels).2 y hy).2 x hx).2
  · rintro ⟨htile, hx, hy, hsum⟩ pixels
    exact ⟨htile, fun y hyin => ⟨hy y hyin, fun x hxin => ⟨hx x hxin, hsum x y hxin hyin pixels⟩⟩⟩

/-! ### Pointers -/

/-- A message is carried out from inside a window: the point it lands on has to be a pixel. -/
lemma fits_handlePointer_iff {R σ : Type} [Field R] [LinearOrder R] [FloatOps R]
    (I : IInputInjector σ) (env : Surroundings) (p : PointerPipeline R σ) (m : Pointer) :
    (handlePointer I env p m).Fits ↔
      (p.enabled = true → m.flags &&& kPointerRelative = 0 →
        m.flags &&& kPointerWindowRelative ≠ 0 → ∀ window, env.windowBounds = some window →
          InInt (m.x.toInt + window.x) ∧ InInt (m.y.toInt + window.y)) := by
  unfold handlePointer
  dsimp only
  split_ifs with hen hrel
  · refine iff_of_true (fits_pure _) fun h => ?_
    have hoff : p.enabled = false := by simpa [PointerPipeline.count] using hen
    exact absurd (h.symm.trans hoff) (by decide)
  · exact iff_of_true (fits_pure _) fun _ h => absurd h hrel
  · have hon : p.enabled = true := by simpa [PointerPipeline.count] using hen
    rw [fits_bind]
    refine (and_iff_left ?_).trans ?_
    · cases (place env m).val with
      | none => exact fits_pure _
      | some c => exact fits_ite (fun _ => fits_pure _) fun _ => fits_pure _
    simp only [hon, not_not.mp hrel, true_implies]
    unfold place
    split_ifs with hwin
    · cases env.windowBounds with
      | none => simp [hwin]
      | some window => simp [hwin]
    · exact iff_of_true (fits_pure _) fun h => absurd h hwin

end Arith

/-! ### What the host is given -/

/-- What the host computes with: a request it serves, a tile, a dirty rectangle, a selection of
tiles, what the capture covers and what was read of it, and a pointer message. -/
structure HostWork where
  request : ViewportReq
  index : ℤ
  dirty : Recti
  selected : List UInt16
  bounds : Recti
  readRect : Recti
  env : Surroundings
  pointer : Pointer

namespace HostWork

variable {R σ : Type} [Field R] [LinearOrder R] [FloatOps R] (I : IInputInjector σ)
  (p : PointerPipeline R σ) (w : HostWork)

def geometry : ViewportGeometry := w.request.geometry

/-- Every operation stays in range, whatever is on the screen. -/
structure Fits : Prop where
  makeGeometry : (Arith.makeGeometry ⟨w.request.x.toInt, w.request.y.toInt, w.request.w.toInt,
    w.request.h.toInt⟩ w.request.outW.toNat w.request.outH.toNat w.request.tile.toNat).Fits
  tileOutputRect : (Arith.tileOutputRect w.geometry w.index).Fits
  tileSourceRect : (Arith.tileSourceRect w.geometry w.index).Fits
  tilesTouching : (Arith.tilesTouching w.geometry w.dirty).Fits
  readSelection : (Arith.selectionBox w.geometry w.bounds w.selected).Fits
  gatherTile : ∀ pixels, (Arith.gatherTile w.geometry w.readRect pixels w.index).Fits
  handle : (Arith.handlePointer I w.env p w.pointer).Fits

/-- The bounds under which there is no overflow. -/
structure InBounds : Prop where
  /-- The corner of what the tile is sampled from is a pixel. -/
  tileSourceRect : 0 ≤ w.index → w.index < w.geometry.tileCount →
    (w.geometry.tileSourceRect w.index).x ≤ 2147483647 ∧
      (w.geometry.tileSourceRect w.index).y ≤ 2147483647
  /-- The corner of the dirty rectangle and its far edge are pixels from the corner of the region,
  and its far edge is one on the desktop. -/
  tilesTouching : InInt (w.dirty.x - w.geometry.region.x) ∧
    InInt (w.dirty.y - w.geometry.region.y) ∧
    InInt (w.dirty.x + w.dirty.w) ∧ InInt (w.dirty.x + w.dirty.w - w.geometry.region.x) ∧
    InInt (w.dirty.y + w.dirty.h) ∧ InInt (w.dirty.y + w.dirty.h - w.geometry.region.y)
  /-- So are the far edges of what the selected tiles are sampled from, -/
  selected : ∀ t ∈ w.selected, (t.toNat : ℤ) < w.geometry.tileCount →
    (w.geometry.tileSourceRect t.toNat).x + (w.geometry.tileSourceRect t.toNat).w ≤ 2147483647 ∧
      (w.geometry.tileSourceRect t.toNat).y + (w.geometry.tileSourceRect t.toNat).h ≤ 2147483647
  /-- and those of what the capture covers, if anything is to be read at all. -/
  bounds : (∃ t ∈ w.selected, (t.toNat : ℤ) < w.geometry.tileCount) →
    InInt (w.bounds.x + w.bounds.w) ∧ InInt (w.bounds.y + w.bounds.h)
  /-- The tile ends on a pixel from where was read, and the pixels across it times its size on the
  surface are few enough; -/
  columns : 0 ≤ w.index → w.index < w.geometry.tileCount →
    let out := w.geometry.tileOutputRect w.index
    let src := w.geometry.tileSourceRect w.index
    src.x - w.readRect.x ≥ -2147483648 ∧ src.x - w.readRect.x + src.w ≤ 2147483647 ∧
      out.w * src.w ≤ 2147483647
  /-- and the same from top to bottom. -/
  rows : 0 ≤ w.index → w.index < w.geometry.tileCount →
    let out := w.geometry.tileOutputRect w.index
    let src := w.geometry.tileSourceRect w.index
    src.y - w.readRect.y ≥ -2147483648 ∧ src.y - w.readRect.y + src.h ≤ 2147483647 ∧
      out.h * src.h ≤ 2147483647
  /-- There is room for the sum over every block of the tile, were it all white. -/
  sums : 0 ≤ w.index → w.index < w.geometry.tileCount →
    let out := w.geometry.tileOutputRect w.index
    let src := w.geometry.tileSourceRect w.index
    ∀ x y, (0 ≤ x ∧ x < out.w) → (0 ≤ y ∧ y < out.h) →
      255 * (Arith.seen (Arith.blockOf src.y w.readRect.y y src.h out.h).1
          (Arith.blockOf src.y w.readRect.y y src.h out.h).2 w.readRect.h *
        Arith.seen (Arith.blockOf src.x w.readRect.x x src.w out.w).1
          (Arith.blockOf src.x w.readRect.x x src.w out.w).2 w.readRect.w) ≤ 2147483647
  /-- A pointer inside a window lands on a pixel. -/
  pointer : p.enabled = true → w.pointer.flags &&& kPointerRelative = 0 →
    w.pointer.flags &&& kPointerWindowRelative ≠ 0 → ∀ window, w.env.windowBounds = some window →
      InInt (w.pointer.x.toInt + window.x) ∧ InInt (w.pointer.y.toInt + window.y)

/-- **The arithmetic of the host does not overflow exactly within these bounds.** -/
theorem fits_iff_inBounds (h : w.request.starts = true) : w.Fits I p ↔ w.InBounds p := by
  have hg : Served w.geometry := served_of_starts h
  have hsource := Arith.fits_tileSourceRect_iff hg w.index
  have hnone (hout : ¬(0 ≤ w.index ∧ w.index < w.geometry.tileCount)) (pixels : ℤ → ℤ → Pixel) :
      (Arith.gatherTile w.geometry w.readRect pixels w.index).Fits := by
    unfold Arith.gatherTile
    rw [Arith.fits_bind, and_iff_right (Arith.fits_tileOutputRect hg w.index), Arith.fits_bind,
      and_iff_right (hsource.mpr fun h0 h1 => absurd ⟨h0, h1⟩ hout), Arith.val_tileOutputRect,
      Arith.tileOutputRect_of_not hout, if_pos (by decide)]
    exact Arith.fits_pure _
  constructor
  · rintro ⟨-, -, htile, htouch, hread, hgather, hhandle⟩
    have hsel := (Arith.fits_selectionBox_iff hg w.bounds w.selected).mp hread
    have htask := fun h0 h1 => (Arith.fits_gatherTile_iff hg w.readRect h0 h1).mp hgather
    exact ⟨hsource.mp htile, (Arith.fits_tilesTouching_iff hg w.dirty).mp htouch, hsel.1, hsel.2,
      fun h0 h1 => (htask h0 h1).2.1, fun h0 h1 => (htask h0 h1).2.2.1,
      fun h0 h1 => (htask h0 h1).2.2.2,
      (Arith.fits_handlePointer_iff I w.env p w.pointer).mp hhandle⟩
  · rintro ⟨htile, htouch, hsel, hbounds, hcols, hrows, hsums, hpointer⟩
    refine ⟨Arith.fits_makeGeometry _ _ _ _, Arith.fits_tileOutputRect hg w.index,
      hsource.mpr htile, (Arith.fits_tilesTouching_iff hg w.dirty).mpr htouch,
      (Arith.fits_selectionBox_iff hg w.bounds w.selected).mpr ⟨hsel, hbounds⟩, ?_,
      (Arith.fits_handlePointer_iff I w.env p w.pointer).mpr hpointer⟩
    by_cases hin : 0 ≤ w.index ∧ w.index < w.geometry.tileCount
    · exact (Arith.fits_gatherTile_iff hg w.readRect hin.1 hin.2).mpr ⟨htile hin.1 hin.2,
        hcols hin.1 hin.2, hrows hin.1 hin.2, hsums hin.1 hin.2⟩
    · exact hnone hin

/-- One block of the desktop, and a pointer inside a window. -/
def oneBlock : HostWork where
  request := { w := 4, h := 4, fps := 30, format := .etc2Rgb8 }
  index := 0
  dirty := ⟨0, 0, 4, 4⟩
  selected := [0]
  bounds := ⟨0, 0, 1920, 1080⟩
  readRect := ⟨0, 0, 4, 4⟩
  env := { windowBounds := some ⟨1, 0, 100, 100⟩ }
  pointer := { x := 10, y := 20, flags := kPointerWindowRelative }

/-- A pipeline that is on. -/
def enabledPipeline : PointerPipeline ℚ Unit := { PointerPipeline.init () with enabled := true }

theorem fits_oneBlock : oneBlock.Fits PointerPipeline.willing enabledPipeline := by
  refine (fits_iff_inBounds PointerPipeline.willing enabledPipeline oneBlock (by decide)).mpr ?_
  refine ⟨by decide, by decide, fun t ht _ => ?_, fun _ => by decide, by decide, by decide,
    fun _ _ x y _ _ => ?_, ?_⟩
  · obtain rfl := List.mem_singleton.mp ht
    decide
  · exact (Nat.mul_le_mul_left 255
      (Nat.mul_le_mul (Arith.seen_le _ _ 4) (Arith.seen_le _ _ 4))).trans (by decide)
  · intro _ _ _ window h
    obtain rfl := Option.some.inj h
    decide

/-- The same with the pointer as far right as a message can say. -/
theorem not_fits_farRight : ¬∀ w : HostWork, w.request.starts = true →
    w.Fits PointerPipeline.willing enabledPipeline := by
  intro h
  have hhandle := (h { oneBlock with
    pointer := { x := 2147483647, flags := kPointerWindowRelative } } (by decide)).handle
  revert hhandle
  decide

end HostWork

end Digitiz
