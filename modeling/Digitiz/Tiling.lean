import Digitiz.Geometry
import Digitiz.Rescale

/-!
How a frame is cut into tiles, and how many bytes each one takes.

Both ends compute this from the same numbers. Three coordinate spaces are involved: the desktop,
the encoded surface, which is a region of the desktop scaled, and the grid of tiles. Every
division here has a positive divisor and a dividend that is not negative, so rounding down is
what the source does too.
-/

namespace Digitiz

open Rescale

def kEtc2BlockSize : ℤ := 4
def kEtc2BlockBytes : ℕ := 8

/-- Bytes an image takes once encoded; fixed by the dimensions alone. -/
def etc2Size (w h : ℤ) : ℕ :=
  if w ≤ 0 ∨ h ≤ 0 then 0
  else (w / kEtc2BlockSize).toNat * (h / kEtc2BlockSize).toNat * kEtc2BlockBytes

@[ext] structure ViewportGeometry where
  region : Recti := {}
  outW : ℤ := 0
  outH : ℤ := 0
  tile : ℤ := 0
  deriving DecidableEq, Repr

namespace ViewportGeometry

variable (g : ViewportGeometry)

def cols : ℤ := if g.tile > 0 then (g.outW + g.tile - 1) / g.tile else 0
def rows : ℤ := if g.tile > 0 then (g.outH + g.tile - 1) / g.tile else 0
def tileCount : ℤ := g.cols * g.rows

def valid : Bool :=
  g.region.w > 0 ∧ g.region.h > 0 ∧ g.outW > 0 ∧ g.outH > 0 ∧ g.tile > 0 ∧
    g.outW % 4 = 0 ∧ g.outH % 4 = 0 ∧ g.tile % 4 = 0

/-- Where a tile lands on the encoded surface. The right and bottom edges are short when the
surface is not a whole number of tiles across. -/
def tileOutputRect (index : ℤ) : Recti :=
  if g.tile ≤ 0 ∨ index < 0 ∨ index ≥ g.tileCount then {}
  else
    let col := index % g.cols
    let row := index / g.cols
    let x := col * g.tile
    let y := row * g.tile
    ⟨x, y, min g.tile (g.outW - x), min g.tile (g.outH - y)⟩

/-- The desktop pixels a tile is sampled from. Mapped by edges, so neighbouring tiles share one
exactly and no desktop column falls between two of them. -/
def tileSourceRect (index : ℤ) : Recti :=
  let out := g.tileOutputRect index
  if out.w ≤ 0 ∨ out.h ≤ 0 then {}
  else
    let x0 := down out.x g.outW g.region.w
    let x1 := down (out.x + out.w) g.outW g.region.w
    let y0 := down out.y g.outH g.region.h
    let y1 := down (out.y + out.h) g.outH g.region.h
    ⟨g.region.x + x0, g.region.y + y0, max (x1 - x0) 1, max (y1 - y0) 1⟩

/-- Which tiles a desktop rectangle touches, as a rectangle in tile coordinates. Rounded
outwards: a tile is dirty if any part of it is. -/
def tilesTouching (desktop : Recti) : Recti :=
  if !g.valid then {}
  else
    let rx0 := max (desktop.x - g.region.x) 0
    let ry0 := max (desktop.y - g.region.y) 0
    let rx1 := min (desktop.x + desktop.w - g.region.x) g.region.w
    let ry1 := min (desktop.y + desktop.h - g.region.y) g.region.h
    if rx1 ≤ rx0 ∨ ry1 ≤ ry0 then {}
    else
      let ox0 := down rx0 g.region.w g.outW
      let oy0 := down ry0 g.region.h g.outH
      let ox1 := up rx1 g.region.w g.outW
      let oy1 := up ry1 g.region.h g.outH
      let tx0 := clamp (ox0 / g.tile) 0 (g.cols - 1)
      let ty0 := clamp (oy0 / g.tile) 0 (g.rows - 1)
      let tx1 := clamp ((ox1 + g.tile - 1) / g.tile) 1 g.cols
      let ty1 := clamp ((oy1 + g.tile - 1) / g.tile) 1 g.rows
      ⟨tx0, ty0, max (tx1 - tx0) 1, max (ty1 - ty0) 1⟩

end ViewportGeometry

def roundUpTo (v multiple : ℤ) : ℤ :=
  if multiple ≤ 0 then v else (v + multiple - 1) / multiple * multiple

/-- A geometry from what the guest asked for; asking for nothing means the region at its own
size. It is not valid if the request cannot be served at all. -/
def makeGeometry (region : Recti) (outW outH tile : ℤ) : ViewportGeometry :=
  if region.w ≤ 0 ∨ region.h ≤ 0 then {}
  else
    let outW := if outW ≤ 0 then region.w else outW
    let outH := if outH ≤ 0 then region.h else outH
    let tile := if tile ≤ 0 then 64 else tile
    { region := region
      outW := roundUpTo (clamp outW 4 8192) 4
      outH := roundUpTo (clamp outH 4 8192) 4
      tile := roundUpTo (clamp tile 8 256) 4 }

namespace ViewportGeometry

/-! ### Geometries that can be served -/

variable {g : ViewportGeometry}

lemma valid_iff : g.valid = true ↔
    g.region.w > 0 ∧ g.region.h > 0 ∧ g.outW > 0 ∧ g.outH > 0 ∧ g.tile > 0 ∧
      g.outW % 4 = 0 ∧ g.outH % 4 = 0 ∧ g.tile % 4 = 0 := decide_eq_true_iff

/-- Rounding a value held between two multiples of four up to one. -/
lemma roundUpTo_clamp (v : ℤ) {lo hi : ℤ} (hlo : lo % 4 = 0) (hhi : hi % 4 = 0) (h : lo ≤ hi) :
    lo ≤ roundUpTo (clamp v lo hi) 4 ∧ roundUpTo (clamp v lo hi) 4 ≤ hi ∧
      roundUpTo (clamp v lo hi) 4 % 4 = 0 := by
  simp only [roundUpTo, clamp, show ¬(4 : ℤ) ≤ 0 by decide, if_false]
  omega

/-- What `makeGeometry` gives is valid as soon as the region is not empty, and bounded. -/
lemma makeGeometry_spec (region : Recti) (outW outH tile : ℤ) (hw : 0 < region.w)
    (hh : 0 < region.h) :
    (makeGeometry region outW outH tile).valid = true ∧
      (makeGeometry region outW outH tile).outW ≤ 8192 ∧
      (makeGeometry region outW outH tile).outH ≤ 8192 ∧
      8 ≤ (makeGeometry region outW outH tile).tile ∧
      (makeGeometry region outW outH tile).tile ≤ 256 := by
  have hr : ¬(region.w ≤ 0 ∨ region.h ≤ 0) := by omega
  simp only [valid_iff, makeGeometry, if_neg hr]
  have h1 := roundUpTo_clamp (if outW ≤ 0 then region.w else outW)
    (show (4 : ℤ) % 4 = 0 by omega) (show (8192 : ℤ) % 4 = 0 by omega) (by omega)
  have h2 := roundUpTo_clamp (if outH ≤ 0 then region.h else outH)
    (show (4 : ℤ) % 4 = 0 by omega) (show (8192 : ℤ) % 4 = 0 by omega) (by omega)
  have h3 := roundUpTo_clamp (if tile ≤ 0 then 64 else tile)
    (show (8 : ℤ) % 4 = 0 by omega) (show (256 : ℤ) % 4 = 0 by omega) (by omega)
  omega

/-- An empty region cannot be served. -/
lemma makeGeometry_invalid (region : Recti) (outW outH tile : ℤ)
    (h : region.w ≤ 0 ∨ region.h ≤ 0) : (makeGeometry region outW outH tile).valid = false := by
  rw [makeGeometry, if_pos h]
  rfl

/-- A tile is known by its column and its row. -/
lemma index_ext {i j : ℤ} (hc : i % g.cols = j % g.cols) (hr : i / g.cols = j / g.cols) :
    i = j := by
  have hi := Int.emod_add_mul_ediv i g.cols
  have hj := Int.emod_add_mul_ediv j g.cols
  rw [hc, hr] at hi
  omega

section valid

variable (hv : g.valid = true)
include hv

lemma cols_eq : g.cols = (g.outW + g.tile - 1) / g.tile := if_pos (valid_iff.mp hv).2.2.2.2.1
lemma rows_eq : g.rows = (g.outH + g.tile - 1) / g.tile := if_pos (valid_iff.mp hv).2.2.2.2.1

lemma lt_cols_iff (c : ℤ) : c < g.cols ↔ c * g.tile < g.outW := by
  rw [cols_eq hv, lt_ceilDiv_iff (valid_iff.mp hv).2.2.2.2.1]

lemma lt_rows_iff (r : ℤ) : r < g.rows ↔ r * g.tile < g.outH := by
  rw [rows_eq hv, lt_ceilDiv_iff (valid_iff.mp hv).2.2.2.2.1]

lemma cols_pos : 0 < g.cols := (lt_cols_iff hv 0).mpr (by simpa using (valid_iff.mp hv).2.2.1)
lemma rows_pos : 0 < g.rows := (lt_rows_iff hv 0).mpr (by simpa using (valid_iff.mp hv).2.2.2.1)

/-- A tile of the grid has a column and a row. -/
lemma index_spec {index : ℤ} (h0 : 0 ≤ index) (h1 : index < g.tileCount) :
    (0 ≤ index % g.cols ∧ index % g.cols * g.tile < g.outW) ∧
      (0 ≤ index / g.cols ∧ index / g.cols * g.tile < g.outH) := by
  have hc := cols_pos hv
  refine ⟨⟨Int.emod_nonneg _ hc.ne', ?_⟩, Int.ediv_nonneg h0 hc.le, ?_⟩
  · exact (lt_cols_iff hv _).mp (Int.emod_lt_of_pos _ hc)
  · refine (lt_rows_iff hv _).mp ((Int.ediv_lt_iff_lt_mul hc).mpr ?_)
    rwa [mul_comm]

variable {index : ℤ} (h0 : 0 ≤ index) (h1 : index < g.tileCount)
include h0 h1

lemma tileOutputRect_eq : g.tileOutputRect index =
    ⟨index % g.cols * g.tile, index / g.cols * g.tile,
      min g.tile (g.outW - index % g.cols * g.tile),
      min g.tile (g.outH - index / g.cols * g.tile)⟩ := by
  have ht := (valid_iff.mp hv).2.2.2.2.1
  exact if_neg (by omega)

lemma tileOutputRect_pos : 0 < (g.tileOutputRect index).w ∧ 0 < (g.tileOutputRect index).h := by
  have ht := (valid_iff.mp hv).2.2.2.2.1
  obtain ⟨⟨-, hc⟩, -, hr⟩ := index_spec hv h0 h1
  rw [tileOutputRect_eq hv h0 h1]
  dsimp only
  omega

lemma tileSourceRect_eq : g.tileSourceRect index =
    let out := g.tileOutputRect index
    ⟨g.region.x + down out.x g.outW g.region.w, g.region.y + down out.y g.outH g.region.h,
      span out.x (out.x + out.w) g.outW g.region.w,
      span out.y (out.y + out.h) g.outH g.region.h⟩ := by
  have hpos := tileOutputRect_pos hv h0 h1
  exact if_neg (by omega)

end valid

end ViewportGeometry

end Digitiz
