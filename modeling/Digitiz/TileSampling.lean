import Mathlib.Data.List.Basic
import Digitiz.Etc2

/-!
Sampling a tile from the desktop, and what a dirty rectangle can change.

A tile is averaged down from the pixels of its source rectangle, as far as they were read. What
was read is a box that covers the tile's source rectangle inside the bounds of the capture, and
the loops count from the corner of that box. Seen from the desktop the corner does not matter,
and every pixel looked at lies in the source rectangle; a rectangle of the desktop that touches
none of the tile's cells contains no such pixel.
-/

namespace Digitiz

open Rescale

structure Pixel where
  b : UInt8
  g : UInt8
  r : UInt8
  a : UInt8
  deriving DecidableEq, Repr

/-- A desktop image. -/
abbrev Image := ℤ → ℤ → Pixel

/-- The integers from `a` up to `b`. -/
def intRange (a b : ℤ) : List ℤ := (List.range (b - a).toNat).map fun i : ℕ => a + i

@[simp] lemma mem_intRange {a b x : ℤ} : x ∈ intRange a b ↔ a ≤ x ∧ x < b := by
  simp only [intRange, List.mem_map, List.mem_range]
  constructor
  · rintro ⟨i, hi, rfl⟩
    omega
  · rintro ⟨h1, h2⟩
    exact ⟨(x - a).toNat, by omega, by omega⟩

lemma intRange_sub (a b k : ℤ) : intRange (a - k) (b - k) = (intRange a b).map (· - k) := by
  simp only [intRange, List.map_map, show b - k - (a - k) = b - a by ring]
  exact List.map_congr_left fun i _ => by simp only [Function.comp_apply]; ring

/-- The running sums of a sample. -/
structure Sample where
  b : ℕ := 0
  g : ℕ := 0
  r : ℕ := 0
  n : ℕ := 0
  deriving DecidableEq, Repr

def Sample.add (s : Sample) (p : Pixel) : Sample :=
  ⟨s.b + p.b.toNat, s.g + p.g.toNat, s.r + p.r.toNat, s.n + 1⟩

/-- The average, blue first; nothing sampled is black. -/
def Sample.bytes (s : Sample) : List UInt8 :=
  let n := if s.n = 0 then 1 else s.n
  [UInt8.ofNat (s.b / n), UInt8.ofNat (s.g / n), UInt8.ofNat (s.r / n), 255]

/-- The sum over a box of the pixels that were read. -/
def sampleBox (pixels : ℤ → ℤ → Pixel) (region : Recti) (sx0 sx1 sy0 sy1 : ℤ) : Sample :=
  (intRange sy0 sy1).foldl (fun s sy =>
    if sy < 0 ∨ sy ≥ region.h then s
    else (intRange sx0 sx1).foldl (fun s sx =>
      if sx < 0 ∨ sx ≥ region.w then s else s.add (pixels sx sy)) s) {}

/-- What the capture hands over for a box: its pixels, counted from its corner. -/
def readBox (image : Image) (box : Recti) : ℤ → ℤ → Pixel :=
  fun sx sy => image (box.x + sx) (box.y + sy)

/-- The pixels of one tile, sampled by area from what was read. Offsets are into the box that
was read rather than the whole region. -/
def gatherTile (g : ViewportGeometry) (readRect : Recti) (pixels : ℤ → ℤ → Pixel) (index : ℤ) :
    Option (ℤ × ℤ × List UInt8) :=
  let out := g.tileOutputRect index
  let src := g.tileSourceRect index
  if out.w ≤ 0 ∨ out.h ≤ 0 then none
  else
    some (out.w, out.h, (intRange 0 out.h).flatMap fun y =>
      let sy0 := src.y - readRect.y + y * src.h / out.h
      let sy1 := max (sy0 + 1) (src.y - readRect.y + (y + 1) * src.h / out.h)
      (intRange 0 out.w).flatMap fun x =>
        let sx0 := src.x - readRect.x + x * src.w / out.w
        let sx1 := max (sx0 + 1) (src.x - readRect.x + (x + 1) * src.w / out.w)
        (sampleBox pixels readRect sx0 sx1 sy0 sy1).bytes)

/-- A tile of the desktop as it goes into a batch. -/
def encodeTile (g : ViewportGeometry) (readRect : Recti) (image : Image) (index : ℤ) :
    Option (List UInt8) :=
  (gatherTile g readRect (readBox image readRect) index).bind fun (w, h, tilePixels) =>
    etc2Encode tilePixels w h (w * 4)

/-! ### Seen from the desktop -/

/-- The sum over a box of the desktop, as far as it was read. -/
def desktopBox (image : Image) (readRect : Recti) (x0 x1 y0 y1 : ℤ) : Sample :=
  (intRange y0 y1).foldl (fun s y => (intRange x0 x1).foldl (fun s x =>
    if readRect.contains x y then s.add (image x y) else s) s) {}

lemma sampleBox_readBox (image : Image) (r : Recti) (x0 x1 y0 y1 : ℤ) :
    sampleBox (readBox image r) r (x0 - r.x) (x1 - r.x) (y0 - r.y) (y1 - r.y)
      = desktopBox image r x0 x1 y0 y1 := by
  unfold sampleBox desktopBox
  rw [intRange_sub y0, List.foldl_map]
  refine List.foldl_ext _ _ _ fun s y _ => ?_
  rw [intRange_sub x0, List.foldl_map]
  split_ifs with hy
  · -- a row outside the box adds nothing
    refine (List.foldl_fixed' (fun x => if_neg fun h => ?_) _).symm
    rw [Recti.contains_iff] at h
    omega
  · refine List.foldl_ext _ _ _ fun s x _ => ?_
    have hc : r.contains x y = true ↔ ¬(x - r.x < 0 ∨ x - r.x ≥ r.w) := by
      rw [Recti.contains_iff]
      omega
    rw [readBox, add_sub_cancel, add_sub_cancel]
    by_cases hx : x - r.x < 0 ∨ x - r.x ≥ r.w
    · rw [if_pos hx, if_neg fun h => hc.mp h hx]
    · rw [if_neg hx, if_pos (hc.mpr hx)]

/-- Two images and two boxes that look the same on a box of the desktop sum to the same. -/
lemma desktopBox_congr {image image' : Image} {r r' : Recti} {x0 x1 y0 y1 : ℤ}
    (h : ∀ x y, x0 ≤ x ∧ x < x1 → y0 ≤ y ∧ y < y1 → r.contains x y = r'.contains x y ∧
      (r.contains x y = true → image x y = image' x y)) :
    desktopBox image r x0 x1 y0 y1 = desktopBox image' r' x0 x1 y0 y1 := by
  unfold desktopBox
  refine List.foldl_ext _ _ _ fun s y hy => List.foldl_ext _ _ _ fun s x hx => ?_
  obtain ⟨hc, hi⟩ := h x y (mem_intRange.mp hx) (mem_intRange.mp hy)
  rw [← hc]
  split_ifs with hr
  · rw [hi hr]
  · rfl

/-- The part of a source extent of `n` cells that goes into cell `i` of `w` stays inside it. -/
lemma share_bounds {i w n : ℤ} (hi : 0 ≤ i) (hw : i < w) (hn : 0 < n) :
    0 ≤ i * n / w ∧ max (i * n / w + 1) ((i + 1) * n / w) ≤ n := by
  have hw0 : 0 < w := by omega
  refine ⟨Int.ediv_nonneg (mul_nonneg hi hn.le) hw0.le, max_le ?_ ?_⟩
  · exact Int.add_one_le_iff.mpr ((Int.ediv_lt_iff_lt_mul hw0).mpr (by nlinarith))
  · exact Int.ediv_le_of_le_mul hw0 (by nlinarith)

/-- The loops count from the corner of the box; what they sum lies on the desktop. -/
lemma sampleBox_offset (image : Image) (r : Recti) (a u v c t z : ℤ) :
    sampleBox (readBox image r) r (a - r.x + u) (max (a - r.x + u + 1) (a - r.x + v))
        (c - r.y + t) (max (c - r.y + t + 1) (c - r.y + z))
      = desktopBox image r (a + u) (a + max (u + 1) v) (c + t) (c + max (t + 1) z) := by
  rw [← sampleBox_readBox]
  congr 1 <;> omega

/-- **Only the source rectangle is looked at.** If two images, each read through its own box,
look the same on the tile's source rectangle, the tile comes out the same. -/
theorem gatherTile_congr (g : ViewportGeometry) {image image' : Image} {r r' : Recti} {index : ℤ}
    (hr : ∀ x y, (g.tileSourceRect index).contains x y = true → r.contains x y = r'.contains x y)
    (hi : ∀ x y, (g.tileSourceRect index).contains x y = true → r.contains x y = true →
      image x y = image' x y) :
    gatherTile g r (readBox image r) index = gatherTile g r' (readBox image' r') index := by
  unfold gatherTile
  dsimp only
  split_ifs with hout
  · rfl
  · have hw : 0 < (g.tileSourceRect index).w ∧ 0 < (g.tileSourceRect index).h := by
      rw [ViewportGeometry.tileSourceRect, if_neg hout]
      exact ⟨by dsimp only; omega, by dsimp only; omega⟩
    generalize g.tileSourceRect index = src at *
    generalize g.tileOutputRect index = out at *
    congr 3
    refine List.flatMap_congr fun y hy => List.flatMap_congr fun x hx => ?_
    rw [sampleBox_offset, sampleBox_offset]
    obtain ⟨hx0, hx1⟩ := mem_intRange.mp hx
    obtain ⟨hy0, hy1⟩ := mem_intRange.mp hy
    have hsx := share_bounds hx0 hx1 hw.1
    have hsy := share_bounds hy0 hy1 hw.2
    refine congrArg Sample.bytes (desktopBox_congr fun px py hpx hpy => ?_)
    have hin : src.contains px py = true := by
      rw [Recti.contains_iff]
      omega
    exact ⟨hr px py hin, hi px py hin⟩

/-! ### What a rectangle touches -/

namespace ViewportGeometry

variable {g : ViewportGeometry}

/-- One axis of `tilesTouching`: a cell `p` of the region that column `c` is drawn from, lying
between two edges, leaves something after clipping and marks the column. -/
lemma touching_axis {t n m c p d e : ℤ} (ht : 0 < t) (hn : 0 < n) (hm : 0 < m) (hc : 0 ≤ c)
    (hcn : c * t < n) (h0 : down (c * t) n m ≤ p)
    (h1 : p < down (c * t) n m + span (c * t) (c * t + min t (n - c * t)) n m)
    (hd : d ≤ p) (he : p < e) :
    max d 0 < min e m ∧
      clamp (down (max d 0) m n / t) 0 ((n + t - 1) / t - 1) ≤ c ∧
      c < clamp ((up (min e m) m n + t - 1) / t) 1 ((n + t - 1) / t) := by
  have hend : c * t < c * t + min t (n - c * t) := by omega
  have hp0 : 0 ≤ p := (down_nonneg hn (mul_nonneg hc ht.le) hm.le).trans h0
  have hpm : p < m := block_lt hn hm hend (by omega) h1
  have hcols : c < (n + t - 1) / t := (lt_ceilDiv_iff ht).mpr hcn
  have hlow : down (max d 0) m n / t < c + 1 := by
    rw [Int.ediv_lt_iff_lt_mul ht, add_mul, one_mul]
    have h2 := down_lt_of_mem hn hm hend h1
    have h3 : down (max d 0) m n ≤ down p m n := down_mono hm hn.le (by omega)
    omega
  have hhigh : c < (up (min e m) m n + t - 1) / t := by
    rw [lt_ceilDiv_iff ht]
    have h3 : up (p + 1) m n ≤ up (min e m) m n := up_mono hm hn.le (by omega)
    exact (lt_up_of_mem hn hm h0).trans_le h3
  unfold clamp
  omega

/-- **Marking is sound.** A rectangle that contains a pixel a tile is drawn from touches the
tile. -/
theorem tilesTouching_of_mem (hv : g.valid = true) {d : Recti} {index px py : ℤ}
    (h0 : 0 ≤ index) (h1 : index < g.tileCount)
    (hs : (g.tileSourceRect index).contains px py = true) (hd : d.contains px py = true) :
    (g.tilesTouching d).contains (index % g.cols) (index / g.cols) = true := by
  obtain ⟨hw, hh, how, hoh, ht, -⟩ := valid_iff.mp hv
  obtain ⟨⟨hc0, hcn⟩, hr0, hrn⟩ := index_spec hv h0 h1
  rw [tileSourceRect_eq hv h0 h1, tileOutputRect_eq hv h0 h1, Recti.contains_iff] at hs
  dsimp only at hs
  rw [Recti.contains_iff] at hd
  obtain ⟨⟨hsx0, hsx1⟩, hsy0, hsy1⟩ := hs
  obtain ⟨⟨hdx0, hdx1⟩, hdy0, hdy1⟩ := hd
  -- both axes, with the pixel counted from the corner of the region
  have hax := touching_axis ht how hw hc0 hcn (le_sub_left_of_add_le hsx0)
    (by omega) (sub_le_sub_right hdx0 g.region.x) (sub_lt_sub_right hdx1 g.region.x)
  have hay := touching_axis ht hoh hh hr0 hrn (le_sub_left_of_add_le hsy0)
    (by omega) (sub_le_sub_right hdy0 g.region.y) (sub_lt_sub_right hdy1 g.region.y)
  rw [← cols_eq hv] at hax
  rw [← rows_eq hv] at hay
  unfold tilesTouching
  rw [if_neg (by simp [hv])]
  dsimp only
  rw [if_neg (by omega), Recti.contains_iff]
  dsimp only
  omega

end ViewportGeometry

/-! ### Dirty tracking -/

/-- What is read for a tile: its source rectangle inside the bounds of the capture, whatever else
is read with it. -/
structure TileRead (g : ViewportGeometry) (bounds : Recti) (index : ℤ) (r : Recti) : Prop where
  covers : ∀ x y, (g.tileSourceRect index).contains x y = true → bounds.contains x y = true →
    r.contains x y = true
  inside : ∀ x y, (g.tileSourceRect index).contains x y = true → r.contains x y = true →
    bounds.contains x y = true

/-- Two boxes read for a tile show the same of it. -/
lemma TileRead.contains_eq {g : ViewportGeometry} {bounds r r' : Recti} {index : ℤ}
    (hr : TileRead g bounds index r) (hr' : TileRead g bounds index r') (x y : ℤ)
    (hs : (g.tileSourceRect index).contains x y = true) : r.contains x y = r'.contains x y := by
  rw [Bool.eq_iff_iff]
  exact ⟨fun h => hr'.covers x y hs (hr.inside x y hs h),
    fun h => hr.covers x y hs (hr'.inside x y hs h)⟩

/-- Outside the rectangles the images agree, and none of the rectangles reaches the tile. -/
lemma encodeTile_congr {g : ViewportGeometry} (hv : g.valid = true) {dirty : List Recti}
    {image image' : Image} {r r' : Recti} {index : ℤ}
    (hagree : ∀ x y, (∀ d ∈ dirty, d.contains x y = false) → image x y = image' x y)
    (hclean : ∀ d ∈ dirty,
      (g.tilesTouching d).contains (index % g.cols) (index / g.cols) = false)
    (hr : ∀ x y, (g.tileSourceRect index).contains x y = true →
      r.contains x y = r'.contains x y) :
    encodeTile g r image index = encodeTile g r' image' index := by
  unfold encodeTile
  by_cases hin : 0 ≤ index ∧ index < g.tileCount
  · refine congrArg (Option.bind · _) (gatherTile_congr g hr fun x y hs _ => ?_)
    refine hagree x y fun d hd => ?_
    rw [← Bool.not_eq_true]
    intro hc
    have ht := ViewportGeometry.tilesTouching_of_mem hv hin.1 hin.2 hs hc
    rw [hclean d hd] at ht
    contradiction
  · have hout : g.tileOutputRect index = {} := if_pos (by omega)
    simp [gatherTile, hout]

/-- **A tile that is not marked has not changed.** If two images agree outside some rectangles
and a tile is touched by none of them, the tile comes out as the same bytes: through any one
box, and through any two that cover what the capture sees of it. -/
theorem encodeTile_of_not_touched {g : ViewportGeometry} (hv : g.valid = true)
    {dirty : List Recti} {image image' : Image} {index : ℤ}
    (hagree : ∀ x y, (∀ d ∈ dirty, d.contains x y = false) → image x y = image' x y)
    (hclean : ∀ d ∈ dirty,
      (g.tilesTouching d).contains (index % g.cols) (index / g.cols) = false) :
    (∀ r, encodeTile g r image index = encodeTile g r image' index) ∧
      ∀ bounds r r', TileRead g bounds index r → TileRead g bounds index r' →
        encodeTile g r image index = encodeTile g r' image' index :=
  ⟨fun _ => encodeTile_congr hv hagree hclean fun _ _ _ => rfl,
    fun _ _ _ hr hr' => encodeTile_congr hv hagree hclean (hr.contains_eq hr')⟩

/-- Two tiles side by side, at twice the size of the desktop. -/
def sideBySide : ViewportGeometry := makeGeometry ⟨-4, 2, 8, 4⟩ 16 8 8

/-- A pixel changes under the left one, and the right one is read through two different boxes. -/
theorem sideBySide_right_unchanged :
    encodeTile sideBySide ⟨0, 0, 20, 20⟩ (fun _ _ => ⟨9, 8, 7, 0⟩) 1
      = encodeTile sideBySide ⟨-4, 2, 8, 4⟩
        (fun x y => if x = -4 ∧ y = 3 then ⟨0, 0, 0, 0⟩ else ⟨9, 8, 7, 0⟩) 1 := by
  have hsrc : sideBySide.tileSourceRect 1 = ⟨0, 2, 4, 4⟩ := by decide
  have hread : TileRead sideBySide ⟨-4, 0, 24, 20⟩ 1 ⟨0, 0, 20, 20⟩ ∧
      TileRead sideBySide ⟨-4, 0, 24, 20⟩ 1 ⟨-4, 2, 8, 4⟩ := by
    refine ⟨⟨?_, ?_⟩, ?_, ?_⟩ <;> intro x y <;> simp only [hsrc, Recti.contains_iff] <;> omega
  refine (@encodeTile_of_not_touched _ (by decide) [⟨-4, 3, 1, 1⟩] _ _ _ (fun x y h => ?_)
    (by decide)).2 _ _ _ hread.1 hread.2
  have hxy := h _ List.mem_cons_self
  rw [if_neg]
  rintro ⟨rfl, rfl⟩
  exact absurd hxy (by decide)

end Digitiz
