import Mathlib.Algebra.Order.Floor.Ring
import Mathlib.Data.Rat.Floor
import Mathlib.Tactic.Linarith
import Mathlib.Tactic.Positivity
import Digitiz.Arith
import Digitiz.Messages
import Digitiz.ViewTransform

/-!
The part of the desktop the guest asks for.

What the view shows is snapped outwards to a grid and cut to the desktop; the size it is wanted at
follows the scale of the view, snapped as well and held between four and what the region has. The
last of these takes a region of at least four pixels each way, which a desktop seen by a sliver
does not leave.
-/

namespace Digitiz

open Arith

def kRegionSnap : ℤ := 32
def kSizeSnap : ℤ := 64
def kMaxEncoded : ℤ := 2048

variable {R : Type} [Field R]

/-! ### Snapping outwards -/

section snap

variable [LinearOrder R] [FloorRing R]

def floorTo (v : R) (step : ℤ) : Arith ℤ := do
  let q ← int ⌊v / step⌋
  int (q * step)

def ceilTo (v : R) (step : ℤ) : Arith ℤ := do
  let q ← int ⌈v / step⌉
  int (q * step)

lemma val_floorTo (v : R) : (floorTo v kRegionSnap).val = ⌊v / 32⌋ * 32 := by
  simp [floorTo, kRegionSnap]

lemma val_ceilTo (v : R) : (ceilTo v kRegionSnap).val = ⌈v / 32⌉ * 32 := by
  simp [ceilTo, kRegionSnap]

/-- Where the region begins on an axis: what is visible from `low` on, snapped and cut. -/
def regionLow (low : R) (origin : ℤ) : ℤ := max (⌊low / 32⌋ * 32) origin

/-- Where it ends. -/
def regionHigh (high : R) (origin size : ℤ) : ℤ := min (⌈high / 32⌉ * 32) (origin + size)

variable [IsStrictOrderedRing R]

/-- An edge is snapped down without overflow exactly if it is a 32-bit integer itself. -/
lemma fits_floorTo_iff (v : R) :
    (floorTo v kRegionSnap).Fits ↔ -2147483648 ≤ v ∧ v < 2147483648 := by
  have hlo : -67108864 ≤ ⌊v / 32⌋ ↔ -2147483648 ≤ v := by
    rw [Int.le_floor, le_div_iff₀ (by norm_num)]
    norm_num
  have hhi : ⌊v / 32⌋ < 67108864 ↔ v < 2147483648 := by
    rw [Int.floor_lt, div_lt_iff₀ (by norm_num)]
    norm_num
  rw [← hlo, ← hhi]
  unfold floorTo kRegionSnap
  simp only [fits_bind, fits_int, val_int, Int.cast_ofNat, InInt]
  omega

/-- Upwards it takes the room to the next step as well. -/
lemma fits_ceilTo_iff (v : R) :
    (ceilTo v kRegionSnap).Fits ↔ -2147483680 < v ∧ v ≤ 2147483616 := by
  have hlo : -67108865 < ⌈v / 32⌉ ↔ -2147483680 < v := by
    rw [Int.lt_ceil, lt_div_iff₀ (by norm_num)]
    norm_num
  have hhi : ⌈v / 32⌉ ≤ 67108863 ↔ v ≤ 2147483616 := by
    rw [Int.ceil_le, div_le_iff₀ (by norm_num)]
    norm_num
  rw [← hlo, ← hhi]
  unfold ceilTo kRegionSnap
  simp only [fits_bind, fits_int, val_int, Int.cast_ofNat, InInt]
  omega

lemma floor_snap_le {low c : R} {p : ℤ} (h : low ≤ c) (hc : c < p + 1) :
    ⌊low / 32⌋ * 32 ≤ p := by
  have hfloor : (⌊low / 32⌋ : R) * 32 ≤ low := by
    have := Int.floor_le (low / 32)
    rwa [le_div_iff₀ (by norm_num)] at this
  have hlt : ((⌊low / 32⌋ * 32 : ℤ) : R) < ((p + 1 : ℤ) : R) := by
    push_cast
    linarith
  exact Int.lt_add_one_iff.mp (Int.cast_lt.mp hlt)

lemma lt_ceil_snap {high c : R} {p : ℤ} (hc : (p : R) ≤ c) (h : c < high) :
    p < ⌈high / 32⌉ * 32 := by
  have hceil : high ≤ (⌈high / 32⌉ : R) * 32 := by
    have := Int.le_ceil (high / 32)
    rwa [div_le_iff₀ (by norm_num)] at this
  have hlt : (p : R) < ((⌈high / 32⌉ * 32 : ℤ) : R) := by
    push_cast
    linarith
  exact Int.cast_lt.mp hlt

end snap

/-! ### The size it is wanted at -/

section encoded

variable [FloatOps R]

/-- A value held between two bounds, which have to be in order. -/
def stdClamp (v lo hi : ℤ) : ℤ := if v < lo then lo else if hi < v then hi else v

lemma stdClamp_range {v lo hi : ℤ} (h : lo ≤ hi) :
    lo ≤ stdClamp v lo hi ∧ stdClamp v lo hi ≤ hi := by
  unfold stdClamp
  split_ifs <;> omega

/-- The size a side of the region is wanted at. -/
def encoded (ratio : R) (span : ℤ) : Arith ℤ := do
  let want ← int (FloatOps.lround ((span : R) * ratio))
  let a ← int (want + kSizeSnap / 2)
  let q ← int (a.tdiv kSizeSnap)
  let snapped ← int (q * kSizeSnap)
  pure (stdClamp (max snapped kSizeSnap) 4 (min span kMaxEncoded))

/-- Rounded towards zero to a step, a value stays in range. -/
lemma inInt_tdiv_mul {a : ℤ} (h : InInt a) : InInt (a.tdiv 64) ∧ InInt (a.tdiv 64 * 64) := by
  obtain ⟨hlo, hhi⟩ := h
  rcases le_total 0 a with h0 | h0
  · rw [Int.tdiv_eq_ediv_of_nonneg h0]
    unfold InInt
    omega
  · have hneg : a.tdiv 64 = -(-a / 64) := by
      rw [← Int.tdiv_eq_ediv_of_nonneg (by omega), Int.neg_tdiv, neg_neg]
    rw [hneg]
    unfold InInt
    omega

/-- A size is encoded without overflow exactly if the size that is wanted leaves room for half a
step. -/
lemma fits_encoded_iff (ratio : R) (span : ℤ) : (encoded ratio span).Fits ↔
    -2147483648 ≤ FloatOps.lround ((span : R) * ratio) ∧
      FloatOps.lround ((span : R) * ratio) ≤ 2147483615 := by
  have hiff {v : ℤ} : InInt v ∧ InInt (v + 32) ↔ -2147483648 ≤ v ∧ v ≤ 2147483615 := by
    unfold InInt
    omega
  rw [← hiff]
  unfold encoded kSizeSnap
  simp only [fits_bind, fits_int, val_int, fits_pure, and_true]
  exact and_congr_right fun _ => and_iff_left_of_imp inInt_tdiv_mul

lemma encoded_range (ratio : R) {span : ℤ} (h : 4 ≤ span) :
    4 ≤ (encoded ratio span).val ∧ (encoded ratio span).val ≤ min span 2048 :=
  stdClamp_range (by unfold kMaxEncoded; omega)

lemma toNat_ofInt_encoded (ratio : R) {span : ℤ} (h : 4 ≤ span) :
    ((UInt16.ofInt (encoded ratio span).val).toNat : ℤ) = (encoded ratio span).val := by
  have hrange := encoded_range ratio h
  rw [UInt16.ofInt, UInt16.toNat_ofNat']
  omega

end encoded

/-! ### The request -/

namespace ViewTransform

section request

variable [FloatOps R]

/-- The request for a region that is not empty. -/
def request (ratio : R) (x0 y0 x1 y1 : ℤ) : ViewportReq where
  x := Int32.ofInt x0
  y := Int32.ofInt y0
  w := Int32.ofInt (x1 - x0)
  h := Int32.ofInt (y1 - y0)
  outW := UInt16.ofInt (encoded ratio (x1 - x0)).val
  outH := UInt16.ofInt (encoded ratio (y1 - y0)).val
  fps := 30
  format := .etc2Rgb8
  tile := 64

lemma toInt_ofInt_of_inInt {v : ℤ} (h : InInt v) : (Int32.ofInt v).toInt = v := by
  obtain ⟨hlo, hhi⟩ := h
  exact Int32.toInt_ofInt_of_le (by omega) (by omega)

/-- The fields of a request for a region of four pixels each way. -/
lemma request_fields (ratio : R) {x0 y0 x1 y1 : ℤ} (hx : InInt x0 ∧ InInt (x1 - x0))
    (hy : InInt y0 ∧ InInt (y1 - y0)) (hw : 4 ≤ x1 - x0) (hh : 4 ≤ y1 - y0) :
    let r := request ratio x0 y0 x1 y1
    (r.x.toInt = x0 ∧ r.w.toInt = x1 - x0) ∧ (r.y.toInt = y0 ∧ r.h.toInt = y1 - y0) ∧
      (4 ≤ (r.outW.toNat : ℤ) ∧ (r.outW.toNat : ℤ) ≤ min (x1 - x0) 2048) ∧
      (4 ≤ (r.outH.toNat : ℤ) ∧ (r.outH.toNat : ℤ) ≤ min (y1 - y0) 2048) := by
  have hOutW := encoded_range ratio hw
  have hOutH := encoded_range ratio hh
  rw [← toNat_ofInt_encoded ratio hw] at hOutW
  rw [← toNat_ofInt_encoded ratio hh] at hOutH
  exact ⟨⟨toInt_ofInt_of_inInt hx.1, toInt_ofInt_of_inInt hx.2⟩,
    ⟨toInt_ofInt_of_inInt hy.1, toInt_ofInt_of_inInt hy.2⟩, hOutW, hOutH⟩

end request

variable [LinearOrder R] [FloorRing R] [FloatOps R]

/-- The request for what the view shows; the empty one, if there is nothing to ask for. -/
def wantedViewport (view : ViewTransform R) (width height : ℤ) (desktop : Recti) :
    Arith ViewportReq := do
  if desktop.w ≤ 0 ∨ desktop.h ≤ 0 ∨ width ≤ 0 ∨ height ≤ 0 then pure {}
  else
    let topLeft := view.toPc ⟨0, 0⟩
    let bottomRight := view.toPc ⟨(width : R), (height : R)⟩
    let left ← floorTo topLeft.x kRegionSnap
    let top ← floorTo topLeft.y kRegionSnap
    let right ← ceilTo bottomRight.x kRegionSnap
    let endX ← int (desktop.x + desktop.w)
    let bottom ← ceilTo bottomRight.y kRegionSnap
    let endY ← int (desktop.y + desktop.h)
    let x0 := max left desktop.x
    let y0 := max top desktop.y
    let x1 := min right endX
    let y1 := min bottom endY
    -- the view may be off the side of the desktop entirely
    if x1 ≤ x0 ∨ y1 ≤ y0 then pure {}
    else
      let w ← int (x1 - x0)
      let h ← int (y1 - y0)
      -- never more pixels than the region has: past that is an upscale done here for free
      let ratio := min view.scale 1
      let outW ← encoded ratio w
      let outH ← encoded ratio h
      pure {
        x := Int32.ofInt x0
        y := Int32.ofInt y0
        w := Int32.ofInt w
        h := Int32.ofInt h
        outW := UInt16.ofInt outW
        outH := UInt16.ofInt outH
        fps := 30
        format := .etc2Rgb8
        tile := 64 }

/-! ### What is asked of a request -/

/-- There is a desktop, and a surface to see it on. -/
def Shown (width height : ℤ) (desktop : Recti) : Prop :=
  (0 < desktop.w ∧ 0 < desktop.h) ∧ 0 < width ∧ 0 < height

section spec

variable (view : ViewTransform R) (width height : ℤ) (desktop : Recti)

/-- Some of the pixel is on the surface. -/
def Visible (px py : ℤ) : Prop :=
  ∃ s : Point R, (0 ≤ s.x ∧ s.x < width) ∧ (0 ≤ s.y ∧ s.y < height) ∧
    ((px : R) ≤ (view.toPc s).x ∧ (view.toPc s).x < px + 1) ∧
    ((py : R) ≤ (view.toPc s).y ∧ (view.toPc s).y < py + 1)

structure WellFormed (r : ViewportReq) : Prop where
  notEmpty : 0 < r.w.toInt ∧ 0 < r.h.toInt
  inside : (desktop.x ≤ r.x.toInt ∧ r.x.toInt + r.w.toInt ≤ desktop.x + desktop.w) ∧
    (desktop.y ≤ r.y.toInt ∧ r.y.toInt + r.h.toInt ≤ desktop.y + desktop.h)
  covers : ∀ px py, desktop.contains px py = true → Visible view width height px py →
    Recti.contains ⟨r.x.toInt, r.y.toInt, r.w.toInt, r.h.toInt⟩ px py = true
  /-- The bounds the encoded size is held between are in order. -/
  ordered : 4 ≤ min r.w.toInt kMaxEncoded ∧ 4 ≤ min r.h.toInt kMaxEncoded
  outW : 4 ≤ r.outW.toNat ∧ r.outW.toNat ≤ 2048 ∧ r.outW.toNat ≤ r.w.toInt
  outH : 4 ≤ r.outH.toNat ∧ r.outH.toNat ≤ 2048 ∧ r.outH.toNat ≤ r.h.toInt

/-- Where the region lies from left to right, and from top to bottom. -/
def left : ℤ := regionLow (view.toPc ⟨0, 0⟩).x desktop.x
def right : ℤ := regionHigh (view.toPc ⟨(width : R), (height : R)⟩).x desktop.x desktop.w
def top : ℤ := regionLow (view.toPc ⟨0, 0⟩).y desktop.y
def bottom : ℤ := regionHigh (view.toPc ⟨(width : R), (height : R)⟩).y desktop.y desktop.h

/-- The edges of an axis are 32-bit integers once they are snapped. -/
structure Snaps (low high : R) (origin size : ℤ) : Prop where
  low : -2147483648 ≤ low ∧ low < 2147483648
  high : -2147483680 < high ∧ high ≤ 2147483616
  far : InInt (origin + size)

/-- A side has the four pixels an encoded size takes, and is not the whole of the integers. -/
structure Encodes (ratio : R) (span : ℤ) : Prop where
  four : 4 ≤ span
  room : -2147483648 ≤ FloatOps.lround ((span : R) * ratio) ∧
    FloatOps.lround ((span : R) * ratio) ≤ 2147483615

/-- What it takes of a view and a desktop for the request to be well formed. -/
structure Askable : Prop where
  snapsX : Snaps (view.toPc ⟨0, 0⟩).x (view.toPc ⟨(width : R), (height : R)⟩).x desktop.x desktop.w
  snapsY : Snaps (view.toPc ⟨0, 0⟩).y (view.toPc ⟨(width : R), (height : R)⟩).y desktop.y desktop.h
  encodes : left view desktop < right view width height desktop →
    top view desktop < bottom view width height desktop →
    Encodes (min view.scale 1) (right view width height desktop - left view desktop) ∧
      Encodes (min view.scale 1) (bottom view width height desktop - top view desktop)

end spec

variable [IsStrictOrderedRing R] {view : ViewTransform R} {width height : ℤ} {desktop : Recti}

omit [FloorRing R] [FloatOps R] in
/-- A point of the surface shows a point between the corners of what is visible. -/
lemma toPc_between (h : 0 < view.scale) {s : Point R}
    (hx : 0 ≤ s.x ∧ s.x < width) (hy : 0 ≤ s.y ∧ s.y < height) :
    ((view.toPc ⟨0, 0⟩).x ≤ (view.toPc s).x ∧
      (view.toPc s).x < (view.toPc ⟨(width : R), (height : R)⟩).x) ∧
    ((view.toPc ⟨0, 0⟩).y ≤ (view.toPc s).y ∧
      (view.toPc s).y < (view.toPc ⟨(width : R), (height : R)⟩).y) := by
  have hmono {a b : R} (hab : a ≤ b) : a / view.scale ≤ b / view.scale :=
    div_le_div_of_nonneg_right hab h.le
  have hstrict {a b : R} (hab : a < b) : a / view.scale < b / view.scale :=
    div_lt_div_of_pos_right hab h
  exact ⟨⟨add_le_add_left (hmono hx.1) _, add_lt_add_left (hstrict hx.2) _⟩,
    add_le_add_left (hmono hy.1) _, add_lt_add_left (hstrict hy.2) _⟩

omit [IsStrictOrderedRing R] in
lemma val_wantedViewport (h : Shown width height desktop) :
    (wantedViewport view width height desktop).val =
      if right view width height desktop ≤ left view desktop ∨
          bottom view width height desktop ≤ top view desktop then {}
      else request (min view.scale 1) (left view desktop) (top view desktop)
        (right view width height desktop) (bottom view width height desktop) := by
  obtain ⟨⟨hw, hh⟩, hwidth, hheight⟩ := h
  unfold wantedViewport
  rw [if_neg (by omega)]
  simp only [val_bind, val_ite]
  simp only [val_int, val_floorTo, val_ceilTo]
  rfl

lemma fits_wantedViewport_iff (h : Shown width height desktop) :
    (wantedViewport view width height desktop).Fits ↔
      (Snaps (view.toPc ⟨0, 0⟩).x (view.toPc ⟨(width : R), (height : R)⟩).x desktop.x desktop.w ∧
        Snaps (view.toPc ⟨0, 0⟩).y (view.toPc ⟨(width : R), (height : R)⟩).y
          desktop.y desktop.h) ∧
      (left view desktop < right view width height desktop →
        top view desktop < bottom view width height desktop →
          InInt (right view width height desktop - left view desktop) ∧
          InInt (bottom view width height desktop - top view desktop) ∧
          (encoded (min view.scale 1) (right view width height desktop - left view desktop)).Fits ∧
          (encoded (min view.scale 1)
            (bottom view width height desktop - top view desktop)).Fits) := by
  obtain ⟨⟨hw, hh⟩, hwidth, hheight⟩ := h
  unfold wantedViewport
  rw [if_neg (by omega)]
  simp only [fits_bind, fits_int, fits_ite_iff, fits_pure, fits_floorTo_iff, fits_ceilTo_iff]
  simp only [val_int, val_floorTo, val_ceilTo, not_or, not_le, and_true, implies_true, true_and]
  constructor
  · rintro ⟨hl, ht, hr, hx, hb, hy, hsides⟩
    exact ⟨⟨⟨hl, hr, hx⟩, ht, hb, hy⟩, fun hlr htb => hsides ⟨hlr, htb⟩⟩
  · rintro ⟨⟨⟨hl, hr, hx⟩, ht, hb, hy⟩, hsides⟩
    exact ⟨hl, ht, hr, hx, hb, hy, fun h => hsides h.1 h.2⟩


/-! ### Well-formed requests -/

omit [FloatOps R] in
/-- A side of the region begins on a 32-bit integer and is as many pixels long. -/
lemma Snaps.inInt {low high : R} {origin size : ℤ} (h : Snaps low high origin size)
    (hs : InInt size) (hlt : regionLow low origin < regionHigh high origin size) :
    InInt (regionLow low origin) ∧ InInt (regionHigh high origin size - regionLow low origin) := by
  have hlow : -67108864 ≤ ⌊low / 32⌋ := by
    rw [Int.le_floor, le_div_iff₀ (by norm_num)]
    norm_num
    exact h.low.1
  have hfar := h.far
  unfold regionLow regionHigh InInt at *
  omega

omit [FloatOps R] in
/-- What is seen of the desktop lies in the region. -/
lemma visible_between (h : 0 < view.scale) {px py : ℤ} (hin : desktop.contains px py = true)
    (hvis : Visible view width height px py) :
    (left view desktop ≤ px ∧ px < right view width height desktop) ∧
      top view desktop ≤ py ∧ py < bottom view width height desktop := by
  obtain ⟨s, hx, hy, hpx, hpy⟩ := hvis
  obtain ⟨hbx, hby⟩ := toPc_between h hx hy
  have hin := Recti.contains_iff.mp hin
  have hl := floor_snap_le hbx.1 hpx.2
  have hr := lt_ceil_snap hpx.1 hbx.2
  have ht := floor_snap_le hby.1 hpy.2
  have hb := lt_ceil_snap hpy.1 hby.2
  unfold left right top bottom regionLow regionHigh
  omega

/-- A region of four pixels each way is asked for in a well-formed request. -/
lemma request_wellFormed (h : 0 < view.scale) {ratio : R}
    (hx : InInt (left view desktop) ∧
      InInt (right view width height desktop - left view desktop))
    (hy : InInt (top view desktop) ∧
      InInt (bottom view width height desktop - top view desktop))
    (hw : 4 ≤ right view width height desktop - left view desktop)
    (hh : 4 ≤ bottom view width height desktop - top view desktop) :
    WellFormed view width height desktop (request ratio (left view desktop) (top view desktop)
      (right view width height desktop) (bottom view width height desktop)) := by
  obtain ⟨⟨hX, hW⟩, ⟨hY, hH⟩, hOutW, hOutH⟩ := request_fields ratio hx hy hw hh
  have hleft : desktop.x ≤ left view desktop := le_max_right _ _
  have hright : right view width height desktop ≤ desktop.x + desktop.w := min_le_right _ _
  have htop : desktop.y ≤ top view desktop := le_max_right _ _
  have hbottom : bottom view width height desktop ≤ desktop.y + desktop.h := min_le_right _ _
  constructor
  case notEmpty => omega
  case inside => omega
  case covers =>
    intro px py hin hvis
    have hb := visible_between h hin hvis
    rw [Recti.contains_iff, hX, hY, hW, hH]
    dsimp only
    omega
  case ordered =>
    unfold kMaxEncoded
    omega
  case outW => omega
  case outH => omega

lemma Askable.wellFormed (h : 0 < view.scale) (hs : Shown width height desktop)
    (hsize : InInt desktop.w ∧ InInt desktop.h) (hask : Askable view width height desktop) :
    (wantedViewport view width height desktop).Fits ∧
      ((wantedViewport view width height desktop).val = {} ∨
        WellFormed view width height desktop (wantedViewport view width height desktop).val) := by
  obtain ⟨hsx, hsy, henc⟩ := hask
  have hspans (hlr : left view desktop < right view width height desktop)
      (htb : top view desktop < bottom view width height desktop) :=
    And.intro (hsx.inInt hsize.1 hlr) (hsy.inInt hsize.2 htb)
  rw [fits_wantedViewport_iff hs, val_wantedViewport hs]
  refine ⟨⟨⟨hsx, hsy⟩, fun hlr htb => ?_⟩, ?_⟩
  · obtain ⟨hx, hy⟩ := hspans hlr htb
    obtain ⟨hw, hh⟩ := henc hlr htb
    exact ⟨hx.2, hy.2, (fits_encoded_iff _ _).mpr hw.room, (fits_encoded_iff _ _).mpr hh.room⟩
  · split_ifs with hoff
    · exact Or.inl rfl
    · obtain ⟨hlr, htb⟩ := not_or.mp hoff
      obtain ⟨hx, hy⟩ := hspans (not_le.mp hlr) (not_le.mp htb)
      obtain ⟨hw, hh⟩ := henc (not_le.mp hlr) (not_le.mp htb)
      exact Or.inr (request_wellFormed h hx hy hw.four hh.four)

/-- A well-formed request is not asked for where a side is too short, or an integer too large. -/
lemma askable_of_wellFormed (hs : Shown width height desktop)
    (hfits : (wantedViewport view width height desktop).Fits)
    (hform : (wantedViewport view width height desktop).val = {} ∨
      WellFormed view width height desktop (wantedViewport view width height desktop).val) :
    Askable view width height desktop := by
  rw [fits_wantedViewport_iff hs] at hfits
  rw [val_wantedViewport hs] at hform
  obtain ⟨⟨hsx, hsy⟩, hsides⟩ := hfits
  refine ⟨hsx, hsy, fun hlr htb => ?_⟩
  obtain ⟨hw, hh, hfw, hfh⟩ := hsides hlr htb
  rw [if_neg (by omega)] at hform
  rcases hform with hempty | hform
  · exact absurd (congrArg ViewportReq.fps hempty) (show ¬(30 : UInt8) = 0 by decide)
  · have hW := toInt_ofInt_of_inInt hw
    have hH := toInt_ofInt_of_inInt hh
    obtain ⟨h4w, h4h⟩ : 4 ≤ min (Int32.ofInt _).toInt _ ∧ 4 ≤ min (Int32.ofInt _).toInt _ :=
      hform.ordered
    exact ⟨⟨by omega, (fits_encoded_iff _ _).mp hfw⟩, by omega, (fits_encoded_iff _ _).mp hfh⟩

/-- **When a request is well formed.** The request is the empty one, or is for a region of the
desktop that holds all that is visible of it, in a size between four and what the region has: as
long as the edges are integers once they are snapped, and the region has four pixels each way. -/
theorem wantedViewport_wellFormed_iff
    (hscale : kMinScale ≤ view.scale ∧ view.scale ≤ kMaxScale)
    (hsize : InInt desktop.w ∧ InInt desktop.h) :
    ((wantedViewport view width height desktop).Fits ∧
        ((wantedViewport view width height desktop).val = {} ∨
          WellFormed view width height desktop (wantedViewport view width height desktop).val)) ↔
      (Shown width height desktop → Askable view width height desktop) := by
  have hpos : 0 < view.scale := by
    refine lt_of_lt_of_le ?_ hscale.1
    unfold kMinScale
    positivity
  refine ⟨fun h hs => askable_of_wellFormed hs h.1 h.2, fun h => ?_⟩
  by_cases hs : Shown width height desktop
  case pos => exact (h hs).wellFormed hpos hs hsize
  case neg =>
    have hempty : wantedViewport view width height desktop = pure {} := by
      unfold wantedViewport
      rw [if_pos (by unfold Shown at hs; omega)]
    exact ⟨hempty ▸ fits_pure _, Or.inl (congrArg Arith.val hempty)⟩

/-- A whole desktop is asked for as it is. -/
theorem wantedViewport_wellFormed_whole :
    (wantedViewport (R := ℚ) .init 1920 1080 ⟨0, 0, 1920, 1080⟩).Fits ∧
      ((wantedViewport (R := ℚ) .init 1920 1080 ⟨0, 0, 1920, 1080⟩).val = {} ∨
        WellFormed (R := ℚ) .init 1920 1080 ⟨0, 0, 1920, 1080⟩
          (wantedViewport (R := ℚ) .init 1920 1080 ⟨0, 0, 1920, 1080⟩).val) := by
  refine (wantedViewport_wellFormed_iff (by decide +kernel) ⟨by decide, by decide⟩).mpr
    fun _ => ⟨⟨?_, ?_, ?_⟩, ⟨?_, ?_, ?_⟩, fun _ _ => ⟨⟨?_, ?_⟩, ⟨?_, ?_⟩⟩⟩ <;> decide +kernel

/-- The view of 1920 by 1080 on two monitors, one 290 pixels higher, of whose top it shows one
row. -/
def topRow : ViewTransform ℚ := ⟨1, ⟨0, -1369⟩⟩

theorem wantedViewport_topRow :
    (kMinScale ≤ topRow.scale ∧ topRow.scale ≤ kMaxScale) ∧
    (wantedViewport topRow 1920 1080 ⟨0, -290, 3840, 1370⟩).Fits ∧
    (wantedViewport topRow 1920 1080 ⟨0, -290, 3840, 1370⟩).val ≠ {} ∧
    ¬WellFormed topRow 1920 1080 ⟨0, -290, 3840, 1370⟩
      (wantedViewport topRow 1920 1080 ⟨0, -290, 3840, 1370⟩).val := by
  have hh : (wantedViewport topRow 1920 1080 ⟨0, -290, 3840, 1370⟩).val.h.toInt = 2 := by
    decide +kernel
  refine ⟨by decide +kernel, by decide +kernel, by decide +kernel, fun h => ?_⟩
  have hfour := h.ordered.2
  omega

end ViewTransform

end Digitiz
