import Mathlib.Algebra.Order.Group.Int
import Mathlib.Order.Bounds.Basic
import Digitiz.Win32InputInjector

/-!
Absolute coordinates.

A pixel goes to the system as a fraction of the desktop and comes back truncated. The fraction is
the quotient rounded up, which is the smallest that still truncates to the pixel; as long as there
are no more pixels than fractions, it is in range and no two pixels share it. A point off the
desktop goes to the pixel nearest to it.
-/

namespace Digitiz

/-! ### Rounding up and truncating back -/

section scale

variable {a c e n s : ℤ}

/-- A quotient rounded up is the least whose product is enough. -/
lemma ceil_le_iff (he : 0 < e) : (a + e - 1) / e ≤ n ↔ a ≤ n * e := by
  rw [← Int.lt_add_one_iff, Int.ediv_lt_iff_lt_mul he, add_mul, one_mul]
  omega

lemma ediv_eq_iff_between (hs : 0 < s) : n * e / s = c ↔ c * s ≤ n * e ∧ n * e < (c + 1) * s := by
  rw [← Int.le_ediv_iff_mul_le hs, ← Int.ediv_lt_iff_lt_mul hs]
  omega

/-- Scaled up to no fewer steps and truncated back, a number is what it was. -/
lemma scale_back (he : 0 < e) (hes : e ≤ s) :
    (c * s + e - 1) / e * e / s = c := by
  have hs : 0 < s := he.trans_le hes
  rw [ediv_eq_iff_between hs]
  have hup := (ceil_le_iff (a := c * s) he).mp le_rfl
  have hdown : ¬c * s ≤ ((c * s + e - 1) / e - 1) * e := by
    rw [← ceil_le_iff he]
    omega
  refine ⟨hup, ?_⟩
  rw [sub_mul, one_mul] at hdown
  rw [add_mul, one_mul]
  omega

end scale

/-! ### One axis -/

section axis

variable {offset extent : ℤ}

lemma pixelToNormalized_eq (h0 : 0 ≤ offset) (hlt : offset < extent) (hle : extent ≤ 65536) :
    pixelToNormalized offset extent = (offset * 65536 + extent - 1) / extent := by
  have hpos : 0 < extent := by omega
  have hmax : (offset * 65536 + extent - 1) / extent ≤ 65535 := by
    rw [ceil_le_iff hpos]
    omega
  have hmin : 0 ≤ (offset * 65536 + extent - 1) / extent := Int.ediv_nonneg (by omega) (by omega)
  unfold pixelToNormalized kNormalizedSpan kNormalizedMax
  rw [if_neg (by omega)]
  dsimp only
  rw [min_eq_left (show offset ≤ extent - 1 by omega), max_eq_right h0, min_eq_left hmax,
    max_eq_right hmin]

/-- Within the range of the system nothing wraps. -/
lemma normalizedToPixel_eq {n : ℤ} (h0 : 0 ≤ n) (hn : n ≤ 65535) (hpos : 0 < extent)
    (hle : extent ≤ 65536) : normalizedToPixel n extent = n * extent / 65536 := by
  have hprod : 0 ≤ n * extent := Int.mul_nonneg h0 hpos.le
  have hq : 0 ≤ n * extent / 65536 := Int.ediv_nonneg hprod (by omega)
  have hlt : n * extent / 65536 < 65536 := by
    rw [Int.ediv_lt_iff_lt_mul (by omega)]
    calc n * extent ≤ 65535 * 65536 := Int.mul_le_mul hn hle hpos.le (by omega)
      _ < 65536 * 65536 := by omega
  unfold normalizedToPixel kNormalizedSpan
  rw [if_neg (by omega), Int.tdiv_eq_ediv_of_nonneg hprod]
  exact Int.bmod_eq_of_le (by omega) (by omega)

lemma pixelToNormalized_range (h0 : 0 ≤ offset) (hlt : offset < extent) :
    0 ≤ pixelToNormalized offset extent ∧ pixelToNormalized offset extent ≤ 65535 := by
  unfold pixelToNormalized kNormalizedMax
  rw [if_neg (by omega)]
  dsimp only
  omega

/-- **Every pixel comes back.** -/
lemma normalizedToPixel_pixelToNormalized (h0 : 0 ≤ offset) (hlt : offset < extent)
    (hle : extent ≤ 65536) :
    normalizedToPixel (pixelToNormalized offset extent) extent = offset := by
  obtain ⟨hmin, hmax⟩ := pixelToNormalized_range h0 hlt
  rw [normalizedToPixel_eq hmin hmax (by omega) hle, pixelToNormalized_eq h0 hlt hle]
  exact scale_back (by omega) hle

/-- And from no smaller value. -/
lemma pixelToNormalized_least (h0 : 0 ≤ offset) (hlt : offset < extent) (hle : extent ≤ 65536) :
    IsLeast {n : ℤ | 0 ≤ n ∧ normalizedToPixel n extent = offset}
      (pixelToNormalized offset extent) := by
  obtain ⟨hmin, hmax⟩ := pixelToNormalized_range h0 hlt
  refine ⟨⟨hmin, normalizedToPixel_pixelToNormalized h0 hlt hle⟩, fun n hn => ?_⟩
  obtain ⟨hn0, hback⟩ := hn
  by_cases hsmall : n ≤ 65535
  · rw [normalizedToPixel_eq hn0 hsmall (by omega) hle, ediv_eq_iff_between (by omega)] at hback
    rw [pixelToNormalized_eq h0 hlt hle, ceil_le_iff (by omega)]
    exact hback.1
  · omega

/-- A pixel further on has a greater value. -/
lemma pixelToNormalized_lt {offset' : ℤ} (h0 : 0 ≤ offset) (hlt : offset < offset')
    (hlt' : offset' < extent) (hle : extent ≤ 65536) :
    pixelToNormalized offset extent < pixelToNormalized offset' extent := by
  have hend : (offset * 65536 + extent - 1) / extent * extent < (offset + 1) * 65536 :=
    ((ediv_eq_iff_between (by omega)).mp (scale_back (c := offset) (by omega) hle)).2
  rw [pixelToNormalized_eq h0 (hlt.trans hlt') hle, pixelToNormalized_eq (by omega) hlt' hle,
    ← not_le, ceil_le_iff (by omega)]
  omega

end axis

/-! ### Points off the desktop -/

/-- Of the pixels `lo, …, lo + extent - 1`, the one nearest to `v`. -/
structure NearestPixel (lo extent v pixel : ℤ) : Prop where
  within : lo ≤ pixel ∧ pixel < lo + extent
  nearest : ∀ q, lo ≤ q → q < lo + extent → |v - pixel| ≤ |v - q|

lemma nearestPixel_clamp {lo extent : ℤ} (h : 1 ≤ extent) (v : ℤ) :
    NearestPixel lo extent v (max 0 (min (v - lo) (extent - 1)) + lo) where
  within := by omega
  nearest q hlo hhi := by
    rw [Int.abs_eq_natAbs, Int.abs_eq_natAbs]
    omega

namespace Win32InputInjector

/-- What a point is sent as, once the desktop is known. -/
lemma normalize_setVirtualBounds (i : Win32InputInjector) {bounds : Recti} (hw : 1 ≤ bounds.w)
    (hh : 1 ≤ bounds.h) (x y : ℤ) :
    (i.setVirtualBounds bounds).normalize x y =
      ((pixelToNormalized (max 0 (min (x - bounds.x) (bounds.w - 1))) bounds.w,
        pixelToNormalized (max 0 (min (y - bounds.y) (bounds.h - 1))) bounds.h),
        if bounds.contains x y then { i with bounds := bounds }
        else { i with bounds := bounds, clamped := i.clamped + 1 }) := by
  have hset : i.setVirtualBounds bounds = { i with bounds := bounds } :=
    if_pos ⟨by omega, by omega⟩
  have hinside : (max 0 (min (x - bounds.x) (bounds.w - 1)) ≠ x - bounds.x ∨
      max 0 (min (y - bounds.y) (bounds.h - 1)) ≠ y - bounds.y) ↔ ¬bounds.contains x y = true := by
    rw [Recti.contains_iff]
    omega
  rw [hset]
  unfold normalize
  dsimp only
  rw [max_eq_left hw, max_eq_left hh, if_congr hinside rfl rfl, ite_not]

/-- **Absolute coordinates come back as the pixels they were.** Each pixel is sent as the smallest
value that the system takes for it, all in range and in order; a point is sent as the pixel of the
desktop nearest to it, and counted if it is off. -/
theorem absolute_round_trip :
    (∀ offset extent : ℤ, 1 ≤ extent → extent ≤ 65536 → 0 ≤ offset → offset < extent →
      normalizedToPixel (pixelToNormalized offset extent) extent = offset ∧
      IsLeast {n : ℤ | 0 ≤ n ∧ normalizedToPixel n extent = offset}
        (pixelToNormalized offset extent) ∧
      0 ≤ pixelToNormalized offset extent ∧ pixelToNormalized offset extent ≤ 65535 ∧
      ∀ offset', offset < offset' → offset' < extent →
        pixelToNormalized offset extent < pixelToNormalized offset' extent) ∧
    ∀ (i : Win32InputInjector) (bounds : Recti) (x y : ℤ),
      1 ≤ bounds.w → bounds.w ≤ 65536 → 1 ≤ bounds.h → bounds.h ≤ 65536 →
      NearestPixel bounds.x bounds.w x (normalizedToPixel
        ((i.setVirtualBounds bounds).normalize x y).1.1 bounds.w + bounds.x) ∧
      NearestPixel bounds.y bounds.h y (normalizedToPixel
        ((i.setVirtualBounds bounds).normalize x y).1.2 bounds.h + bounds.y) ∧
      ((i.setVirtualBounds bounds).normalize x y).2.clamped =
        i.clamped + if bounds.contains x y then 0 else 1 := by
  refine ⟨fun offset extent _ hle h0 hlt => ?_, fun i bounds x y hw hw' hh hh' => ?_⟩
  · exact ⟨normalizedToPixel_pixelToNormalized h0 hlt hle, pixelToNormalized_least h0 hlt hle,
      (pixelToNormalized_range h0 hlt).1, (pixelToNormalized_range h0 hlt).2,
      fun offset' hlt' hend => pixelToNormalized_lt h0 hlt' hend hle⟩
  · rw [normalize_setVirtualBounds i hw hh]
    refine ⟨?_, ?_, ?_⟩
    · rw [normalizedToPixel_pixelToNormalized (by omega) (by omega) hw']
      exact nearestPixel_clamp hw x
    · rw [normalizedToPixel_pixelToNormalized (by omega) (by omega) hh']
      exact nearestPixel_clamp hh y
    · dsimp only
      split_ifs <;> rfl

/-- The last of 1920 columns, and a point above a desktop that does not start at the origin. -/
theorem absolute_round_trip_edges :
    normalizedToPixel (pixelToNormalized 1919 1920) 1920 = 1919 ∧
      ((({} : Win32InputInjector).setVirtualBounds ⟨-1920, -100, 3840, 1180⟩).normalize
        1000 (-200)).2.clamped = 1 :=
  ⟨(absolute_round_trip.1 1919 1920 (by omega) (by omega) (by omega) (by omega)).1,
    (absolute_round_trip.2 {} ⟨-1920, -100, 3840, 1180⟩ 1000 (-200) (by decide) (by decide)
      (by decide) (by decide)).2.2⟩

end Win32InputInjector

end Digitiz
