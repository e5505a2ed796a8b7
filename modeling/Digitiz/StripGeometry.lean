import Digitiz.ButtonStrip
import Digitiz.Carousel
import Digitiz.SlideMotion

/-!
Which button is under a finger.

The run of the strip is a window on an endless band with the buttons on it. The place of the band
under a point of the surface is the scroll and how far into the run the point is; the button found
there is the one on that cell. Scrolling moves the band with the finger, so the button under the
finger stays the one it came down on.
-/

namespace Digitiz.ButtonStrip

open ButtonStore Carousel

variable {R : Type} [Field R] [LinearOrder R]

/-- What the layout for `n` buttons leaves, whatever is done to the strip afterwards. -/
structure LaidOut (n : ℕ) (s : ButtonStrip R) : Prop where
  slot_pos : 0 < s.m.slot
  limit_pos : 1 ≤ s.effectiveLimit
  visible : s.m.visible = if s.expanded then min (n : ℤ) s.effectiveLimit else 0
  arrows : s.m.arrows = (s.expanded && decide ((n : ℤ) > s.m.visible))
  run : s.m.run = (s.m.visible : R) * s.m.slot
  still : s.m.arrows = false → s.scroll = 0 ∧ s.scrollTarget = 0

variable {s : ButtonStrip R} {n : ℕ} {p q : Point R}

lemma LaidOut.congr {t : ButtonStrip R} (h : LaidOut n s) (hm : t.m = s.m)
    (hl : t.effectiveLimit = s.effectiveLimit) (he : t.expanded = s.expanded)
    (hstill : s.m.arrows = false → t.scroll = 0 ∧ t.scrollTarget = 0) : LaidOut n t where
  slot_pos := hm ▸ h.slot_pos
  limit_pos := hl ▸ h.limit_pos
  visible := by rw [hm, hl, he]; exact h.visible
  arrows := by rw [hm, he]; exact h.arrows
  run := by rw [hm]; exact h.run
  still := by rw [hm]; exact hstill

/-! ### The band -/

/-- How far into the run a point is. -/
def inRun (s : ButtonStrip R) (p : Point R) : R :=
  (if s.horizontal then p.x else p.y) - (s.m.start + s.runStart)

/-- The place of the band under a point. -/
def content (s : ButtonStrip R) (p : Point R) : R := s.scroll + s.inRun p

/-- A point is on the strip as far as the direction across it goes. -/
def Level (s : ButtonStrip R) (p : Point R) : Prop :=
  s.m.cross ≤ (if s.horizontal then p.y else p.x) ∧
    (if s.horizontal then p.y else p.x) < s.m.cross + s.m.thickness

lemma cell_contains (s : ButtonStrip R) (o l : R) (p : Point R) :
    (s.cell o l).contains p = true ↔
      s.m.start + o ≤ (if s.horizontal then p.x else p.y) ∧
        (if s.horizontal then p.x else p.y) < s.m.start + o + l ∧ s.Level p := by
  unfold cell Rect.contains Level
  cases s.horizontal <;> simp <;> tauto

omit [LinearOrder R] in
lemma inRun_sub (s : ButtonStrip R) (p q : Point R) : s.inRun p - s.inRun q = s.along p q := by
  unfold inRun along
  split_ifs <;> ring

variable [FloatOps R]

omit [Field R] [LinearOrder R] [FloatOps R] in
lemma mem_drawn (s : ButtonStrip R) (k : ℤ) : k ∈ s.drawn ↔ 0 ≤ k ∧ k ≤ s.m.visible := by
  simp only [drawn, List.mem_map, List.mem_range]
  constructor
  · rintro ⟨i, hi, rfl⟩
    omega
  · intro h
    exact ⟨k.toNat, by omega, by omega⟩

section layout

lemma one_le_limitOn (m : StripMetrics R) (axis : R) (slotLimit : ℤ) :
    1 ≤ limitOn m axis slotLimit ∧ limitOn m axis slotLimit ≤ maxSlotsOn m axis := by
  have hmax : 1 ≤ maxSlotsOn m axis := le_max_right _ _
  unfold limitOn
  dsimp only
  split_ifs <;> omega

variable [IsStrictOrderedRing R]

omit [FloatOps R] in
lemma baseMetrics_slot_pos (horizontal : Bool) {d : R} (hd : 0 < d) :
    0 < (baseMetrics horizontal d).slot := by
  refine mul_pos ?_ hd
  split_ifs <;> exact Nat.cast_pos.mpr (by omega)

/-- **Layout.** -/
theorem laidOut_layout (s : ButtonStrip R) (bs : List CustomButton) (w h : ℤ) (d : R) :
    LaidOut bs.length (s.layout bs w h d) := by
  have hd : (0 : R) < if d > 0 then d else 1 := by
    split_ifs with hpos
    · exact hpos
    · exact one_pos
  have hslot := baseMetrics_slot_pos s.horizontal hd
  cases he : s.expanded with
  | false =>
    refine ⟨?_, (one_le_limitOn _ _ _).1, ?_, ?_, ?_, ?_⟩ <;> simp only [layout, he]
    · exact hslot
    · rfl
    · rfl
    · simp [baseMetrics]
    · exact fun _ => ⟨rfl, rfl⟩
  | true =>
    refine ⟨?_, (one_le_limitOn _ _ _).1, ?_, ?_, ?_, ?_⟩ <;> simp only [layout, he]
    · exact hslot
    · rfl
    · rfl
    · rfl
    · intro h
      simp only [if_true] at h ⊢
      rw [h]
      exact ⟨rfl, rfl⟩

end layout

section exact

variable [IsStrictOrderedRing R] (hceil : ExactCeil R)
include hceil

/-- The whole part of a number that is not negative. -/
lemma trunc_floor {x : R} (hx : 0 ≤ x) : 0 ≤ TouchRouter.trunc x ∧
    (TouchRouter.trunc x : R) ≤ x ∧ x < (TouchRouter.trunc x : R) + 1 := by
  obtain ⟨hle, hlt⟩ := TouchRouter.ceil_bounds hceil (-x)
  have htrunc : TouchRouter.trunc x = -FloatOps.ceil (-x) := if_neg (not_lt.mpr hx)
  have hzero := (hceil (-x) 0).mpr (by push_cast; linarith)
  rw [htrunc, Int.cast_neg]
  exact ⟨by omega, by linarith, by linarith⟩

/-- The whole number of lengths in a number that is not negative. -/
lemma trunc_div {x l : R} (hl : 0 < l) (hx : 0 ≤ x) : 0 ≤ TouchRouter.trunc (x / l) ∧
    (TouchRouter.trunc (x / l) : R) * l ≤ x ∧ x < (TouchRouter.trunc (x / l) : R) * l + l := by
  obtain ⟨hzero, hle, hlt⟩ := trunc_floor hceil (div_nonneg hx hl.le)
  rw [le_div_iff₀ hl] at hle
  rw [div_lt_iff₀ hl] at hlt
  exact ⟨hzero, hle, by linarith⟩

/-- A wrapped number is in the first lap, and a whole number of laps away. -/
lemma wrap_spec {x l : R} (hl : 0 < l) :
    (0 ≤ wrap x l ∧ wrap x l < l) ∧ ∃ k : ℤ, x = wrap x l + (k : R) * l := by
  have hnear := (TouchRouter.trunc_bounds hceil (x / l)).1
  rw [abs_lt] at hnear
  have hx : x / l * l = x := div_mul_cancel₀ x hl.ne'
  have hlow : -l < fmod x l := by
    unfold fmod
    nlinarith [mul_pos hl (sub_pos.mpr hnear.1)]
  have hhigh : fmod x l < l := by
    unfold fmod
    nlinarith [mul_pos hl (sub_pos.mpr hnear.2)]
  rw [wrap, if_neg (not_le.mpr hl)]
  dsimp only
  split_ifs with hneg
  · refine ⟨⟨by linarith, by linarith⟩, TouchRouter.trunc (x / l) - 1, ?_⟩
    unfold fmod
    push_cast
    ring
  · refine ⟨⟨not_lt.mp hneg, hhigh⟩, TouchRouter.trunc (x / l), ?_⟩
    unfold fmod
    ring

/-! ### Positions -/

omit hceil in
lemma slotRect_contains (s : ButtonStrip R) (n : ℕ) (k : ℤ) (p : Point R) :
    (s.slotRect n k).contains p = true ↔ (k : R) * s.m.slot ≤ s.inRun p + s.phase n ∧
      s.inRun p + s.phase n < (k : R) * s.m.slot + s.m.slot ∧ s.Level p := by
  rw [slotRect, cell_contains, inRun]
  refine and_congr ⟨fun h => ?_, fun h => ?_⟩ (and_congr_left fun _ => ⟨fun h => ?_, fun h => ?_⟩)
  all_goals linarith

/-- The scroll of a strip that has more buttons than fit: whole laps, whole positions and a part of
one. -/
lemma LaidOut.scroll_eq (h : LaidOut n s) (ha : s.m.arrows = true) (hn : 0 < n) :
    (0 ≤ s.phase n ∧ s.phase n < s.m.slot) ∧ ∃ lap base : ℤ, 0 ≤ base ∧
      s.scroll = (base : R) * s.m.slot + s.phase n + (lap : R) * ((n : R) * s.m.slot) ∧
      ∀ k, 0 ≤ k → k ≤ s.m.visible → s.buttonAt n k = (base + k) % n := by
  have hlap : 0 < (n : R) * s.m.slot := mul_pos (Nat.cast_pos.mpr hn) h.slot_pos
  obtain ⟨⟨hw0, -⟩, lap, hscroll⟩ := wrap_spec hceil (x := s.scroll) hlap
  obtain ⟨hbase, hle, hlt⟩ := trunc_div hceil h.slot_pos hw0
  set w := wrap s.scroll ((n : R) * s.m.slot) with hw
  have hphase : s.phase n = w - (TouchRouter.trunc (w / s.m.slot) : R) * s.m.slot := by
    rw [phase, scrollable, ha, if_pos rfl, fmod]
    rfl
  refine ⟨⟨by linarith, by linarith⟩, lap, TouchRouter.trunc (w / s.m.slot), hbase, ?_, ?_⟩
  · rw [hphase, hscroll]
    ring
  · intro k hk0 hk
    rw [buttonAt, if_neg (by omega), scrollable, ha, if_neg (by simp), if_neg (by omega)]
    rw [wrappedScroll, ← hw]
    exact Int.tmod_eq_emod_of_nonneg (by omega)

/-- **The button under a point of the run** is the one on that cell of the band. -/
theorem LaidOut.buttonUnder_on (h : LaidOut n s) (hp : s.runRect.contains p = true) :
    On s.m.slot n (s.content p) (s.buttonUnder n p) := by
  obtain ⟨hlow, hhigh, hlevel⟩ := (s.cell_contains _ _ p).mp hp
  have hin0 : 0 ≤ s.inRun p := by rw [inRun]; linarith
  have hin : s.inRun p < (s.m.visible : R) * s.m.slot := by
    rw [inRun, ← h.run]
    linarith
  have hvis : 0 < s.m.visible := by
    have hpos : (0 : R) < (s.m.visible : R) := by
      by_contra hno
      have := mul_nonpos_of_nonpos_of_nonneg (not_lt.mp hno) h.slot_pos.le
      linarith
    exact_mod_cast hpos
  have hexp : s.expanded = true := by
    by_contra hno
    rw [h.visible, if_neg hno] at hvis
    omega
  have hvisn : s.m.visible = min (n : ℤ) s.effectiveLimit := by rw [h.visible, if_pos hexp]
  -- some drawn position holds the point
  have hphase : 0 ≤ s.phase n ∧ s.phase n < s.m.slot := by
    cases ha : s.m.arrows with
    | true => exact (h.scroll_eq hceil ha (by omega)).1
    | false =>
      rw [phase, scrollable, ha]
      exact ⟨le_rfl, h.slot_pos⟩
  have hsome : ∃ k, s.drawn.find? (fun k => (s.slotRect n k).contains p) = some k := by
    obtain ⟨hk0, hk, hk'⟩ := trunc_div hceil h.slot_pos (add_nonneg hin0 hphase.1)
    refine Option.isSome_iff_exists.mp (List.find?_isSome.mpr ⟨_, ?_,
      (s.slotRect_contains n _ p).mpr ⟨hk, hk', hlevel⟩⟩)
    refine (s.mem_drawn _).mpr ⟨hk0, ?_⟩
    have hlt : (TouchRouter.trunc ((s.inRun p + s.phase n) / s.m.slot) : R) * s.m.slot <
        ((s.m.visible + 1 : ℤ) : R) * s.m.slot := by
      push_cast
      linarith [hphase.2]
    exact Int.lt_add_one_iff.mp (Int.cast_lt.mp (lt_of_mul_lt_mul_right hlt h.slot_pos.le))
  obtain ⟨k, hfind⟩ := hsome
  obtain ⟨hk0, hk⟩ := (s.mem_drawn k).mp (List.mem_of_find?_eq_some hfind)
  obtain ⟨hle, hlt, -⟩ := 
    (s.slotRect_contains n k p).mp (List.find?_some (p := fun k => (s.slotRect n k).contains p) hfind)
  have hunder : s.buttonUnder n p = s.buttonAt n k := by
    rw [buttonUnder, hfind]
    rfl
  rw [hunder]
  cases ha : s.m.arrows with
  | true =>
    obtain ⟨-, lap, base, -, hscroll, hat⟩ := h.scroll_eq hceil ha (by omega)
    rw [hat k hk0 hk]
    have hcontent : s.content p =
        ((base : R) * s.m.slot + (s.inRun p + s.phase n)) + (lap : R) * ((n : R) * s.m.slot) := by
      rw [content, hscroll]
      ring
    rw [hcontent]
    refine On.add_laps (on_emod (by omega) ?_ ?_) lap <;>
    · push_cast
      linarith
  | false =>
    have hzero : s.phase n = 0 := by
      rw [phase, scrollable, ha]
      rfl
    rw [hzero, add_zero] at hle hlt
    have hlast : k < s.m.visible :=
      Int.cast_lt.mp (lt_of_mul_lt_mul_right (hle.trans_lt hin) h.slot_pos.le)
    rw [buttonAt, if_neg (by omega), scrollable, ha, if_pos (by simp), if_pos hlast]
    refine ⟨hk0, by omega, 0, ?_⟩
    rw [content, (h.still ha).1]
    push_cast
    constructor <;> linarith

end exact

end Digitiz.ButtonStrip
