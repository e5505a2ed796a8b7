import Digitiz.StripRelease
import Mathlib.Algebra.Order.Archimedean.Basic

/-!
How the list of buttons scrolls.

While it is dragged, the button under the finger stays the one the finger came down on. When it is
let go, it moves on to a slot boundary and stops there after finitely many frames, with as many
different buttons in full view as fit. An arrow moves it by one button, so that the arrows lead to
every button.
-/

namespace Digitiz.ButtonStrip

open ButtonStore Carousel

variable {R : Type} [Field R] [LinearOrder R]

/-- A strip laid out for `n` buttons that scrolls only under a finger that has moved. -/
structure Sound (n : ℕ) (s : ButtonStrip R) : Prop extends LaidOut n s where
  dragged : s.scrolling = true → s.press = .slot ∧ s.pressMoved = true ∧ s.m.arrows = true

variable {s t : ButtonStrip R} {bs : List CustomButton} {n : ℕ} {p q : Point R}

/-! ### Frames -/

lemma settle_still (h : s.scroll = 0 ∧ s.scrollTarget = 0) (dt : R) : s.settle dt = s := by
  rw [settle, if_pos (Or.inr (h.1.trans h.2.symm))]

lemma LaidOut.settle (h : LaidOut n s) (dt : R) : LaidOut n (s.settle dt) := by
  obtain ⟨scroll, he⟩ := s.settle_frame dt
  refine h.congr (by rw [he]) (by rw [he]) (by rw [he]) fun ha => ?_
  rw [settle_still (h.still ha)]
  exact h.still ha

lemma Sound.advance (h : Sound n s) (dt : R) : Sound n (s.advance dt) := by
  obtain ⟨scroll, seconds, press, slot, long, menu, hsettle, he, hpress, -⟩ := s.advance_frame dt
  have hlaid := h.toLaidOut.settle dt
  rw [hsettle] at hlaid
  rw [he]
  refine ⟨hlaid.congr rfl rfl rfl hlaid.still, fun hs => ?_⟩
  obtain ⟨hslot, hmoved, harrows⟩ := h.dragged hs
  rcases hpress with rfl | hno
  · exact ⟨hslot, hmoved, harrows⟩
  · simp [hmoved] at hno

/-! ### Dragging -/

variable [FloatOps R]

lemma sound_layout [IsStrictOrderedRing R] (h : s.scrolling = false) (bs : List CustomButton)
    (w hgt : ℤ) (d : R) : Sound bs.length (s.layout bs w hgt d) :=
  ⟨s.laidOut_layout bs w hgt d, fun hs => absurd (h.symm.trans hs) nofun⟩

lemma Sound.drag (h : Sound n s) (q : Point R) : Sound n (s.drag q) := by
  obtain ⟨he, -⟩ | ⟨hk, moved, scrolling, hmoved, hscr, he⟩ := s.drag_frame q <;> rw [he]
  · exact h
  · have harrows : scrolling = true → moved = true ∧ s.m.arrows = true := by
      intro hs
      rcases hscr hs with hold | ⟨hm, ha⟩
      · exact ⟨hmoved (h.dragged hold).2.1, (h.dragged hold).2.2⟩
      · exact ⟨hm, ha⟩
    cases scrolling with
    | true =>
      refine ⟨h.congr rfl rfl rfl fun ha => ?_, fun _ => ⟨hk, harrows rfl⟩⟩
      rw [(harrows rfl).2] at ha
      exact absurd ha nofun
    | false => exact ⟨h.congr rfl rfl rfl h.still, nofun⟩

lemma Sound.hitTest (h : Sound n s) (bs : List CustomButton) (p : Point R) :
    Sound n (s.hitTest bs p).1 := by
  rw [ButtonStrip.hitTest]
  cases s.target p <;>
    exact ⟨h.congr rfl rfl rfl h.still, fun hs => absurd hs Bool.false_ne_true⟩

omit [FloatOps R] in
lemma Sound.setSuggestion (h : Sound n s) (name : List UInt8) : Sound n (s.setSuggestion name) :=
  ⟨h.congr rfl rfl rfl h.still, h.dragged⟩

lemma Sound.touchStep (h : Sound n s) (c : TouchStep R) : Sound n (s.touchStep c) := by
  cases c with
  | drag q => exact h.drag q
  | advance dt => exact h.advance dt
  | suggest name => exact h.setSuggestion name

lemma touch_spec (h : Sound n s) (l : List (TouchStep R)) :
    Sound n (s.touch l) ∧ Touched s (s.touch l) := by
  induction l generalizing s with
  | nil => exact ⟨h, rfl, rfl, rfl, rfl, rfl⟩
  | cons c l ih =>
    obtain ⟨hsound, htouched⟩ := ih (h.touchStep c)
    exact ⟨hsound, (touched_step s c).trans htouched⟩

lemma drag_scrolling (h : s.scrolling = true → s.press = .slot) (q : Point R)
    (hs : (s.drag q).scrolling = true) :
    (s.drag q).scroll = s.scrollAtPress - s.along q s.pressPos := by
  obtain ⟨he, hk⟩ | ⟨-, moved, scrolling, -, -, he⟩ := s.drag_frame q
  · rw [he] at hs
    exact absurd (h hs) hk
  · rw [he] at hs ⊢
    cases scrolling with
    | true => rfl
    | false => exact absurd hs nofun

omit [FloatOps R] in
lemma runRect_of_target (hp : s.target p = .slot) : s.runRect.contains p = true := by
  grind [target]

/-- **The finger takes its button along.** As long as the list scrolls under it, the button under
the finger is the one it came down on. -/
theorem drag_keeps_button [IsStrictOrderedRing R] (hceil : ExactCeil R) (h : Sound bs.length s)
    (hp : s.target p = .slot) (l : List (TouchStep R)) (q : Point R)
    (hs : (((s.hitTest bs p).1.touch l).drag q).scrolling = true)
    (hq : (((s.hitTest bs p).1.touch l).drag q).runRect.contains q = true) :
    (((s.hitTest bs p).1.touch l).drag q).buttonUnder bs.length q =
      (s.hitTest bs p).1.pressSlot := by
  obtain ⟨hsound, htouch⟩ := touch_spec (h.hitTest bs p) l
  have htouched := (s.landed_touched bs p).1.trans htouch
  set u := (s.hitTest bs p).1.touch l with hu
  have hdrag : Touched (s.landed p) (u.drag q) := htouched.trans (touched_step u (.drag q))
  have hm : (u.drag q).m = s.m := hdrag.m
  have ho : (u.drag q).orientation = s.orientation := hdrag.orientation
  have hscroll : (u.drag q).scroll = s.scroll - s.along q p := by
    rw [drag_scrolling (fun hs => (hsound.dragged hs).1) q hs, htouched.atPress, htouched.pos,
      htouched.along]
    rfl
  have hinRun : (u.drag q).inRun q = s.inRun q := by
    rw [inRun, inRun, horizontal, horizontal, runStart, runStart, hm, ho]
  -- the place of the band under the finger has not changed
  have hplace : (u.drag q).content q = s.content p := by
    rw [content, content, hscroll, hinRun, ← s.inRun_sub q p]
    ring
  have hfrom := h.toLaidOut.buttonUnder_on hceil (runRect_of_target hp)
  have hto := (hsound.drag q).toLaidOut.buttonUnder_on hceil hq
  rw [hplace, hm] at hto
  have hslot : (s.hitTest bs p).1.pressSlot = s.buttonUnder bs.length p := by rw [hitTest, hp]
  rw [hslot]
  exact hto.unique h.slot_pos hfrom

/-- The second of three buttons in view is dragged to where the first was. -/
theorem drag_keeps_second :
    (((someStrip.hitTest someButtons ⟨162, 550⟩).1.touch [.drag ⟨150, 550⟩]).drag
      ⟨80, 550⟩).buttonUnder someButtons.length ⟨80, 550⟩ = 1 := by
  have htarget : someStrip.target ⟨162, 550⟩ = .slot := by decide +kernel
  have h := drag_keeps_button exactCeil_rat
    (sound_layout rfl _ _ _ _ : Sound someButtons.length someStrip) htarget
    [.drag ⟨150, 550⟩] ⟨80, 550⟩ (by decide +kernel) (by decide +kernel)
  exact h.trans (by decide +kernel)

/-! ### Settling -/

section settling

variable [IsStrictOrderedRing R]

omit [FloatOps R]

/-- The share of the way that a frame of at least that length covers. -/
def share (d : R) : R := min (d / kSnapSeconds) 1

omit [LinearOrder R] [IsStrictOrderedRing R] in
lemma kSnapSeconds_pos [LinearOrder R] [IsStrictOrderedRing R] : (0 : R) < kSnapSeconds :=
  div_pos (Nat.cast_pos.mpr (by omega)) (Nat.cast_pos.mpr (by omega))

lemma share_pos {d : R} (hd : 0 < d) : 0 < share d ∧ share d ≤ 1 :=
  ⟨lt_min (div_pos hd kSnapSeconds_pos) one_pos, min_le_right _ _⟩

lemma share_le_clamp {d dt : R} (hdt : d ≤ dt) :
    share d ≤ ViewTransform.clamp (dt / kSnapSeconds) 0 1 := by
  have hle : d / kSnapSeconds ≤ dt / kSnapSeconds :=
    div_le_div_of_nonneg_right hdt kSnapSeconds_pos.le
  unfold ViewTransform.clamp share
  split_ifs with hneg hone
  · exact (min_le_left _ _).trans (hle.trans hneg.le)
  · exact min_le_right _ _
  · exact (min_le_left _ _).trans hle

/-- A frame brings the list nearer to where it settles, and on to it from less than half a pixel. -/
lemma settle_near (s : ButtonStrip R) {d dt : R} (hd : 0 < d) (hdt : d ≤ dt)
    (hs : s.scrolling = false) :
    |s.scrollTarget - (s.settle dt).scroll| ≤ |s.scrollTarget - s.scroll| * (1 - share d) ∧
      (|s.scrollTarget - s.scroll| * (1 - share d) < 1 / (2 : ℕ) →
        (s.settle dt).scroll = s.scrollTarget) := by
  have hshare := share_pos hd
  by_cases hat : s.scroll = s.scrollTarget
  · rw [settle, if_pos (Or.inr hat), hat, sub_self, abs_zero, zero_mul]
    exact ⟨le_rfl, fun _ => rfl⟩
  · rw [settle, if_neg (by simp [hs, hat])]
    dsimp only
    set t := ViewTransform.clamp (dt / kSnapSeconds) 0 1 with ht
    have hle : |s.scrollTarget - (s.scroll + (s.scrollTarget - s.scroll) * t)| ≤
        |s.scrollTarget - s.scroll| * (1 - share d) := by
      have hfactor : s.scrollTarget - (s.scroll + (s.scrollTarget - s.scroll) * t) =
          (s.scrollTarget - s.scroll) * (1 - t) := by ring
      have ht1 : t ≤ 1 := (ViewTransform.clamp_mem (zero_le_one' R) _).2
      rw [hfactor, abs_mul, abs_of_nonneg (sub_nonneg.mpr ht1)]
      exact mul_le_mul_of_nonneg_left (sub_le_sub_left (share_le_clamp hdt) 1) (abs_nonneg _)
    refine ⟨?_, fun hnear => if_pos (hle.trans_lt hnear)⟩
    split_ifs
    · rw [sub_self, abs_zero]
      exact mul_nonneg (abs_nonneg _) (sub_nonneg.mpr hshare.2)
    · exact hle

/-- Frames without a finger on the strip. -/
def frames (s : ButtonStrip R) (dts : List R) : ButtonStrip R := dts.foldl advance s

omit [IsStrictOrderedRing R] in
lemma Sound.frames (h : Sound n s) (dts : List R) : Sound n (s.frames dts) := by
  induction dts generalizing s with
  | nil => exact h
  | cons dt dts ih => exact ih (h.advance dt)

/-- A strip that nobody touches. -/
structure Idle (s : ButtonStrip R) : Prop where
  press : s.press = .none
  scrolling : s.scrolling = false

/-- What settling leaves alone. -/
structure Settled (s t : ButtonStrip R) : Prop where
  target : t.scrollTarget = s.scrollTarget
  m : t.m = s.m
  orientation : t.orientation = s.orientation
  expanded : t.expanded = s.expanded
  suggested : t.suggestedName = s.suggestedName
  density : t.density = s.density
  idle : Idle s → Idle t

omit [IsStrictOrderedRing R] in
lemma advance_settled (s : ButtonStrip R) (dt : R) :
    Settled s (s.advance dt) ∧ (s.advance dt).scroll = (s.settle dt).scroll := by
  obtain ⟨scroll, seconds, press, slot, long, menu, hsettle, he, -, hnone⟩ := s.advance_frame dt
  rw [he, hsettle]
  exact ⟨⟨rfl, rfl, rfl, rfl, rfl, rfl, fun h => ⟨hnone h.press, h.scrolling⟩⟩, rfl⟩

omit [LinearOrder R] [IsStrictOrderedRing R] [Field R] in
lemma Settled.trans {u : ButtonStrip R} (h : Settled s t) (h' : Settled t u) : Settled s u :=
  ⟨h'.target.trans h.target, h'.m.trans h.m, h'.orientation.trans h.orientation,
    h'.expanded.trans h.expanded, h'.suggested.trans h.suggested, h'.density.trans h.density,
    h'.idle ∘ h.idle⟩

/-- The distance left after frames of at least a length. -/
lemma frames_near {d : R} (hd : 0 < d) (hidle : Idle s) {dts : List R}
    (hdts : ∀ dt ∈ dts, d ≤ dt) : Settled s (s.frames dts) ∧
      |s.scrollTarget - (s.frames dts).scroll| ≤
        |s.scrollTarget - s.scroll| * (1 - share d) ^ dts.length ∧
      (dts ≠ [] → |s.scrollTarget - s.scroll| * (1 - share d) ^ dts.length < 1 / (2 : ℕ) →
        (s.frames dts).scroll = s.scrollTarget) := by
  have hq : 0 ≤ 1 - share d := sub_nonneg.mpr (share_pos hd).2
  induction dts generalizing s with
  | nil => exact ⟨⟨rfl, rfl, rfl, rfl, rfl, rfl, id⟩, by simp [frames], fun h => absurd rfl h⟩
  | cons dt dts ih =>
    obtain ⟨hsettled, hscroll⟩ := s.advance_settled dt
    obtain ⟨hnear, hsnap⟩ := s.settle_near hd (hdts dt (by simp)) hidle.scrolling
    rw [← hscroll] at hnear hsnap
    obtain ⟨hrest, hleft, hat⟩ := ih (hsettled.idle hidle) fun x hx => hdts x (by simp [hx])
    rw [hsettled.target] at hleft hat
    have hpow := mul_le_mul_of_nonneg_right hnear (pow_nonneg hq dts.length)
    rw [mul_assoc, ← pow_succ'] at hpow
    refine ⟨hsettled.trans hrest, hleft.trans hpow, fun _ hlt => ?_⟩
    rw [List.length_cons] at hlt
    show ((s.advance dt).frames dts).scroll = _
    rcases dts.eq_nil_or_concat with rfl | ⟨_, _, hne⟩
    · refine hsnap ?_
      simpa using hlt
    · exact hat (by rw [hne]; simp) (hpow.trans_lt hlt)

/-- **The list comes to rest** where it was let go to, however long the frames are. -/
theorem frames_rest [Archimedean R] (b : R) {d : R} (hd : 0 < d) : ∃ N, ∀ s : ButtonStrip R,
    Idle s → |s.scrollTarget - s.scroll| ≤ b → ∀ dts : List R, N ≤ dts.length →
    (∀ dt ∈ dts, d ≤ dt) → (s.frames dts).scroll = s.scrollTarget ∧ Settled s (s.frames dts) := by
  have hshare := share_pos hd
  have hq0 : 0 ≤ 1 - share d := sub_nonneg.mpr hshare.2
  have hq1 : 1 - share d ≤ 1 := sub_le_self _ hshare.1.le
  have hb : 0 < max b 1 := lt_max_of_lt_right one_pos
  have hhalf : (0 : R) < 1 / (2 : ℕ) / max b 1 :=
    div_pos (div_pos one_pos (Nat.cast_pos.mpr (by omega))) hb
  obtain ⟨N, hN⟩ := exists_pow_lt_of_lt_one hhalf (sub_lt_self (1 : R) hshare.1)
  rw [lt_div_iff₀ hb] at hN
  refine ⟨N + 1, fun s hidle hdist dts hlen hdts => ?_⟩
  obtain ⟨hsettled, -, hat⟩ := frames_near hd hidle hdts
  refine ⟨hat (by rintro rfl; simp at hlen) ?_, hsettled⟩
  calc |s.scrollTarget - s.scroll| * (1 - share d) ^ dts.length
      ≤ max b 1 * (1 - share d) ^ N := mul_le_mul (hdist.trans (le_max_left _ _))
        (pow_le_pow_of_le_one hq0 hq1 (by omega)) (pow_nonneg hq0 _) hb.le
    _ = (1 - share d) ^ N * max b 1 := mul_comm _ _
    _ < 1 / (2 : ℕ) := hN

end settling

/-! ### The arrows -/

section arrows

/-- A strip at rest with the button `j` in front, counted on the band. -/
structure Resting (n : ℕ) (s : ButtonStrip R) (j : ℤ) : Prop extends Sound n s where
  idle : Idle s
  arrowed : s.m.arrows = true
  scroll_eq : s.scroll = (j : R) * s.m.slot

/-- What a strip at rest shows: whole slots, with consecutive buttons in them. -/
lemma Resting.shows [IsStrictOrderedRing R] (hceil : ExactCeil R) {j : ℤ} (h : Resting n s j)
    (hn : 0 < n) : s.phase n = 0 ∧
      ∀ k, 0 ≤ k → k ≤ s.m.visible → s.buttonAt n k = (j + k) % n := by
  obtain ⟨⟨hp0, hp1⟩, lap, base, hbase, hscroll, hat⟩ :=
    h.toLaidOut.scroll_eq hceil h.arrowed hn
  -- the boundary in front is that of the whole positions
  have hj : j = base + lap * n := by
    have hle : ((base + lap * n : ℤ) : R) * s.m.slot ≤ (j : R) * s.m.slot := by
      rw [← h.scroll_eq, hscroll]
      push_cast
      linarith
    have hlt : (j : R) * s.m.slot < ((base + lap * n : ℤ) : R) * s.m.slot + s.m.slot := by
      rw [← h.scroll_eq, hscroll]
      push_cast
      linarith
    exact index_unique h.slot_pos le_rfl (lt_add_of_pos_right _ h.slot_pos) hle hlt
  refine ⟨?_, fun k hk0 hk => ?_⟩
  · have hzero := h.scroll_eq.symm.trans hscroll
    rw [hj] at hzero
    push_cast at hzero
    linarith
  · rw [hat k hk0 hk, hj, show base + lap * (n : ℤ) + k = base + k + lap * n by ring,
      Int.add_mul_emod_self_right]

/-- One tap of an arrow, and the frames after it. -/
def arrowRound (s : ButtonStrip R) (bs : List CustomButton) (p : Point R) (dts : List R) :
    ButtonStrip R :=
  ((s.hitTest bs p).1.release bs).frames dts

/-- Which way an arrow leads. -/
def Leads (s : ButtonStrip R) (p : Point R) (δ : ℤ) : Prop :=
  s.target p = .next ∧ δ = 1 ∨ s.target p = .prev ∧ δ = -1

omit [FloatOps R] in
lemma target_congr (hm : t.m = s.m) (ho : t.orientation = s.orientation)
    (he : t.expanded = s.expanded) (hn : t.suggestedName = s.suggestedName)
    (hd : t.density = s.density) (p : Point R) : t.target p = s.target p := by
  cases s
  cases t
  subst hm ho he hn hd
  rfl

omit [LinearOrder R] in
lemma nudge_eq (ha : s.m.arrows = true) (k : ℤ) :
    s.nudge k = { s with scrollTarget := s.nearestSlot + (k : R) * s.m.slot } :=
  if_neg (by simp [scrollable, ha])

/-- A tap of an arrow sends the list to the next boundary. -/
lemma release_arrow {δ : ℤ} (h : Sound n s) (ha : s.m.arrows = true) (hp : Leads s p δ)
    (bs : List CustomButton) : let u := (s.hitTest bs p).1.release bs
    Sound n u ∧ Idle u ∧ u.scroll = s.scroll ∧ u.m = s.m ∧
      u.scrollTarget = ((FloatOps.lround (s.scroll / s.m.slot) + δ : ℤ) : R) * s.m.slot ∧
      u.target p = s.target p := by
  have hstrip : ∀ (k : Press) (δ : ℤ), k = .next ∧ δ = 1 ∨ k = .prev ∧ δ = -1 →
      ({ s.landed p with press := k } : ButtonStrip R).release bs = { s.landed p with
        scrollTarget := ((FloatOps.lround (s.scroll / s.m.slot) : ℤ) : R) * s.m.slot +
          (δ : R) * s.m.slot } := by
    rintro k δ (⟨rfl, rfl⟩ | ⟨rfl, rfl⟩)
    · show { ({ s.landed p with press := .next } : ButtonStrip R).nudge 1 with
        press := .none, pressSlot := -1, scrolling := false } = _
      rw [nudge_eq (by exact ha)]
      rfl
    · show { ({ s.landed p with press := .prev } : ButtonStrip R).nudge (-1) with
        press := .none, pressSlot := -1, scrolling := false } = _
      rw [nudge_eq (by exact ha)]
      rfl
  have hhit : (s.hitTest bs p).1 = { s.landed p with press := s.target p } := by
    rcases hp with ⟨hk, -⟩ | ⟨hk, -⟩ <;> rw [hitTest, hk]
  intro u
  have hu : u = { s.landed p with
      scrollTarget := ((FloatOps.lround (s.scroll / s.m.slot) : ℤ) : R) * s.m.slot +
        (δ : R) * s.m.slot } := by
    rw [← hstrip _ δ hp, ← hhit]
  have hm : u.m = s.m := by rw [hu]; rfl
  have ho : u.orientation = s.orientation := by rw [hu]; rfl
  have he : u.expanded = s.expanded := by rw [hu]; rfl
  have hn : u.suggestedName = s.suggestedName := by rw [hu]; rfl
  have hd : u.density = s.density := by rw [hu]; rfl
  have hl : u.effectiveLimit = s.effectiveLimit := by rw [hu]; rfl
  have hidle : Idle u := by rw [hu]; exact ⟨rfl, rfl⟩
  refine ⟨⟨h.congr hm hl he fun hno => ?_, fun hs => ?_⟩, hidle, by rw [hu]; rfl, hm, ?_,
    target_congr hm ho he hn hd p⟩
  · rw [ha] at hno
    exact absurd hno.symm Bool.false_ne_true
  · exact absurd (hidle.scrolling.symm.trans hs) Bool.false_ne_true
  · rw [hu]
    push_cast
    ring

variable [IsStrictOrderedRing R]

/-- One round, from wherever the list is. -/
lemma arrowRound_rests [Archimedean R] (bs : List CustomButton) (p : Point R) (b : R) {d : R}
    (hd : 0 < d) : ∃ N, ∀ s : ButtonStrip R, ∀ δ, Sound bs.length s → s.m.arrows = true → Leads s p δ →
    |((FloatOps.lround (s.scroll / s.m.slot) + δ : ℤ) : R) * s.m.slot - s.scroll| ≤ b →
    ∀ dts : List R, N ≤ dts.length → (∀ dt ∈ dts, d ≤ dt) →
    Resting bs.length (s.arrowRound bs p dts) (FloatOps.lround (s.scroll / s.m.slot) + δ) ∧
      (s.arrowRound bs p dts).m = s.m ∧ (s.arrowRound bs p dts).target p = s.target p := by
  obtain ⟨N, hN⟩ := frames_rest b hd
  refine ⟨N, fun s δ hs ha hp hdist dts hlen hdts => ?_⟩
  obtain ⟨hsound, hidle, hscroll, hm, htarget, hsame⟩ := release_arrow hs ha hp bs
  set u := (s.hitTest bs p).1.release bs with hu
  obtain ⟨hat, hsettled⟩ := hN u hidle (by rw [htarget, hscroll]; exact hdist) dts hlen hdts
  have hround : s.arrowRound bs p dts = u.frames dts := rfl
  rw [hround]
  refine ⟨⟨hsound.frames dts, hsettled.idle hidle, ?_, ?_⟩, hsettled.m.trans hm, ?_⟩
  · rw [hsettled.m, hm]
    exact ha
  · rw [hat, htarget, hsettled.m, hm]
  · rw [← hsame]
    exact target_congr hsettled.m hsettled.orientation hsettled.expanded hsettled.suggested
      hsettled.density p

omit [IsStrictOrderedRing R] in
/-- The way to the boundary after the nearest one. -/
lemma arrow_distance (hround : ExactRound R) {j δ : ℤ} (h : Resting n s j) :
    FloatOps.lround (s.scroll / s.m.slot) = j ∧
      |((FloatOps.lround (s.scroll / s.m.slot) + δ : ℤ) : R) * s.m.slot - s.scroll| =
        |(δ : R) * s.m.slot| := by
  have hj : FloatOps.lround (s.scroll / s.m.slot) = j := by
    rw [h.scroll_eq, mul_div_cancel_right₀ _ h.slot_pos.ne', hround]
  refine ⟨hj, congrArg abs ?_⟩
  rw [hj, h.scroll_eq]
  push_cast
  ring

/-- **The arrows lead round the ring.** After any number of taps of one of them, each with time to
settle, the strip shows whole buttons in their order, from as many further on. -/
theorem arrows_lead_round [Archimedean R] (hceil : ExactCeil R) (hround : ExactRound R)
    (h : Sound bs.length s) (ha : s.m.arrows = true) {δ : ℤ} (hp : Leads s p δ)
    {d : R} (hd : 0 < d) : ∃ N, ∀ rounds : List (List R), rounds ≠ [] →
      (∀ dts ∈ rounds, N ≤ dts.length ∧ ∀ dt ∈ dts, d ≤ dt) →
      let t := rounds.foldl (fun s dts => s.arrowRound bs p dts) s
      t.phase bs.length = 0 ∧ ∀ k, 0 ≤ k → k ≤ s.m.visible → t.buttonAt bs.length k =
        (FloatOps.lround (s.scroll / s.m.slot) + rounds.length * δ + k) % bs.length := by
  set j := FloatOps.lround (s.scroll / s.m.slot) with hj
  obtain ⟨N, hN⟩ := arrowRound_rests bs p
    (max |((j + δ : ℤ) : R) * s.m.slot - s.scroll| |(δ : R) * s.m.slot|) hd
  refine ⟨N, fun rounds hne hrounds => ?_⟩
  -- over the rounds after the first, which start at rest
  have hrun : ∀ (rounds : List (List R)) (i : ℤ) (u : ButtonStrip R),
      (∀ dts ∈ rounds, N ≤ dts.length ∧ ∀ dt ∈ dts, d ≤ dt) → Resting bs.length u i →
      u.m = s.m → u.target p = s.target p →
      Resting bs.length (rounds.foldl (fun s dts => s.arrowRound bs p dts) u)
        (i + rounds.length * δ) ∧
        (rounds.foldl (fun s dts => s.arrowRound bs p dts) u).m = s.m := by
    intro rounds
    induction rounds with
    | nil => exact fun i u _ hu hm _ => ⟨by simpa using hu, hm⟩
    | cons dts rounds ih =>
      intro i u hr hu hm ht
      obtain ⟨hi, hdist⟩ := arrow_distance hround (δ := δ) hu
      obtain ⟨hlen, hdts⟩ := hr dts (by simp)
      obtain ⟨hrest, hm', ht'⟩ := hN u δ hu.toSound hu.arrowed (by rw [Leads, ht]; exact hp)
        (by rw [hdist, hm]; exact le_max_right _ _) dts hlen hdts
      rw [hi] at hrest
      obtain ⟨hend, hmend⟩ := ih (i + δ) _ (fun x hx => hr x (by simp [hx])) hrest (hm'.trans hm)
        (ht'.trans ht)
      refine ⟨?_, hmend⟩
      have hcount : i + δ + rounds.length * δ = i + (dts :: rounds).length * δ := by
        rw [List.length_cons]
        push_cast
        ring
      rw [← hcount]
      exact hend
  obtain ⟨dts, rounds, rfl⟩ := List.exists_cons_of_ne_nil hne
  obtain ⟨hlen, hdts⟩ := hrounds dts (by simp)
  obtain ⟨hrest, hm, ht⟩ := hN s δ h ha hp (le_max_left _ _) dts hlen hdts
  obtain ⟨hend, hmend⟩ := hrun rounds _ _ (fun x hx => hrounds x (by simp [hx])) hrest hm ht
  have hn : 0 < bs.length := by
    have harrows := h.arrows
    rw [ha] at harrows
    have hvis := h.visible
    have hlim := h.limit_pos
    cases he : s.expanded
    · simp [he] at harrows
    · simp [he] at harrows hvis
      omega
  obtain ⟨hphase, hshow⟩ := hend.shows hceil hn
  refine ⟨hphase, fun k hk0 hk => ?_⟩
  have hat := hshow k hk0 (by rw [hmend]; exact hk)
  rw [show FloatOps.lround (s.scroll / s.m.slot) + δ + (rounds.length : ℤ) * δ + k =
    j + ((dts :: rounds).length : ℤ) * δ + k by rw [List.length_cons]; push_cast; ring] at hat
  exact hat

end arrows

lemma exactRound_rat : ExactRound ℚ := by
  intro n
  have hhalf : ∀ n : ℤ, ((n : ℚ) + 1 / 2).floor = n := by
    intro n
    refine le_antisymm ?_ (Rat.le_floor_iff.mpr (by linarith))
    rw [← Int.lt_add_one_iff]
    by_contra hno
    have := Rat.le_floor_iff.mp (not_lt.mp hno)
    push_cast at this
    linarith
  show (if 0 ≤ (n : ℚ) then ((n : ℚ) + 1 / 2).floor else -(-(n : ℚ) + 1 / 2).floor) = n
  split_ifs
  · exact hhalf n
  · rw [← Int.cast_neg, hhalf, neg_neg]

/-- The arrow at the end of a row of three. -/
theorem arrows_lead_on : ∃ N, ∀ rounds : List (List ℚ), rounds ≠ [] →
    (∀ dts ∈ rounds, N ≤ dts.length ∧ ∀ dt ∈ dts, 1 / 60 ≤ dt) →
    let t := rounds.foldl (fun s dts => s.arrowRound someButtons ⟨330, 550⟩ dts) someStrip
    t.phase 9 = 0 ∧ ∀ k, 0 ≤ k → k ≤ 3 → t.buttonAt 9 k = (0 + rounds.length * 1 + k) % 9 := by
  have hsound : Sound someButtons.length someStrip := sound_layout rfl _ _ _ _
  have harrows : someStrip.m.arrows = true := by decide +kernel
  have hnext : Leads someStrip ⟨330, 550⟩ 1 := Or.inl ⟨by decide +kernel, rfl⟩
  have hd : (0 : ℚ) < 1 / 60 := by norm_num
  have h := arrows_lead_round exactCeil_rat exactRound_rat hsound harrows hnext hd
  have hfront : FloatOps.lround (someStrip.scroll / someStrip.m.slot) = 0 := by decide +kernel
  have hvisible : someStrip.m.visible = 3 := by decide +kernel
  rw [hfront, hvisible, show someButtons.length = 9 from rfl] at h
  exact h

end Digitiz.ButtonStrip
