import Digitiz.AppRuns
import Digitiz.SettingsFile

/-!
The settings, wherever they are.

A setting is shown in the drawer, is in force in the router or the strip, is kept in memory and lies
in the file. A tap changes the first of these and raises a flag; before the frame is over the flag
has been collected and the others follow. So whenever the app can be killed, the file holds what the
drawer shows.
-/

namespace Digitiz

open ButtonStore TextLines

variable {R : Type}

/-! ### The router -/

namespace TouchRouter

/-- What the settings say to the router. -/
def rules (r : TouchRouter R) : InputMode × Bool × UInt64 × R :=
  (r.mode, r.stylusOnly, r.minIntervalUs, r.minDistancePx)

variable {r : TouchRouter R} [Field R]

@[simp] lemma emit_rules [FloatOps R] (a : PointerAction) (p : Point R) (t : UInt64) :
    (r.emit a p t).rules = r.rules := rfl

@[simp] lemma beginGesture_rules [FloatOps R] (e : MotionEvent R) (i : Option ℕ) :
    (r.beginGesture e i).rules = r.rules := rfl

variable [FloatOps R]

@[simp] lemma flushPress_rules : r.flushPress.rules = r.rules := by
  unfold flushPress
  split_ifs <;> rfl

@[simp] lemma cancelStroke_rules : r.cancelStroke.rules = r.rules := by
  unfold cancelStroke
  dsimp only
  split_ifs <;> rfl

@[simp] lemma endStroke_rules (e : MotionEvent R) (ans : Answers R) :
    (r.endStroke e ans).rules = r.rules := by
  unfold endStroke
  dsimp only
  split_ifs <;> rfl

@[simp] lemma onPointerDown_rules (e : MotionEvent R) : (r.onPointerDown e).rules = r.rules := by
  unfold onPointerDown
  dsimp only
  split_ifs <;> rfl

@[simp] lemma onPointerUp_rules (e : MotionEvent R) : (r.onPointerUp e).rules = r.rules := by
  unfold onPointerUp
  split_ifs <;> rfl

@[simp] lemma onDown_rules (e : MotionEvent R) (ans : Answers R) :
    (r.onDown e ans).rules = r.rules := by
  unfold onDown
  dsimp only
  split_ifs <;> rfl

omit [FloatOps R] in
lemma dragWidget_rules (e : MotionEvent R) (ans : Answers R) :
    (r.dragWidget e ans).rules = r.rules := by
  unfold dragWidget
  split_ifs <;> rfl

omit [FloatOps R] in
lemma releaseWidget_rules (e : MotionEvent R) (ans : Answers R) :
    (r.releaseWidget e ans).rules = r.rules := by
  unfold releaseWidget
  dsimp only
  split_ifs <;> rfl

variable [LinearOrder R]

@[simp] lemma slideMove_rules (p : Point R) (t : UInt64) : (r.slideMove p t).rules = r.rules := by
  unfold slideMove
  dsimp only
  split_ifs <;> rfl

@[simp] lemma slideEnd_rules (p : Point R) (t : UInt64) : (r.slideEnd p t).rules = r.rules := by
  rw [← slideMove_rules (r := r) p t]
  unfold slideEnd
  dsimp only
  split_ifs <;> rfl

@[simp] lemma moveHeld_rules (e : MotionEvent R) : (r.moveHeld e).rules = r.rules := by
  unfold moveHeld
  split_ifs
  · split
    · split_ifs
      · exact flushPress_rules
      · rfl
    · rfl
  · rfl

@[simp] lemma moveStroke_rules (e : MotionEvent R) (ans : Answers R) :
    (r.moveStroke e ans).rules = r.rules := by
  unfold moveStroke
  split
  · dsimp only
    split_ifs <;> rfl
  · rfl

lemma updateGesture_rules (e : MotionEvent R) (i : Option ℕ) :
    (r.updateGesture e i).rules = r.rules := by
  unfold updateGesture
  dsimp only
  split_ifs <;> rfl

lemma onMove_rules (e : MotionEvent R) (ans : Answers R) : (r.onMove e ans).rules = r.rules := by
  unfold onMove
  split_ifs
  · exact dragWidget_rules e ans
  · exact updateGesture_rules e none
  · split
    · exact slideMove_rules _ _
    · rfl
  · dsimp only
    split_ifs <;> simp

lemma onUp_rules (e : MotionEvent R) (ans : Answers R) : (r.onUp e ans).rules = r.rules := by
  have hflush : ∀ s : TouchRouter R,
      (if s.pressPending then s.flushPress else s).rules = s.rules := by
    intro s
    split_ifs
    · exact flushPress_rules
    · rfl
  unfold onUp
  by_cases hc : r.uiCaptured = true
  · rw [if_pos hc]
    exact releaseWidget_rules e ans
  · rw [if_neg hc]
    show (endStroke _ e ans).rules = _
    rw [endStroke_rules, hflush]
    split_ifs
    · exact slideEnd_rules _ _
    · rfl

omit [LinearOrder R] in
lemma onCancel_rules (e : MotionEvent R) (ans : Answers R) :
    (r.onCancel e ans).rules = r.rules := by
  have hcancel : ({ r.cancelStroke with gestureActive := false, slideActive := false } :
      TouchRouter R).rules = r.rules := cancelStroke_rules
  unfold onCancel
  dsimp only
  split_ifs
  · exact (releaseWidget_rules e ans).trans hcancel
  · exact hcancel

/-- The finger does not touch the settings. -/
lemma handle_rules (e : MotionEvent R) (ans : Answers R) : (r.handle e ans).rules = r.rules := by
  unfold handle
  split
  · exact onDown_rules e ans
  · exact onPointerDown_rules e
  · exact onMove_rules e ans
  · exact onPointerUp_rules e
  · exact onUp_rules e ans
  · exact onCancel_rules e ans
  · rfl

end TouchRouter

/-! ### The drawer and the strip under a finger -/

namespace SideMenu

/-- A distance the slider can be left at. -/
def OnSlider [Field R] (d : R) : Prop := ∃ n : ℤ, 0 ≤ n ∧ n ≤ 32 ∧ d = (n : R) / (2 : ℕ)

/-- What a finger may do to the settings in the drawer: each of them stays, or its flag is raised. -/
structure Raised [Field R] (m m' : SideMenu R) : Prop where
  mode : m'.modeChanged = true ∨ m'.modeChanged = m.modeChanged ∧ m'.mode = m.mode
  autoLaunch : m'.autoLaunchChanged = true ∨
    m'.autoLaunchChanged = m.autoLaunchChanged ∧ m'.autoLaunch = m.autoLaunch
  vertical : m'.stripChanged = true ∨
    m'.stripChanged = m.stripChanged ∧ m'.stripVertical = m.stripVertical
  screen : m'.screenChanged = true ∨
    m'.screenChanged = m.screenChanged ∧ m'.screenEnabled = m.screenEnabled
  stylus : m'.stylusChanged = true ∨
    m'.stylusChanged = m.stylusChanged ∧ m'.stylusOnly = m.stylusOnly
  throttle : m'.throttleChanged = true ∨ m'.throttleChanged = m.throttleChanged ∧
    m'.minIntervalMs = m.minIntervalMs ∧ m'.minDistanceDp = m.minDistanceDp
  interval : m'.minIntervalMs = m.minIntervalMs ∨ 0 ≤ m'.minIntervalMs ∧ m'.minIntervalMs ≤ 40
  distance : m'.minDistanceDp = m.minDistanceDp ∨ OnSlider m'.minDistanceDp

section

variable [Field R] {m m' : SideMenu R}

/-- Nothing was done to the settings. -/
lemma Raised.of_shown (h : m'.shown = m.shown) : Raised m m' := by
  simp only [shown, Prod.mk.injEq] at h
  obtain ⟨hmode, hlaunch, hvertical, hscreen, hstylus, hms, hdp, hthrottle⟩ := h
  exact ⟨.inr hmode.symm, .inr hlaunch.symm, .inr hvertical.symm, .inr hscreen.symm,
    .inr hstylus.symm, .inr ⟨hthrottle, hms, hdp⟩, .inl hms, .inl hdp⟩

lemma Raised.refl (m : SideMenu R) : Raised m m := .of_shown rfl

end

lemma advance_shown [Field R] [LinearOrder R] (m : SideMenu R) (dt : R) :
    (m.advance dt).shown = m.shown := by
  unfold advance
  dsimp only
  split_ifs <;> rfl

/-- Rounding takes a number at most half a unit. -/
def RoundsNear (R : Type) [Field R] [LinearOrder R] [FloatOps R] : Prop :=
  ∀ q : R, |(FloatOps.lround q : R) - q| ≤ 1 / (2 : ℕ)

variable [Field R] [LinearOrder R] [FloatOps R]

section

variable [IsStrictOrderedRing R]

/-- What is rounded between two integers stays between them. -/
lemma lround_mem (hr : RoundsNear R) {q : R} {n : ℤ} (h0 : 0 ≤ q) (hn : q ≤ n) :
    0 ≤ FloatOps.lround q ∧ FloatOps.lround q ≤ n := by
  have h := abs_le.mp (hr q)
  have htwo : (1 : R) / (2 : ℕ) < 1 := by
    rw [div_lt_one (by positivity)]
    exact_mod_cast one_lt_two
  constructor
  · have hlo : ((-1 : ℤ) : R) < FloatOps.lround q := by
      push_cast
      linarith
    have := Int.cast_lt.mp hlo
    omega
  · have hhi : ((FloatOps.lround q : ℤ) : R) < ((n + 1 : ℤ) : R) := by
      push_cast
      linarith
    have := Int.cast_lt.mp hhi
    omega

omit [IsStrictOrderedRing R] [FloatOps R] in
lemma clamp_mem (t : R) {hi : R} (h : 0 ≤ hi) :
    0 ≤ ViewTransform.clamp t 0 hi ∧ ViewTransform.clamp t 0 hi ≤ hi := by
  unfold ViewTransform.clamp
  split_ifs with h0 h1
  · exact ⟨le_rfl, h⟩
  · exact ⟨h, le_rfl⟩
  · exact ⟨not_lt.mp h0, not_lt.mp h1⟩

lemma clampInt_mem (n : ℤ) {hi : ℤ} (h : 0 ≤ hi) : 0 ≤ clampInt n 0 hi ∧ clampInt n 0 hi ≤ hi := by
  unfold clampInt
  split_ifs <;> omega

/-- Of the settings only the one under the slider follows the finger. -/
lemma setSliderFromX_raised (hr : RoundsNear R) (m : SideMenu R) (i : ℕ) (x : R) :
    Raised m (m.setSliderFromX i x) := by
  obtain ⟨h0, h1⟩ := clamp_mem ((x - (m.sliderTrack i).x) / (m.sliderTrack i).w) zero_le_one
  unfold setSliderFromX
  dsimp only
  generalize ViewTransform.clamp ((x - (m.sliderTrack i).x) / (m.sliderTrack i).w) 0 1 = t at h0 h1 ⊢
  split_ifs
  · exact .of_shown rfl
  · exact .refl m
  · have hms : 0 ≤ FloatOps.lround (t * (kMaxIntervalMs : R)) ∧
        FloatOps.lround (t * (kMaxIntervalMs : R)) ≤ kMaxIntervalMs := by
      have hmax : (0 : R) ≤ (kMaxIntervalMs : R) := by exact_mod_cast (by decide : 0 ≤ kMaxIntervalMs)
      exact lround_mem hr (mul_nonneg h0 hmax) (mul_le_of_le_one_left hmax h1)
    exact ⟨.inr ⟨rfl, rfl⟩, .inr ⟨rfl, rfl⟩, .inr ⟨rfl, rfl⟩, .inr ⟨rfl, rfl⟩, .inr ⟨rfl, rfl⟩,
      .inl rfl, .inr hms, .inl rfl⟩
  · exact .refl m
  · have hdp : 0 ≤ FloatOps.lround (t * kMaxDistanceDp * ((2 : ℕ) : R)) ∧
        FloatOps.lround (t * kMaxDistanceDp * ((2 : ℕ) : R)) ≤ 32 := by
      have hmax : (0 : R) ≤ kMaxDistanceDp := Nat.cast_nonneg _
      refine lround_mem hr (mul_nonneg (mul_nonneg h0 hmax) (Nat.cast_nonneg _)) ?_
      calc t * kMaxDistanceDp * ((2 : ℕ) : R)
          ≤ kMaxDistanceDp * ((2 : ℕ) : R) :=
            mul_le_mul_of_nonneg_right (mul_le_of_le_one_left hmax h1) (Nat.cast_nonneg _)
        _ = ((32 : ℤ) : R) := by
            unfold kMaxDistanceDp
            norm_num
    exact ⟨.inr ⟨rfl, rfl⟩, .inr ⟨rfl, rfl⟩, .inr ⟨rfl, rfl⟩, .inr ⟨rfl, rfl⟩, .inr ⟨rfl, rfl⟩,
      .inl rfl, .inl rfl, .inr ⟨_, hdp.1, hdp.2, rfl⟩⟩
  · exact .refl m

/-- A tap inside the drawer raises the flag of what it changes. -/
lemma tapPanel_raised (hr : RoundsNear R) (m : SideMenu R) (p : Point R) :
    Raised m (m.tapPanel p) := by
  have hkept := Raised.refl m
  unfold tapPanel
  split_ifs
  · exact .of_shown rfl
  · exact .of_shown rfl
  · exact ⟨hkept.1, hkept.2, .inl rfl, hkept.4, hkept.5, hkept.6, hkept.7, hkept.8⟩
  · exact ⟨hkept.1, hkept.2, hkept.3, .inl rfl, hkept.5, hkept.6, hkept.7, hkept.8⟩
  · exact ⟨hkept.1, hkept.2, hkept.3, hkept.4, .inl rfl, hkept.6, hkept.7, hkept.8⟩
  · exact ⟨.inl rfl, hkept.2, hkept.3, hkept.4, hkept.5, hkept.6, hkept.7, hkept.8⟩
  · exact ⟨hkept.1, .inl rfl, hkept.3, hkept.4, hkept.5, hkept.6, hkept.7, hkept.8⟩
  · split
    · next i _ =>
      have h := setSliderFromX_raised hr { m with draggingSlider := i } i p.x
      exact ⟨h.1, h.2, h.3, h.4, h.5, h.6, h.7, h.8⟩
    · exact hkept

lemma hitTest_raised (hr : RoundsNear R) (m : SideMenu R) (p : Point R) :
    Raised m (m.hitTest p).1 := by
  unfold hitTest
  dsimp only
  split
  · exact .of_shown rfl
  · split
    · show Raised m (if m.progress > (9 : ℕ) / (10 : ℕ) then m.tapPanel p else m)
      split_ifs
      · exact tapPanel_raised hr m p
      · exact .refl m
    · split
      · exact .of_shown rfl
      · exact .refl m

lemma drag_raised (hr : RoundsNear R) (m : SideMenu R) (p : Point R) : Raised m (m.drag p) := by
  unfold drag
  split_ifs
  · exact setSliderFromX_raised hr m _ _
  · exact .refl m

lemma release_raised (hr : RoundsNear R) (m : SideMenu R) (p : Point R) :
    Raised m (m.release p) := by
  unfold release
  split_ifs
  · have h := setSliderFromX_raised hr m m.draggingSlider.toNat p.x
    exact ⟨h.1, h.2, h.3, h.4, h.5, h.6, h.7, h.8⟩
  · exact .refl m

end

end SideMenu

namespace ButtonStrip

/-- What a finger may do to the settings of the strip: open it or close it, with the flag raised. -/
structure Toggled (s s' : ButtonStrip R) : Prop where
  orientation : s'.orientation = s.orientation
  expanded : s'.stateChanged = true ∨ s'.stateChanged = s.stateChanged ∧ s'.expanded = s.expanded

lemma Toggled.of_shown {s s' : ButtonStrip R} (h : s'.shown = s.shown) : Toggled s s' := by
  simp only [shown, Prod.mk.injEq] at h
  obtain ⟨horientation, hexpanded, hchanged⟩ := h
  exact ⟨horientation, .inr ⟨hchanged, hexpanded⟩⟩

variable [Field R] [LinearOrder R] [FloatOps R] (s : ButtonStrip R)

lemma hitTest_shown (bs : List CustomButton) (p : Point R) :
    (s.hitTest bs p).1.shown = s.shown := by
  unfold hitTest
  split <;> rfl

lemma drag_shown (p : Point R) : (s.drag p).shown = s.shown := by
  unfold drag
  dsimp only
  split_ifs <;> rfl

omit [FloatOps R] in
lemma advance_shown (dt : R) : (s.advance dt).shown = s.shown := by
  obtain ⟨scroll, hsettle⟩ := s.settle_frame dt
  rw [advance, hsettle]
  dsimp only
  split_ifs <;> rfl

omit [LinearOrder R] in
lemma cancelPress_shown : s.cancelPress.shown = s.shown := by
  unfold cancelPress snapToSlot
  dsimp only
  split_ifs <;> rfl

lemma releaseAct_toggled [IsStrictOrderedRing R] (bs : List CustomButton) : Toggled s (s.releaseAct bs) := by
  unfold releaseAct
  cases s.press with
  | toggle => exact ⟨rfl, .inl rfl⟩
  | prev | next =>
    refine .of_shown ?_
    dsimp only [nudge]
    split_ifs <;> rfl
  | slot =>
    refine .of_shown ?_
    dsimp only
    split_ifs
    · unfold snapToSlot
      split_ifs <;> rfl
    · cases s.pressedButton bs <;> rfl
    · cases s.pressedButton bs with
      | none => rfl
      | some b =>
        obtain ⟨calls, -, he⟩ := s.activate_spec bs.length b s.pressPos
        dsimp only
        rw [he]
        rfl
  | _ => exact .of_shown rfl

lemma release_toggled [IsStrictOrderedRing R] (bs : List CustomButton) : Toggled s (s.release bs) :=
  have h := s.releaseAct_toggled bs
  ⟨h.orientation, h.expanded⟩

end ButtonStrip

/-! ### Changes of a setting -/

namespace Settings

variable {F : Type} [FloatText F] (s : Settings F)

lemma setStrip_fst (vertical expanded : Bool) : (s.setStrip vertical expanded).1 =
    { s with stripVertical := vertical, stripExpanded := expanded } := by
  unfold setStrip
  split_ifs with h
  · obtain ⟨rfl, rfl⟩ := h
    rfl
  · rfl

lemma setStripSlots_fst (slots : Int32) :
    (s.setStripSlots slots).1 = { s with stripSlots := slots } := by
  unfold setStripSlots
  split_ifs with h
  · obtain rfl := h
    rfl
  · rfl

lemma setScreenEnabled_fst (on : Bool) :
    (s.setScreenEnabled on).1 = { s with screenEnabled := on } := by
  unfold setScreenEnabled
  split_ifs with h
  · obtain rfl := h
    rfl
  · rfl

lemma setStylusOnly_fst (on : Bool) : (s.setStylusOnly on).1 = { s with stylusOnly := on } := by
  unfold setStylusOnly
  split_ifs with h
  · obtain rfl := h
    rfl
  · rfl

lemma setAutoLaunch_fst (on : Bool) : (s.setAutoLaunch on).1 = { s with autoLaunch := on } := by
  unfold setAutoLaunch
  split_ifs with h
  · obtain rfl := h
    rfl
  · rfl

lemma setThrottle_fst (hsame : ∀ x y : F, FloatText.same x y = true → x = y) (intervalMs : Int32)
    (distanceDp : F) : (s.setThrottle intervalMs distanceDp).1 =
      { s with minIntervalMs := intervalMs, minDistanceDp := distanceDp } := by
  unfold setThrottle
  split_ifs with h
  · obtain ⟨rfl, hd⟩ := h
    obtain rfl := hsame _ _ hd
    rfl
  · rfl

end Settings

/-! ### What has not been collected -/

namespace AppUi

open SideMenu

variable [Field R] [LinearOrder R] [FloatOps R] [FloatText R] {a b : AppUi R}

/-- Everything that was collected agrees, and what does not is flagged. -/
structure Loose (a : AppUi R) : Prop where
  mode : a.menu.modeChanged = false → a.touch.router.mode = a.menu.mode
  stylus : a.menu.stylusChanged = false →
    a.touch.router.stylusOnly = a.menu.stylusOnly ∧ a.settings.stylusOnly = a.menu.stylusOnly
  screen : a.menu.screenChanged = false →
    a.screenEnabled = a.menu.screenEnabled ∧ a.settings.screenEnabled = a.menu.screenEnabled
  autoLaunch : a.menu.autoLaunchChanged = false → a.settings.autoLaunch = a.menu.autoLaunch
  vertical : a.menu.stripChanged = false →
    a.strip.orientation = orientationOf a.menu.stripVertical ∧
      a.settings.stripVertical = a.menu.stripVertical
  expanded : a.strip.stateChanged = false → a.settings.stripExpanded = a.strip.expanded
  rules : a.touch.router.minIntervalUs = UInt64.ofInt a.settings.minIntervalMs.toInt * 1000 ∧
    a.touch.router.minDistancePx = a.settings.minDistanceDp * a.density
  throttle : a.menu.throttleChanged = false →
    a.menu.minIntervalMs = clampInt a.settings.minIntervalMs.toInt 0 kMaxIntervalMs ∧
      a.menu.minDistanceDp = ViewTransform.clamp a.settings.minDistanceDp 0 kMaxDistanceDp
  interval : 0 ≤ a.menu.minIntervalMs ∧ a.menu.minIntervalMs ≤ 40
  distance : 0 ≤ a.menu.minDistanceDp ∧ a.menu.minDistanceDp ≤ kMaxDistanceDp

/-- What a finger may do. -/
structure Drifts (a b : AppUi R) : Prop where
  rules : b.touch.router.rules = a.touch.router.rules
  menu : Raised a.menu b.menu
  strip : ButtonStrip.Toggled a.strip b.strip
  settings : b.settings = a.settings
  file : b.settingsFile = a.settingsFile
  screen : b.screenEnabled = a.screenEnabled
  density : b.density = a.density

omit [FloatOps R] in
lemma Loose.drift [IsStrictOrderedRing R] (h : Loose a) (hd : Drifts a b) : Loose b := by
  obtain ⟨hmode, hstylus, hinterval, hdistance⟩ :
      b.touch.router.mode = a.touch.router.mode ∧
        b.touch.router.stylusOnly = a.touch.router.stylusOnly ∧
        b.touch.router.minIntervalUs = a.touch.router.minIntervalUs ∧
        b.touch.router.minDistancePx = a.touch.router.minDistancePx := by
    simpa [TouchRouter.rules] using hd.rules
  constructor
  · intro hf
    obtain ⟨hflag, hval⟩ := hd.menu.mode.resolve_left (by simp [hf])
    rw [hmode, hval]
    exact h.mode (hflag ▸ hf)
  · intro hf
    obtain ⟨hflag, hval⟩ := hd.menu.stylus.resolve_left (by simp [hf])
    rw [hstylus, hd.settings, hval]
    exact h.stylus (hflag ▸ hf)
  · intro hf
    obtain ⟨hflag, hval⟩ := hd.menu.screen.resolve_left (by simp [hf])
    rw [hd.screen, hd.settings, hval]
    exact h.screen (hflag ▸ hf)
  · intro hf
    obtain ⟨hflag, hval⟩ := hd.menu.autoLaunch.resolve_left (by simp [hf])
    rw [hd.settings, hval]
    exact h.autoLaunch (hflag ▸ hf)
  · intro hf
    obtain ⟨hflag, hval⟩ := hd.menu.vertical.resolve_left (by simp [hf])
    rw [hd.strip.orientation, hd.settings, hval]
    exact h.vertical (hflag ▸ hf)
  · intro hf
    obtain ⟨hflag, hval⟩ := hd.strip.expanded.resolve_left (by simp [hf])
    rw [hd.settings, hval]
    exact h.expanded (hflag ▸ hf)
  · rw [hinterval, hdistance, hd.settings, hd.density]
    exact h.rules
  · intro hf
    obtain ⟨hflag, hms, hdp⟩ := hd.menu.throttle.resolve_left (by simp [hf])
    rw [hd.settings, hms, hdp]
    exact h.throttle (hflag ▸ hf)
  · obtain he | hin := hd.menu.interval
    · rw [he]
      exact h.interval
    · exact hin
  · obtain he | ⟨n, h0, hn, he⟩ := hd.menu.distance
    · rw [he]
      exact h.distance
    · rw [he]
      have hhalf : (0 : R) < ((2 : ℕ) : R) := by exact_mod_cast two_pos
      refine ⟨div_nonneg (by exact_mod_cast h0) hhalf.le, ?_⟩
      rw [div_le_iff₀ hhalf, kMaxDistanceDp]
      exact_mod_cast hn

lemma hit_drifts [IsStrictOrderedRing R] (hr : RoundsNear R) (a : AppUi R) (p : Point R) :
    Drifts a (a.hit p).1 := by
  have hasked : (if a.menu.isOpen then (a.strip, false)
      else a.strip.hitTest a.buttons.buttons p).1.shown = a.strip.shown := by
    split_ifs
    · rfl
    · exact a.strip.hitTest_shown _ p
  unfold hit
  generalize (if a.menu.isOpen then (a.strip, false)
    else a.strip.hitTest a.buttons.buttons p) = asked at hasked ⊢
  obtain ⟨strip, onStrip⟩ := asked
  have hstrip := ButtonStrip.Toggled.of_shown hasked
  cases onStrip with
  | true => exact ⟨rfl, .refl _, hstrip, rfl, rfl, rfl, rfl⟩
  | false => exact ⟨rfl, hitTest_raised hr a.menu p, hstrip, rfl, rfl, rfl, rfl⟩

lemma widget_drifts [IsStrictOrderedRing R] (hr : RoundsNear R) (a : AppUi R) (now : UInt64)
    (c : UiCall R) : Drifts a (a.widget now c) := by
  have hsame : Drifts a a := ⟨rfl, .refl _, .of_shown rfl, rfl, rfl, rfl, rfl⟩
  cases c with
  | drag p =>
    show Drifts a (a.widgetDrag p)
    unfold widgetDrag
    split
    · exact ⟨rfl, .refl _, .of_shown (a.strip.drag_shown p), rfl, rfl, rfl, rfl⟩
    · exact ⟨rfl, drag_raised hr a.menu p, .of_shown rfl, rfl, rfl, rfl, rfl⟩
    · exact hsame
  | release p =>
    show Drifts a (a.widgetRelease now p)
    unfold widgetRelease
    split
    · exact ⟨rfl, .refl _, a.strip.release_toggled _, rfl, rfl, rfl, rfl⟩
    · exact ⟨rfl, release_raised hr a.menu p, .of_shown rfl, rfl, rfl, rfl, rfl⟩
    · exact hsame

omit [LinearOrder R] [FloatOps R] in
lemma Beside.drifts (h : Beside a b) : Drifts a b :=
  ⟨congrArg (TouchRouter.rules ∘ Touch.router) h.touch, .of_shown h.drawer, .of_shown h.saved,
    h.settings, h.file, h.screen, h.density⟩

/-- A property that is kept by what a finger may do has only the density and the end of a frame to
be kept by. -/
lemma Steady.of_drifts [IsStrictOrderedRing R] (hr : RoundsNear R) {lost : Prop}
    {P : AppUi R → Prop}
    (hdrift : ∀ {a b}, P a → Drifts a b → P b)
    (hdensity : ∀ {a : AppUi R} (d : R), P a →
      P (({ a with density := d }.call (.setDensity d)).applyThrottle))
    (hcollect : ∀ {a : AppUi R} (f : FrameInput R), P a → P (a.collect f)) : Steady lost P where
  beside h hb := hdrift h hb.drifts
  cancel h := hdrift h ⟨TouchRouter.cancelStroke_rules, .refl _, .of_shown rfl, rfl, rfl, rfl, rfl⟩
  view _ h := hdrift h ⟨rfl, .refl _, .of_shown rfl, rfl, rfl, rfl, rfl⟩
  density d h := hdensity d h
  motion h hs := motion_keeps (fun p h => hdrift h (hit_drifts hr _ p))
    (fun e ans _ h => hdrift h
      ⟨TouchRouter.handle_rules e ans, .refl _, .of_shown rfl, rfl, rfl, rfl, rfl⟩)
    (fun now c h => hdrift h (widget_drifts hr _ now c)) h hs
  collect f h := hcollect f h
  animate {a} dt h := hdrift h ⟨rfl, .of_shown (a.menu.advance_shown dt),
    .of_shown (a.strip.advance_shown dt), rfl, rfl, rfl, rfl⟩
  lostFocus {a} gone _ h := by
    have hcancel : P (a.call .cancelStroke) :=
      hdrift h ⟨TouchRouter.cancelStroke_rules, .refl _, .of_shown rfl, rfl, rfl, rfl, rfl⟩
    unfold AppUi.lostFocus
    generalize a.call .cancelStroke = b at hcancel ⊢
    have hfree : P (b.call .cancelUiCapture) :=
      hdrift hcancel ⟨rfl, .refl _, .of_shown rfl, rfl, rfl, rfl, rfl⟩
    have hleft (c : AppUi R) (hc : P c) :
        P { c with touch := ⟨c.touch.router, c.touch.touching && !gone⟩ } :=
      hdrift hc ⟨rfl, .refl _, .of_shown rfl, rfl, rfl, rfl, rfl⟩
    refine hleft _ ?_
    dsimp only
    split_ifs
    · split
      · refine hdrift hfree ⟨rfl, .refl _, .of_shown ?_, rfl, rfl, rfl, rfl⟩
        exact b.strip.cancelPress_shown
      · exact hdrift hfree ⟨rfl, .of_shown rfl, .of_shown rfl, rfl, rfl, rfl, rfl⟩
      · exact hfree
    · exact hcancel

/-! ### What a frame collects -/

lemma collectMode_loose (h : Loose a) : Loose a.collectMode := by
  unfold collectMode
  split_ifs
  · have hrules : (a.touch.router.setMode a.menu.mode).rules =
        (a.menu.mode, a.touch.router.stylusOnly, a.touch.router.minIntervalUs,
          a.touch.router.minDistancePx) := by
      unfold TouchRouter.setMode
      split_ifs with he
      · rw [← he]
        rfl
      · exact congrArg (fun q => (a.menu.mode, q.2)) (TouchRouter.cancelStroke_rules (r := a.touch.router))
    simp only [TouchRouter.rules, Prod.mk.injEq] at hrules
    obtain ⟨hmode, hstylus, hinterval, hdistance⟩ := hrules
    exact { h with
      mode := fun _ => hmode
      stylus := fun hf => ⟨hstylus.trans (h.stylus hf).1, (h.stylus hf).2⟩
      rules := ⟨hinterval.trans h.rules.1, hdistance.trans h.rules.2⟩ }
  · exact h

omit [FloatOps R] in
/-- The settings with what was written of them. -/
lemma withSettings_loose {r : Settings R × Option (List UInt8)} {t : Settings R} (hr : r.1 = t)
    (h : Loose { a with settings := t }) : Loose (a.withSettings r) := by
  subst hr
  exact { h with }

lemma collectStripChange_loose (h : Loose a) : Loose a.collectStripChange := by
  unfold collectStripChange
  split_ifs
  · refine withSettings_loose (Settings.setStrip_fst _ _ _) ?_
    exact { h with
      vertical := fun _ => ⟨rfl, rfl⟩
      expanded := fun _ => rfl }
  · exact h

omit [FloatOps R] in
lemma collectStateChange_loose (h : Loose a) : Loose a.collectStateChange := by
  unfold collectStateChange
  split_ifs
  · refine withSettings_loose (Settings.setStrip_fst _ _ _) ?_
    exact { h with
      vertical := fun hf => ⟨(h.vertical hf).1, rfl⟩
      expanded := fun _ => rfl }
  · exact h

lemma collectStripSlots_loose (h : Loose a) : Loose a.collectStripSlots := by
  unfold collectStripSlots
  split_ifs
  · refine withSettings_loose (Settings.setStripSlots_fst _ _) ?_
    exact { h with }
  · exact h

lemma collectStylus_loose (h : Loose a) : Loose a.collectStylus := by
  unfold collectStylus
  split_ifs
  · refine withSettings_loose (Settings.setStylusOnly_fst _ _) ?_
    exact { h with stylus := fun _ => ⟨rfl, rfl⟩ }
  · exact h

omit [FloatOps R] in
lemma collectScreen_loose (h : Loose a) : Loose a.collectScreen := by
  unfold collectScreen
  split_ifs
  · refine withSettings_loose (Settings.setScreenEnabled_fst _ _) ?_
    exact { h with screen := fun _ => ⟨rfl, rfl⟩ }
  · exact h

omit [FloatOps R] in
lemma collectAutoLaunch_loose (h : Loose a) : Loose a.collectAutoLaunch := by
  unfold collectAutoLaunch
  split_ifs
  · refine withSettings_loose (Settings.setAutoLaunch_fst _ _) ?_
    exact { h with autoLaunch := fun _ => rfl }
  · exact h

lemma collectThrottle_loose (hsame : ∀ x y : R, FloatText.same x y = true → x = y)
    (h : Loose a) : Loose a.collectThrottle := by
  unfold collectThrottle
  split_ifs
  · have hms : (Int32.ofInt a.menu.minIntervalMs).toInt = a.menu.minIntervalMs :=
      Int32.toInt_ofInt_of_le (by linarith [h.interval.1]) (by linarith [h.interval.2])
    have hclampMs : a.menu.minIntervalMs =
        clampInt (Int32.ofInt a.menu.minIntervalMs).toInt 0 kMaxIntervalMs := by
      have hmax : a.menu.minIntervalMs ≤ kMaxIntervalMs := h.interval.2
      rw [hms, clampInt, if_neg (not_lt.mpr h.interval.1), if_neg (not_lt.mpr hmax)]
    have hclampDp : a.menu.minDistanceDp =
        ViewTransform.clamp a.menu.minDistanceDp 0 kMaxDistanceDp := by
      rw [ViewTransform.clamp, if_neg (not_lt.mpr h.distance.1), if_neg (not_lt.mpr h.distance.2)]
    have hset := Settings.setThrottle_fst a.settings hsame (Int32.ofInt a.menu.minIntervalMs)
      a.menu.minDistanceDp
    generalize a.settings.setThrottle (Int32.ofInt a.menu.minIntervalMs) a.menu.minDistanceDp = r
      at hset ⊢
    obtain ⟨settings, file⟩ := r
    obtain rfl : settings = _ := hset
    exact { h with
      rules := ⟨rfl, rfl⟩
      throttle := fun _ => ⟨hclampMs, hclampDp⟩ }
  · exact h

lemma Loose.collect (hsame : ∀ x y : R, FloatText.same x y = true → x = y) [IsStrictOrderedRing R]
    (h : Loose a) (f : FrameInput R) : Loose (a.collect f) := by
  rw [collect_eq]
  have hstrip := collectStripSlots_loose (collectStateChange_loose (collectStripChange_loose
    (collectMode_loose h)))
  have hdialogs := hstrip.drift (collectDialogs_beside f).drifts
  exact collectThrottle_loose hsame (collectAutoLaunch_loose (collectScreen_loose
    (collectStylus_loose hdialogs)))

lemma loose_steady [IsStrictOrderedRing R] (hr : RoundsNear R)
    (hsame : ∀ x y : R, FloatText.same x y = true → x = y) : Steady True (Loose (R := R)) :=
  .of_drifts hr (fun h hd => h.drift hd) (fun _ h => { h with rules := ⟨rfl, rfl⟩ })
    (fun f h => h.collect hsame f)

/-! ### Flags -/

/-- The flags of the settings. -/
def flags (a : AppUi R) : Bool × Bool × Bool × Bool × Bool × Bool × Bool :=
  (a.menu.modeChanged, a.menu.stripChanged, a.strip.stateChanged, a.menu.stylusChanged,
    a.menu.screenChanged, a.menu.autoLaunchChanged, a.menu.throttleChanged)

/-- Nothing is left to be collected. -/
def Collected (a : AppUi R) : Prop := a.flags = (false, false, false, false, false, false, false)

omit [Field R] [LinearOrder R] [FloatOps R] in
lemma Beside.flags (h : Beside a b) : b.flags = a.flags := by
  have hdrawer := h.drawer
  have hsaved := h.saved
  simp only [shown, ButtonStrip.shown, Prod.mk.injEq] at hdrawer hsaved
  unfold AppUi.flags
  simp only [hdrawer, hsaved]

lemma collectMode_flags : a.collectMode.flags =
    (false, a.flags.2) := by
  unfold collectMode
  split_ifs with h
  · rfl
  · simp [flags, h]

lemma collectStripChange_flags : a.collectStripChange.flags =
    (a.flags.1, false, a.flags.2.2) := by
  unfold collectStripChange
  split_ifs with h
  · rfl
  · simp [flags, h]

omit [Field R] [LinearOrder R] [FloatOps R] in
lemma collectStateChange_flags : a.collectStateChange.flags =
    (a.flags.1, a.flags.2.1, false, a.flags.2.2.2) := by
  unfold collectStateChange
  split_ifs with h
  · rfl
  · simp [flags, h]

lemma collectStripSlots_flags : a.collectStripSlots.flags = a.flags := by
  unfold collectStripSlots
  split_ifs <;> rfl

lemma collectStylus_flags : a.collectStylus.flags =
    (a.flags.1, a.flags.2.1, a.flags.2.2.1, false, a.flags.2.2.2.2) := by
  unfold collectStylus
  split_ifs with h
  · rfl
  · simp [flags, h]

omit [Field R] [LinearOrder R] [FloatOps R] in
lemma collectScreen_flags : a.collectScreen.flags =
    (a.flags.1, a.flags.2.1, a.flags.2.2.1, a.flags.2.2.2.1, false, a.flags.2.2.2.2.2) := by
  unfold collectScreen
  split_ifs with h
  · rfl
  · simp [flags, h]

omit [Field R] [LinearOrder R] [FloatOps R] in
lemma collectAutoLaunch_flags : a.collectAutoLaunch.flags =
    (a.flags.1, a.flags.2.1, a.flags.2.2.1, a.flags.2.2.2.1, a.flags.2.2.2.2.1, false,
      a.flags.2.2.2.2.2.2) := by
  unfold collectAutoLaunch
  split_ifs with h
  · rfl
  · simp [flags, h]

lemma collectThrottle_flags : a.collectThrottle.flags =
    (a.flags.1, a.flags.2.1, a.flags.2.2.1, a.flags.2.2.2.1, a.flags.2.2.2.2.1,
      a.flags.2.2.2.2.2.1, false) := by
  unfold collectThrottle
  split_ifs with h
  · rfl
  · simp [flags, h]

/-- Every flag is collected once, and none is raised meanwhile. -/
lemma collect_collected (f : FrameInput R) : (a.collect f).Collected := by
  rw [collect_eq, Collected, collectThrottle_flags, collectAutoLaunch_flags, collectScreen_flags,
    collectStylus_flags, (collectDialogs_beside f).flags, collectStripSlots_flags,
    collectStateChange_flags, collectStripChange_flags, collectMode_flags]

/-- Outside a frame no flag is raised. -/
lemma collected_quiet : Quiet (Collected (R := R)) where
  beside h hb := hb.flags.trans h
  cancel h := h
  view _ h := h
  density _ h := h

omit [FloatOps R] in
lemma animate_flags (dt : R) : (a.animate dt).flags = a.flags := by
  have hdrawer := a.menu.advance_shown dt
  have hsaved := a.strip.advance_shown dt
  simp only [shown, ButtonStrip.shown, Prod.mk.injEq] at hdrawer hsaved
  unfold flags animate
  simp only [hdrawer, hsaved]

lemma lostFocus_flags (gone : Bool) : (a.lostFocus gone).flags = a.flags := by
  have hsaved := (a.call .cancelStroke).strip.cancelPress_shown
  simp only [ButtonStrip.shown, Prod.mk.injEq] at hsaved
  unfold lostFocus
  dsimp only
  split_ifs
  · split
    · unfold flags
      exact congrArg (fun on => (a.menu.modeChanged, a.menu.stripChanged, on, a.menu.stylusChanged,
        a.menu.screenChanged, a.menu.autoLaunchChanged, a.menu.throttleChanged)) hsaved.2.2
    · rfl
    · rfl
  · rfl

lemma Collected.step (h : a.Collected) {act : Act R} (hs : a.step act = some b) : b.Collected := by
  cases act with
  | frame f =>
    have hs : a.frame f = some b := hs
    unfold AppUi.frame at hs
    split_ifs at hs
    · obtain rfl := Option.some.inj hs
      exact h
    · obtain ⟨c, -, rfl⟩ := Option.map_eq_some_iff.mp hs
      exact (animate_flags f.dt).trans (collect_collected f)
  | initWindow width height dpi defaultName =>
    obtain rfl := Option.some.inj hs
    exact collected_quiet.initWindow h width height dpi defaultName
  | resized width height =>
    obtain rfl := Option.some.inj hs
    exact collected_quiet.resized h width height
  | lostFocus gone =>
    obtain rfl := Option.some.inj hs
    exact (lostFocus_flags gone).trans h
  | termWindow | announced =>
    obtain rfl := Option.some.inj hs
    exact h

/-! ### Whole runs -/

section runs

variable {externalDir : List UInt8} {settingsFile buttonsFile : Option (List UInt8)}
  {acts : List (Act R)}

lemma start_loose [IsStrictOrderedRing R] :
    Loose (start externalDir settingsFile buttonsFile : AppUi R) := by
  obtain ⟨s, hs⟩ : ∃ s, (Settings.load ({} : Settings R) externalDir settingsFile).1 = s := ⟨_, rfl⟩
  have hmax : (0 : R) ≤ kMaxDistanceDp := Nat.cast_nonneg _
  refine ⟨fun _ => rfl, fun _ => ⟨rfl, rfl⟩, fun _ => ⟨rfl, rfl⟩, fun _ => rfl, fun _ => ⟨rfl, rfl⟩,
    fun _ => rfl, ⟨rfl, rfl⟩, fun _ => ⟨rfl, rfl⟩, ?_, ?_⟩
  · exact clampInt_mem _ (by decide)
  · exact clamp_mem _ hmax

/-- A setting is one setting, wherever it is looked at. -/
structure Agrees (a : AppUi R) : Prop where
  mode : a.touch.router.mode = a.menu.mode
  stylus : a.touch.router.stylusOnly = a.menu.stylusOnly
  stylusSaved : a.settings.stylusOnly = a.menu.stylusOnly
  screen : a.screenEnabled = a.menu.screenEnabled
  screenSaved : a.settings.screenEnabled = a.menu.screenEnabled
  autoLaunch : a.settings.autoLaunch = a.menu.autoLaunch
  vertical : a.strip.orientation = orientationOf a.menu.stripVertical
  verticalSaved : a.settings.stripVertical = a.menu.stripVertical
  expanded : a.settings.stripExpanded = a.strip.expanded
  interval : a.touch.router.minIntervalUs = UInt64.ofInt a.settings.minIntervalMs.toInt * 1000
  distance : a.touch.router.minDistancePx = a.settings.minDistanceDp * a.density
  intervalShown : a.menu.minIntervalMs = clampInt a.settings.minIntervalMs.toInt 0 kMaxIntervalMs
  distanceShown : a.menu.minDistanceDp =
    ViewTransform.clamp a.settings.minDistanceDp 0 kMaxDistanceDp

omit [FloatOps R] in
lemma Loose.agrees (h : Loose a) (hc : a.Collected) : a.Agrees := by
  simp only [Collected, flags, Prod.mk.injEq] at hc
  obtain ⟨hmode, hstrip, hstate, hstylus, hscreen, hlaunch, hthrottle⟩ := hc
  exact ⟨h.mode hmode, (h.stylus hstylus).1, (h.stylus hstylus).2, (h.screen hscreen).1,
    (h.screen hscreen).2, h.autoLaunch hlaunch, (h.vertical hstrip).1, (h.vertical hstrip).2,
    h.expanded hstate, h.rules.1, h.rules.2, (h.throttle hthrottle).1, (h.throttle hthrottle).2⟩

lemma run_agrees [IsStrictOrderedRing R] (hr : RoundsNear R)
    (hsame : ∀ x y : R, FloatText.same x y = true → x = y)
    (hrun : Run step (fun _ _ => True) (start externalDir settingsFile buttonsFile) acts a) :
    a.Collected ∧ a.Agrees := by
  have hall : Loose a ∧ a.Collected :=
    hrun.invariant (fun a => Loose a ∧ a.Collected)
      (fun _ _ _ h _ hs => ⟨(loose_steady hr hsame).step h.1 (fun _ => trivial) hs, h.2.step hs⟩)
      ⟨start_loose, rfl⟩
  exact ⟨hall.2, hall.1.agrees hall.2⟩

end runs

end AppUi

end Digitiz
