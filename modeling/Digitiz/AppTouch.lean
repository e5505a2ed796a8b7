import Digitiz.AppUi
import Digitiz.StripTouch

/-!
Whose touch it is, over whole runs.

The router, the drawer and the strip share the glass. A widget is pressed only while the finger
that landed on it is down, and then the router holds nothing. So what the strip sends when a button
is tapped comes between the strokes, and the host never sees a click of a button inside one.
-/

namespace Digitiz

open ButtonStore

variable {R : Type}

/-! ### Calls on the widgets -/

namespace TouchRouter

/-- What a router with a captured touch makes of an event. -/
def widgetCalls [Field R] (r : TouchRouter R) (e : MotionEvent R) : List (UiCall R) :=
  if r.uiCaptured then
    match e.maskedAction with
    | .move => [.drag (e.pointerPos 0)]
    | .up | .cancel => [.release (e.pointerPos 0)]
    | _ => []
  else []

variable {r : TouchRouter R}

@[simp] lemma beginGesture_widgets [Field R] [FloatOps R] (e : MotionEvent R) (i : Option ℕ) :
    (r.beginGesture e i).widgets = r.widgets := rfl

variable [Field R] [FloatOps R]

@[simp] lemma emit_widgets (a : PointerAction) (p : Point R) (t : UInt64) :
    (r.emit a p t).widgets = r.widgets := rfl

@[simp] lemma flushPress_widgets : r.flushPress.widgets = r.widgets := by
  unfold flushPress
  split_ifs <;> rfl

@[simp] lemma cancelStroke_widgets : r.cancelStroke.widgets = r.widgets := by
  unfold cancelStroke
  dsimp only
  split_ifs <;> rfl

lemma cancelStroke_uiCaptured : r.cancelStroke.uiCaptured = r.uiCaptured := by
  unfold cancelStroke
  dsimp only
  split_ifs <;> rfl

lemma cancelStroke_flags (r : TouchRouter R) :
    r.cancelStroke.strokeActive = false ∧ r.cancelStroke.pressPending = false := by
  unfold cancelStroke
  dsimp only
  split_ifs with h
  · exact ⟨by simpa using h, rfl⟩
  · exact ⟨rfl, rfl⟩

@[simp] lemma endStroke_widgets (e : MotionEvent R) (ans : Answers R) :
    (r.endStroke e ans).widgets = r.widgets := by
  unfold endStroke
  dsimp only
  split_ifs <;> rfl

@[simp] lemma onPointerDown_widgets (e : MotionEvent R) :
    (r.onPointerDown e).widgets = r.widgets := by
  unfold onPointerDown
  dsimp only
  split_ifs <;> rfl

@[simp] lemma onPointerUp_widgets (e : MotionEvent R) : (r.onPointerUp e).widgets = r.widgets := by
  unfold onPointerUp
  split_ifs <;> rfl

variable [LinearOrder R]

@[simp] lemma slideMove_widgets (p : Point R) (t : UInt64) :
    (r.slideMove p t).widgets = r.widgets := by
  unfold slideMove
  dsimp only
  split_ifs <;> rfl

@[simp] lemma slideEnd_widgets (p : Point R) (t : UInt64) :
    (r.slideEnd p t).widgets = r.widgets := by
  rw [← slideMove_widgets (r := r) p t]
  unfold slideEnd
  dsimp only
  split_ifs <;> rfl

omit [LinearOrder R] in
@[simp] lemma onDown_widgets (e : MotionEvent R) (ans : Answers R) :
    (r.onDown e ans).widgets = r.widgets := by
  unfold onDown
  dsimp only
  split_ifs <;> rfl

@[simp] lemma moveHeld_widgets (e : MotionEvent R) : (r.moveHeld e).widgets = r.widgets := by
  unfold moveHeld
  split_ifs
  · split
    · split_ifs <;> simp
    · rfl
  · rfl

@[simp] lemma moveStroke_widgets (e : MotionEvent R) (ans : Answers R) :
    (r.moveStroke e ans).widgets = r.widgets := by
  unfold moveStroke
  split
  · dsimp only
    split_ifs <;> rfl
  · rfl

variable {e : MotionEvent R} {ans : Answers R}

lemma onMove_widgets (hc : r.uiCaptured = false) : (r.onMove e ans).widgets = r.widgets := by
  unfold onMove
  rw [if_neg (by simp [hc])]
  split_ifs
  · rfl
  · split <;> simp
  · dsimp only
    split_ifs <;> simp

lemma onUp_widgets (hc : r.uiCaptured = false) : (r.onUp e ans).widgets = r.widgets := by
  unfold onUp
  rw [if_neg (by simp [hc])]
  dsimp only
  split_ifs <;> simp

/-- The calls on the widgets are those of a captured touch. -/
lemma handle_widgets (hans : ans.uiHit.isSome = true) (he : e.pointers ≠ []) :
    (r.handle e ans).widgets = r.widgets ++ r.widgetCalls e := by
  have hcond : ans.uiHit.isSome = true ∧ e.pointers.length > 0 :=
    ⟨hans, List.length_pos_iff.mpr he⟩
  have hrelease : ∀ s : TouchRouter R,
      (s.releaseWidget e ans).widgets = s.widgets ++ [.release (e.pointerPos 0)] := by
    intro s
    rw [releaseWidget, if_pos hcond]
  unfold handle widgetCalls
  cases hc : r.uiCaptured with
  | true =>
    cases e.maskedAction with
    | move => simp [onMove, hc, dragWidget, hcond]
    | up => simp [onUp, hc, hrelease]
    | cancel => simp [onCancel, cancelStroke_uiCaptured, hc, hrelease]
    | _ => simp
  | false =>
    cases e.maskedAction with
    | move => simp [onMove_widgets hc]
    | up => simp [onUp_widgets hc]
    | cancel => simp [onCancel, cancelStroke_uiCaptured, hc]
    | _ => simp

omit [LinearOrder R] in
/-- A finger that no widget takes is not captured. -/
lemma onDown_uiCaptured (h : ans.uiHit.any (· (e.pointerPos 0)) = false) :
    (r.onDown e ans).uiCaptured = r.uiCaptured := by
  unfold onDown
  dsimp only
  rw [if_neg (by simp [h])]
  split_ifs <;> rfl

omit [LinearOrder R] in
/-- A finger that a widget takes is. -/
lemma onDown_captures (h : ans.uiHit.any (· (e.pointerPos 0)) = true) :
    (r.onDown e ans).uiCaptured = true := by
  unfold onDown
  dsimp only
  rw [if_pos h]

/-- A captured touch is let go of when the last finger lifts or the touch is taken away. -/
lemma handle_uiCaptured (hc : r.uiCaptured = true) (hd : e.maskedAction ≠ .down) :
    (r.handle e ans).uiCaptured = decide (¬(e.maskedAction = .up ∨ e.maskedAction = .cancel)) := by
  have hrelease : ∀ s : TouchRouter R, (s.releaseWidget e ans).uiCaptured = false := by
    intro s
    rw [releaseWidget]
  unfold handle
  cases ha : e.maskedAction with
  | down => exact absurd ha hd
  | move =>
    simp only [onMove, hc, if_true, dragWidget]
    split_ifs <;> simp [hc]
  | up => simp [onUp, hc, hrelease]
  | cancel => simp [onCancel, cancelStroke_uiCaptured, hc, hrelease]
  | pointerDown =>
    have hkeep : (r.onPointerDown e).uiCaptured = r.uiCaptured := by
      unfold onPointerDown
      dsimp only
      split_ifs <;> rfl
    simp [hkeep, hc]
  | pointerUp =>
    have hkeep : (r.onPointerUp e).uiCaptured = r.uiCaptured := by
      unfold onPointerUp
      split_ifs <;> rfl
    simp [hkeep, hc]
  | other => simp [hc]

end TouchRouter

/-! ### What the widgets do with a finger -/

namespace SideMenu

variable [Field R] [LinearOrder R] [FloatOps R] (m : SideMenu R)

@[simp] lemma setSliderFromX_dragging (i : ℕ) (x : R) :
    (m.setSliderFromX i x).draggingSlider = m.draggingSlider := by
  unfold setSliderFromX
  dsimp only
  split_ifs <;> rfl

/-- A tap that the drawer does not take drags nothing. -/
lemma hitTest_dragging (p : Point R) (h : (m.hitTest p).2 = false) :
    (m.hitTest p).1.draggingSlider = m.draggingSlider := by
  revert h
  unfold hitTest
  dsimp only
  split_ifs <;> simp

lemma drag_dragging (p : Point R) : (m.drag p).draggingSlider = m.draggingSlider := by
  unfold drag
  split_ifs
  · exact m.setSliderFromX_dragging _ _
  · rfl

lemma release_dragging (p : Point R) : ¬0 ≤ (m.release p).draggingSlider := by
  unfold release
  split_ifs with h
  · exact of_decide_eq_true rfl
  · exact h

omit [FloatOps R] in
lemma advance_dragging (dt : R) : (m.advance dt).draggingSlider = m.draggingSlider := by
  unfold advance
  dsimp only
  split_ifs <;> rfl

end SideMenu

namespace ButtonStrip

variable [Field R] [LinearOrder R] [FloatOps R] (s : ButtonStrip R)

/-- A tap that the strip does not take presses nothing. -/
lemma hitTest_press (bs : List CustomButton) (p : Point R) (h : (s.hitTest bs p).2 = false) :
    (s.hitTest bs p).1.press = .none := by
  revert h
  unfold hitTest
  cases s.target p <;> simp [landed]

lemma drag_press (p : Point R) : (s.drag p).press = s.press := by
  unfold drag
  dsimp only
  split_ifs <;> rfl

omit [FloatOps R] in
lemma advance_press (dt : R) :
    (s.advance dt).press = s.press ∨ (s.advance dt).press = .none := by
  obtain ⟨scroll, seconds, he, -⟩ | ⟨-, -, -, hnone, -⟩ := s.advance_cases dt
  · exact Or.inl (by rw [he])
  · exact Or.inr hnone

/-- The calls of a release: none, one click or one shortcut. -/
lemma release_calls [IsStrictOrderedRing R] (bs : List CustomButton) :
    ∃ calls, (s.release bs).sent = s.sent ++ calls ∧ (calls = [] ∨
      (∃ τ, calls = [.pointer .down τ, .pointer .up τ]) ∨ ∃ b, calls = [.shortcut b]) := by
  show ∃ calls, (s.releaseAct bs).sent = _ ∧ _
  have hsame : ∀ t : ButtonStrip R, t.sent = s.sent → ∃ calls, t.sent = s.sent ++ calls ∧
      (calls = [] ∨ (∃ τ, calls = [.pointer .down τ, .pointer .up τ]) ∨
        ∃ b, calls = [.shortcut b]) :=
    fun t ht => ⟨[], by simpa using ht, Or.inl rfl⟩
  unfold releaseAct
  cases s.press with
  | slot =>
    dsimp only
    split_ifs
    · refine hsame _ ?_
      unfold snapToSlot
      split_ifs <;> rfl
    · cases s.pressedButton bs <;> exact hsame _ rfl
    · cases s.pressedButton bs with
      | none => exact hsame _ rfl
      | some b =>
        obtain ⟨calls, hacts, he⟩ := s.activate_spec bs.length b s.pressPos
        refine ⟨calls, by simp only [he], ?_⟩
        cases hacts with
        | click τ => exact Or.inr (Or.inl ⟨τ, rfl⟩)
        | shortcut => exact Or.inr (Or.inr ⟨b, rfl⟩)
        | gone => exact Or.inl rfl
  | prev | next =>
    refine hsame _ ?_
    dsimp only [nudge]
    split_ifs <;> rfl
  | _ => exact hsame _ rfl

end ButtonStrip

/-! ### Fingers that are lost -/

namespace TouchRouter

/-- A widget has the finger, above a slide whose own finger went away with the focus. -/
structure Above (r : TouchRouter R) : Prop where
  captured : r.uiCaptured = true
  pressed : r.pressPending = false
  drawing : r.strokeActive = false
  sliding : r.slideActive = true
  mode : r.mode = .slide

/-- What the router holds on to, where fingers may have been lost. -/
inductive Sits (lost : Prop) (r : TouchRouter R) : Hold → Prop
  | clean {h : Hold} (hin : r.In h) : Sits lost r h
  | above (hl : lost) (ha : r.Above) : Sits lost r .widget

variable {r r' : TouchRouter R} {h : Hold} {lost : Prop}

lemma Sits.captured (hs : r.Sits lost h) : r.uiCaptured = true ↔ h = .widget := by
  cases hs with
  | clean hin =>
    rw [hin.captured]
    cases h <;> simp
  | above _ ha => exact iff_of_true ha.captured rfl

lemma Sits.pressed (hs : r.Sits lost h) : r.pressPending = h.pressed := by
  cases hs with
  | clean hin => exact hin.pressed
  | above _ ha => exact ha.pressed

lemma Sits.drawing (hs : r.Sits lost h) : r.strokeActive = h.drawing := by
  cases hs with
  | clean hin => exact hin.drawing
  | above _ ha => exact ha.drawing

lemma Above.keep (ha : r.Above) (hc : r'.uiCaptured = r.uiCaptured)
    (hp : r'.pressPending = r.pressPending) (hd : r'.strokeActive = r.strokeActive)
    (hl : r'.slideActive = r.slideActive) (hm : r'.mode = r.mode) : r'.Above :=
  ⟨hc.trans ha.captured, hp.trans ha.pressed, hd.trans ha.drawing, hl.trans ha.sliding,
    hm.trans ha.mode⟩

/-- Without the widget the slide that was left is the only one there is. -/
lemma Above.bare (ha : r.Above) (hc : r'.uiCaptured = false)
    (hp : r'.pressPending = r.pressPending) (hd : r'.strokeActive = r.strokeActive)
    (hl : r'.slideActive = r.slideActive) (hm : r'.mode = r.mode) :
    r'.In (.slide r'.slideStartedSent) :=
  ⟨hc, hp.trans ha.pressed, hd.trans ha.drawing, hl.trans ha.sliding, fun _ => rfl,
    hm.trans ha.mode⟩

/-- Once the slide is given up as well, the widget is alone with the finger. -/
lemma Above.alone (ha : r.Above) (hc : r'.uiCaptured = r.uiCaptured) (hp : r'.pressPending = false)
    (hd : r'.strokeActive = r.strokeActive) (hl : r'.slideActive = false) : r'.In .widget :=
  .of_not_sliding rfl (hc.trans ha.captured) hp (hd.trans ha.drawing) hl trivial

variable [Field R] [LinearOrder R] [FloatOps R]

omit [LinearOrder R] in
/-- A change of mode gives the slide up. -/
lemma Above.setMode (hl : lost) (ha : r.Above) (mode : InputMode) :
    (r.setMode mode).Sits lost .widget ∧ (r.setMode mode).sent = r.sent := by
  refine ⟨?_, setMode_silent ha.drawing mode⟩
  unfold TouchRouter.setMode
  rw [cancelStroke_of_not_drawing ha.drawing]
  split_ifs
  · exact .above hl ha
  · exact .clean (ha.alone rfl rfl rfl rfl)

/-- What becomes of a widget's touch above a slide: only the end of it is the end of the widget's
part, and not a word is said. -/
lemma Above.handle (hl : lost) (ha : r.Above) (e : MotionEvent R) (ans : Answers R)
    (hd : e.maskedAction ≠ .down) : ∃ h', (r.handle e ans).Sits lost h' ∧
      (r.handle e ans).sent = r.sent ∧ h'.drawing = false ∧
      (h' = .free ∨ h'.sliding = true ∨ h' = .widget ∧ e.maskedAction ≠ .up ∧
        e.maskedAction ≠ .cancel) := by
  have hstill : r.cancelStroke = { r with pressPending := false } :=
    cancelStroke_of_not_drawing ha.drawing
  unfold TouchRouter.handle
  cases hm : e.maskedAction with
  | down => exact absurd hm hd
  | move =>
    have he : r.onMove e ans = r.dragWidget e ans := if_pos ha.captured
    refine ⟨.widget, .above hl ?_, ?_, rfl, .inr (.inr ⟨rfl, by decide, by decide⟩)⟩
    all_goals
      dsimp only
      rw [he]
      unfold dragWidget
      split_ifs
    · exact ha.keep rfl rfl rfl rfl rfl
    · exact ha
    · rfl
    · rfl
  | pointerDown =>
    have he : r.onPointerDown e =
        { r with slideActive := false, strokePointerId := -1 }.beginGesture e none := by
      simp [onPointerDown, ha.pressed, ha.drawing, ha.sliding]
    refine ⟨.widget, .clean ?_, ?_, rfl, .inr (.inr ⟨rfl, by decide, by decide⟩)⟩
    · exact he ▸ ha.alone rfl ha.pressed rfl rfl
    · exact he ▸ rfl
  | pointerUp =>
    refine ⟨.widget, .above hl ?_, ?_, rfl, .inr (.inr ⟨rfl, by decide, by decide⟩)⟩
    all_goals
      dsimp only [onPointerUp]
      split_ifs
    any_goals exact ha.keep rfl rfl rfl rfl rfl
    all_goals rfl
  | up =>
    have he : r.onUp e ans = r.releaseWidget e ans := if_pos ha.captured
    have hs : (r.releaseWidget e ans).sent = r.sent := by
      unfold releaseWidget
      split_ifs <;> rfl
    have hin : (r.releaseWidget e ans).In (.slide (r.releaseWidget e ans).slideStartedSent) := by
      unfold releaseWidget
      split_ifs
      · exact ha.bare rfl rfl rfl rfl rfl
      · exact ha.bare rfl rfl rfl rfl rfl
    dsimp only
    rw [he]
    exact ⟨_, .clean hin, hs, rfl, .inr (.inl rfl)⟩
  | cancel =>
    refine ⟨.free, .clean ?_, onCancel_silent ha.drawing e ans, rfl, .inl rfl⟩
    have he : r.onCancel e ans = { r with
        pressPending := false, gestureActive := false, slideActive := false }.releaseWidget e
          ans := by
      simp [onCancel, hstill, ha.captured]
    dsimp only
    rw [he]
    unfold releaseWidget
    split_ifs
    · exact .free_of rfl rfl ha.drawing rfl
    · exact .free_of rfl rfl ha.drawing rfl
  | other => exact ⟨.widget, .above hl ha, rfl, rfl, .inr (.inr ⟨rfl, by decide, by decide⟩)⟩

omit [LinearOrder R] in
/-- The next finger takes up the slide that was left, or is a widget's above it. -/
lemma onDown_again {b : Bool} (hl : lost) (hin : r.In (.slide b)) (e : MotionEvent R)
    (ans : Answers R) : ∃ h', (r.onDown e ans).Sits lost h' ∧ (r.onDown e ans).sent = r.sent ∧
      h'.drawing = false := by
  have hmode : r.mode = .slide := hin.fits
  unfold onDown
  dsimp only
  have hpan : ¬r.mode = .pan := by rw [hmode]; decide
  have hdraw : ¬(r.mode = .draw ∧ (!r.mayDraw e 0) = true) := by simp [hmode]
  rw [if_neg hpan, if_neg hdraw, if_pos hmode]
  split_ifs
  · exact ⟨.widget, .above hl ⟨rfl, hin.pressed, hin.drawing, hin.sliding, hmode⟩, rfl, rfl⟩
  · exact ⟨.slide false, .clean ⟨hin.captured, hin.pressed, hin.drawing, rfl, fun _ => rfl, hmode⟩,
      rfl, rfl⟩

end TouchRouter

/-- The words of a step of the small machine, or none where no stroke begins or ends. -/
def Says (h : Hold) (out : List Pointer) (h' : Hold) : Prop :=
  Reply h out h' ∨ out = [] ∧ h'.drawing = h.drawing

lemma Says.spoken {h h' : Hold} {ms out : List Pointer} (hs : Says h out h')
    (hspoken : Spoken ms h.drawing) : Spoken (ms ++ out) h'.drawing := by
  obtain hr | ⟨rfl, hd⟩ := hs
  · exact hr.spoken hspoken
  · rw [List.append_nil, hd]
    exact hspoken

namespace Touch

variable [Field R]

/-- What the router holds on to. Over an empty glass that is nothing, or a slide whose finger was
lost. -/
structure Rests (lost : Prop) (s : Touch R) (h : Hold) : Prop where
  sits : s.router.Sits lost h
  idle : s.touching = false → h = .free ∨ lost ∧ h.sliding = true

variable {lost : Prop} {s : Touch R} {h : Hold}

omit [Field R] in
lemma Holds.rests (hh : s.Holds h) : s.Rests lost h := ⟨.clean hh.1, fun ht => .inl (hh.2 ht)⟩

omit [Field R] in
/-- Over an empty glass no stroke is open. -/
lemma Rests.idle_drawing (hh : s.Rests lost h) (ht : s.touching = false) : h.drawing = false := by
  obtain rfl | ⟨-, hs⟩ := hh.idle ht
  · rfl
  · cases h <;> simp at hs ⊢

variable [LinearOrder R] [FloatOps R]

/-- The calls that neither deliver an event nor take the finger from a widget. -/
def quiet : TouchCall R → Bool
  | .handle _ _ | .cancelUiCapture => false
  | _ => true

lemma quiet_goes {c : TouchCall R} (hc : quiet c = true) (hh : s.Rests lost h) :
    ∃ h', (⟨call s.router c, s.touching⟩ : Touch R).Rests lost h' ∧
      (∃ out, (call s.router c).sent = s.router.sent ++ out ∧ Says h out h') ∧
      (h' = .widget ↔ h = .widget) := by
  obtain ⟨hsits, hidle⟩ := hh
  have hsame (hs : (call s.router c).Sits lost h) (hw : (call s.router c).sent = s.router.sent) :
      ∃ h', (⟨call s.router c, s.touching⟩ : Touch R).Rests lost h' ∧
        (∃ out, (call s.router c).sent = s.router.sent ++ out ∧ Says h out h') ∧
        (h' = .widget ↔ h = .widget) :=
    ⟨h, ⟨hs, hidle⟩, ⟨[], by simpa using hw, .inl (.keep h)⟩, Iff.rfl⟩
  cases hsits with
  | clean hin =>
    cases c with
    | handle | cancelUiCapture => simp [quiet] at hc
    | setMode mode =>
      obtain ⟨hin', out, hout, hreply⟩ := TouchRouter.setMode_goes hin mode
      refine ⟨_, ⟨.clean hin', fun ht => ?_⟩, ⟨out, hout, .inl hreply⟩, ?_⟩
      · obtain rfl | ⟨hl, hs⟩ := hidle ht
        · simp
        · split_ifs
          · exact .inr ⟨hl, hs⟩
          · cases h <;> simp at hs ⊢
      · split_ifs
        · rfl
        · cases h <;> simp
    | cancelStroke =>
      obtain ⟨hin', out, hout, hreply⟩ := TouchRouter.cancelStroke_goes hin
      refine ⟨_, ⟨.clean hin', fun ht => ?_⟩, ⟨out, hout, .inl hreply⟩, ?_⟩
      · obtain rfl | ⟨hl, hs⟩ := hidle ht
        · simp
        · cases h <;> simp at hs ⊢
          exact hl
      · cases h <;> simp
    | setStylusOnly | setMinIntervalUs | setMinDistancePx | setDensity | setView =>
      exact hsame (.clean (hin.keep rfl rfl rfl rfl rfl rfl)) rfl
  | above hl ha =>
    cases c with
    | handle | cancelUiCapture => simp [quiet] at hc
    | setMode mode =>
      obtain ⟨hs, hw⟩ := ha.setMode hl mode
      exact hsame hs hw
    | cancelStroke =>
      have he : s.router.cancelStroke = { s.router with pressPending := false } :=
        TouchRouter.cancelStroke_of_not_drawing ha.drawing
      have hup : s.router.cancelStroke.Above := he ▸ ha.keep rfl ha.pressed.symm rfl rfl rfl
      have hw : s.router.cancelStroke.sent = s.router.sent := he ▸ rfl
      exact hsame (.above hl hup) hw
    | setStylusOnly | setMinIntervalUs | setMinDistancePx | setDensity | setView =>
      exact hsame (.above hl (ha.keep rfl rfl rfl rfl rfl)) rfl

/-- An event that can come. Only a finger that lands becomes a widget's. -/
lemma handle_rests (hh : s.Rests lost h) {e : MotionEvent R} {ans : Answers R} {touching : Bool}
    (hg : e.maskedAction.glass s.touching = some touching) :
    ∃ h', (⟨s.router.handle e ans, touching⟩ : Touch R).Rests lost h' ∧
      (∃ out, (s.router.handle e ans).sent = s.router.sent ++ out ∧ Says h out h') ∧
      (e.maskedAction ≠ .down → h' = .widget → h = .widget) := by
  obtain ⟨hsits, hidle⟩ := hh
  -- the glass is empty afterwards only if the last finger went, or it was empty before
  have hempty (hd : e.maskedAction ≠ .down) (ht : touching = false) :
      e.maskedAction = .up ∨ e.maskedAction = .cancel ∨
        e.maskedAction = .other ∧ s.touching = false := by
    subst ht
    cases hm : e.maskedAction <;> cases hs : s.touching <;> simp_all [MotionAction.glass]
  by_cases hd : e.maskedAction = .down
  · obtain ⟨hs, rfl⟩ : s.touching = false ∧ touching = true := by
      rw [hd] at hg
      cases hs : s.touching <;> simp_all [MotionAction.glass]
    have hon : s.router.handle e ans = s.router.onDown e ans := by
      rw [TouchRouter.handle, hd]
    rw [hon]
    obtain rfl | ⟨hl, hslide⟩ := hidle hs
    · cases hsits with
      | clean hin =>
        obtain ⟨h', hin', out, hout, hreply⟩ := TouchRouter.onDown_goes hin e ans
        exact ⟨h', ⟨.clean hin', fun h => by cases h⟩, ⟨out, hout, .inl hreply⟩,
          fun hno => absurd hd hno⟩
    · cases hsits with
      | above => simp at hslide
      | clean hin =>
        cases h with
        | slide b =>
          obtain ⟨h', hs', hout, hdraw⟩ := TouchRouter.onDown_again hl hin e ans
          exact ⟨h', ⟨hs', fun h => by cases h⟩, ⟨[], by simpa using hout, .inr ⟨rfl, hdraw⟩⟩,
            fun hno => absurd hd hno⟩
        | _ => simp at hslide
  · cases hsits with
    | above hl ha =>
      obtain ⟨h', hs', hout, hdraw, hcase⟩ := ha.handle hl e ans hd
      refine ⟨h', ⟨hs', fun ht => ?_⟩, ⟨[], by simpa using hout, .inr ⟨rfl, hdraw⟩⟩,
        fun _ _ => rfl⟩
      obtain hfree | hslide | ⟨-, hup, hcancel⟩ := hcase
      · exact .inl hfree
      · exact .inr ⟨hl, hslide⟩
      · obtain h | h | ⟨-, hs⟩ := hempty hd ht
        · exact absurd h hup
        · exact absurd h hcancel
        · simpa using hidle hs
    | clean hin =>
      by_cases ho : e.maskedAction = .other
      · have hself : s.router.handle e ans = s.router := by rw [TouchRouter.handle, ho]
        obtain rfl : s.touching = touching := by
          simpa [ho, MotionAction.glass] using hg
        rw [hself]
        exact ⟨h, ⟨.clean hin, hidle⟩, ⟨[], (List.append_nil _).symm, .inl (.keep h)⟩,
          fun _ hw => hw⟩
      · have hs : s.touching = true := by
          by_contra hno
          cases hm : e.maskedAction <;> simp_all [MotionAction.glass]
        obtain ⟨h', ⟨hin', out, hout, hreply⟩, hfree, hstay⟩ :=
          handle_goes (b := true) hin (fun h => by cases h) (hs ▸ hg)
        refine ⟨h', ⟨.clean hin', fun ht => .inl (hfree ht)⟩, ⟨out, hout, .inl hreply⟩,
          fun _ hw => ?_⟩
        by_contra hno
        subst hw
        cases hreply with
        | keep => exact hno rfl
        | capture => exact absurd (hstay rfl hd) (by decide)

omit [Field R] [LinearOrder R] [FloatOps R] in
/-- A widget that lets go leaves the glass to nobody, or to a slide that was left. -/
lemma cancelUiCapture_rests (hh : s.Rests lost .widget) : ∃ h',
    (⟨s.router.cancelUiCapture, s.touching⟩ : Touch R).Rests lost h' ∧ h' ≠ .widget ∧
      h'.drawing = false ∧ h'.pressed = false := by
  obtain ⟨hsits, hidle⟩ := hh
  cases hsits with
  | clean hin =>
    exact ⟨.free, ⟨.clean (TouchRouter.cancelUiCapture_goes hin).1, fun _ => .inl rfl⟩,
      by decide, rfl, rfl⟩
  | above hl ha =>
    exact ⟨_, ⟨.clean (ha.bare rfl rfl rfl rfl rfl), fun _ => .inr ⟨hl, rfl⟩⟩, by simp,
      rfl, rfl⟩

omit [Field R] [LinearOrder R] [FloatOps R] in
/-- A finger that no stroke and no widget needs can be lost. -/
lemma Rests.leave (hh : s.Rests lost h) (hw : h ≠ .widget) (hd : h.drawing = false)
    (hp : h.pressed = false) {gone : Bool} (hl : gone = true → lost) :
    (⟨s.router, s.touching && !gone⟩ : Touch R).Rests lost h := by
  refine ⟨hh.sits, fun ht => ?_⟩
  cases hg : gone with
  | false => exact hh.idle (by simpa [hg] using ht)
  | true =>
    cases h with
    | free => exact .inl rfl
    | slide b => exact .inr ⟨hl hg, rfl⟩
    | widget => exact absurd rfl hw
    | pending => exact absurd hp (by decide)
    | stroke => exact absurd hd (by decide)

end Touch

/-! ### Who has the finger -/

namespace AppUi

/-- What goes out when the words `w` of the router have: they in their order, and clicks and
shortcuts of buttons where no stroke is open. -/
inductive Interleaved : List GuestMsg → List Pointer → Prop
  | nil : Interleaved [] []
  | router {s : List GuestMsg} {w : List Pointer} (h : Interleaved s w) (m : Pointer) :
      Interleaved (s ++ [.pointer m]) (w ++ [m])
  | click {s : List GuestMsg} {w : List Pointer} (h : Interleaved s w)
      (hw : absolutes w ∈ strokeLanguage) (d : Pointer) (hd : d.action = .down)
      (hf : d.flags = kPointerWindowRelative) :
      Interleaved (s ++ [.pointer d, .pointer { d with action := .up }]) w
  | shortcut {s : List GuestMsg} {w : List Pointer} (h : Interleaved s w)
      (hw : absolutes w ∈ strokeLanguage) (k : Key) (hk : k.action = .press) :
      Interleaved (s ++ [.key k]) w

lemma Interleaved.routers {s : List GuestMsg} {w : List Pointer} (h : Interleaved s w)
    (out : List Pointer) : Interleaved (s ++ out.map .pointer) (w ++ out) := by
  induction out using List.reverseRecOn with
  | nil => simpa using h
  | append_singleton out m ih =>
    have hone := ih.router m
    rwa [List.append_assoc, List.append_assoc, ← List.map_singleton (f := GuestMsg.pointer),
      ← List.map_append] at hone

variable [Field R] [LinearOrder R] [FloatOps R] [FloatText R]

/-- Whether a host that hears the messages one after the other can have a button down. -/
def heldAfter (held : Bool) : GuestMsg → Bool
  | .pointer m =>
    if m.action = .down then true
    else if m.action = .up ∨ m.action = .cancel then false
    else held
  | .key _ => held

/-- What the finger has become, for the router and for the host, and that what had been said before
was not taken back. -/
structure HeldAs (said : List GuestMsg) (lost : Prop) (a : AppUi R) (h : Hold) : Prop where
  rests : a.touch.Rests lost h
  spoken : Spoken a.touch.router.sent h.drawing
  held : a.sent.foldl heldAfter false = h.drawing
  sent : Interleaved a.sent a.touch.router.sent
  kept : said <+: a.sent

/-- A widget is pressed only as the owner of the finger, and the owner is one the router has given
the finger to. -/
structure Inv (said : List GuestMsg) (lost : Prop) (a : AppUi R) : Prop where
  hold : ∃ h, HeldAs said lost a h ∧ (a.owner ≠ .none ↔ h = .widget)
  strip : a.strip.press ≠ .none → a.owner = .strip
  menu : 0 ≤ a.menu.draggingSlider → a.owner = .menu

/-- What has nothing to do with who has the finger. -/
structure Same (a b : AppUi R) : Prop where
  touch : b.touch = a.touch
  owner : b.owner = a.owner
  sent : b.sent = a.sent
  press : b.strip.press = a.strip.press
  dragging : b.menu.draggingSlider = a.menu.draggingSlider

variable {a b c : AppUi R} {said : List GuestMsg} {lost : Prop}

omit [LinearOrder R] [FloatOps R] [Field R] in
lemma Same.trans (h : Same a b) (h' : Same b c) : Same a c :=
  ⟨h'.touch.trans h.touch, h'.owner.trans h.owner, h'.sent.trans h.sent, h'.press.trans h.press,
    h'.dragging.trans h.dragging⟩

omit [LinearOrder R] [Field R] [FloatOps R] in
lemma HeldAs.congr {h : Hold} (hh : a.HeldAs said lost h) (ht : b.touch = a.touch)
    (hs : b.sent = a.sent) : b.HeldAs said lost h where
  rests := ht ▸ hh.rests
  spoken := ht ▸ hh.spoken
  held := hs ▸ hh.held
  sent := by rw [ht, hs]; exact hh.sent
  kept := hs ▸ hh.kept

omit [LinearOrder R] [Field R] [FloatOps R] in
lemma Inv.same (h : Inv said lost a) (hs : Same a b) : Inv said lost b where
  hold := by
    obtain ⟨hold, hh, howner⟩ := h.hold
    exact ⟨hold, hh.congr hs.touch hs.sent, hs.owner ▸ howner⟩
  strip := by rw [hs.press, hs.owner]; exact h.strip
  menu := by rw [hs.dragging, hs.owner]; exact h.menu

section

omit [LinearOrder R] [FloatOps R] [Field R] [FloatText R]

open Pointer (Relative)

variable {held : Bool} {m : Pointer}

lemma heldAfter_press (hm : m.action = .down) : heldAfter held (.pointer m) = true := if_pos hm

lemma heldAfter_lift (hm : m.action = .up ∨ m.action = .cancel) :
    heldAfter held (.pointer m) = false := by
  have hno : m.action ≠ .down := by rcases hm with h | h <;> rw [h] <;> decide
  exact (if_neg hno).trans (if_pos hm)

lemma heldAfter_move (hm : m.action = .move) : heldAfter held (.pointer m) = held := by
  have hno : ¬(m.action = .up ∨ m.action = .cancel) := by rw [hm]; decide
  exact (if_neg (by rw [hm]; decide)).trans (if_neg hno)

/-- The host follows the small machine. -/
lemma held_of_reply {h h' : Hold} {out : List Pointer} (hr : Reply h out h') :
    (out.map GuestMsg.pointer).foldl heldAfter h.drawing = h'.drawing := by
  cases hr with
  | keep | capture | land | slideBegin | letGo | drop | abandon => rfl
  | press hd => exact heldAfter_press hd.2
  | pressMove hd hm => exact (heldAfter_move hm.2).trans (heldAfter_press hd.2)
  | tap hd hu => exact heldAfter_lift (.inl hu.2)
  | move hm => exact heldAfter_move hm.2
  | up hu => exact heldAfter_lift (.inl hu.2)
  | cancel hc => exact heldAfter_lift (.inr hc.2)
  | slideMove b hm | slideOff b hm => exact heldAfter_move hm.2
  | slideClick b hlen hm hd hu =>
    rw [List.map_append, List.foldl_append]
    exact heldAfter_lift (.inl hu.2)

lemma held_of_says {h h' : Hold} {out : List Pointer} (hs : Says h out h') :
    (out.map GuestMsg.pointer).foldl heldAfter h.drawing = h'.drawing := by
  obtain hr | ⟨rfl, hd⟩ := hs
  · exact held_of_reply hr
  · exact hd.symm

end

/-- The router with its words. -/
lemma HeldAs.routed {h h' : Hold} (hh : a.HeldAs said lost h) {c : TouchCall R} {touching : Bool}
    {out : List Pointer} (hh' : (⟨Touch.call a.touch.router c, touching⟩ : Touch R).Rests lost h')
    (hout : (Touch.call a.touch.router c).sent = a.touch.router.sent ++ out)
    (hto : Says h out h') : (a.routed c touching).HeldAs said lost h' := by
  have hsent : (a.routed c touching).sent = a.sent ++ out.map .pointer := by
    show a.sent ++ _ = _
    rw [hout, List.drop_left]
  refine ⟨hh', ?_, ?_, ?_, ?_⟩
  · show Spoken (Touch.call a.touch.router c).sent _
    rw [hout]
    exact hto.spoken hh.spoken
  · rw [hsent, List.foldl_append, hh.held, held_of_says hto]
  · rw [hsent]
    show Interleaved _ (Touch.call a.touch.router c).sent
    rw [hout]
    exact hh.sent.routers out
  · exact hsent ▸ hh.kept.trans (List.prefix_append _ _)

lemma Inv.call (h : Inv said lost a) {c : TouchCall R} (hc : Touch.quiet c = true) :
    Inv said lost (a.call c) := by
  obtain ⟨hold, hh, howner⟩ := h.hold
  obtain ⟨hold', hh', ⟨out, hout, hto⟩, hwidget⟩ := Touch.quiet_goes hc hh.rests
  exact ⟨⟨hold', hh.routed hh' hout hto, howner.trans hwidget.symm⟩, h.strip, h.menu⟩

/-! ### An event -/

/-- Who is asked decides who has the finger. -/
lemma hit_spec (h : Inv said lost a) (hfree : a.owner = .none) (p : Point R) :
    ((a.hit p).1.owner ≠ .none ↔ (a.hit p).2 = true) ∧
      ((a.hit p).1.strip.press ≠ .none → (a.hit p).1.owner = .strip) ∧
      (0 ≤ (a.hit p).1.menu.draggingSlider → (a.hit p).1.owner = .menu) := by
  have hstrip : a.strip.press = .none := by
    by_contra hno
    simp [h.strip hno] at hfree
  have hmenu : ¬0 ≤ a.menu.draggingSlider := by
    intro hno
    simp [h.menu hno] at hfree
  -- the strip after it was asked, pressed only if it takes the touch
  have hasked : ∃ t, (if a.menu.isOpen then (a.strip, false)
      else a.strip.hitTest a.buttons.buttons p) = t ∧ (t.2 = false → t.1.press = .none) := by
    refine ⟨_, rfl, ?_⟩
    split_ifs
    · exact fun _ => hstrip
    · exact a.strip.hitTest_press _ p
  obtain ⟨⟨strip, onStrip⟩, ht, hpress⟩ := hasked
  have hdrag := a.menu.hitTest_dragging p
  unfold hit
  rw [ht]
  cases onStrip with
  | true => exact ⟨by simp, fun _ => rfl, fun hno => absurd hno hmenu⟩
  | false =>
    cases hm : a.menu.hitTest p with
    | mk menu onMenu =>
      rw [hm] at hdrag
      cases onMenu with
      | true => exact ⟨by simp, fun hno => absurd (hpress rfl) hno, fun _ => rfl⟩
      | false =>
        refine ⟨by simp, fun hno => absurd (hpress rfl) hno, fun hno => ?_⟩
        exact absurd (by rwa [← hdrag rfl]) hmenu

omit [LinearOrder R] [FloatOps R] [Field R] [FloatText R] in
/-- No stroke begins as a widget lets go. -/
lemma says_of_widget {h' : Hold} {out : List Pointer} (hs : Says .widget out h') :
    h'.drawing = false := by
  obtain hr | ⟨-, hd⟩ := hs
  · cases hr <;> rfl
  · exact hd

/-- The router with an event that can come. -/
lemma routed_goes {hold : Hold} (hh : a.HeldAs said lost hold) {e : MotionEvent R} {touching : Bool}
    (hg : e.maskedAction.glass a.touch.touching = some touching) :
    ∃ hold', (a.routed (.handle e a.answers) touching).HeldAs said lost hold' ∧
      (∃ out, Says hold out hold') ∧
      (e.maskedAction ≠ .down → hold' = .widget → hold = .widget) := by
  obtain ⟨hold', hh', ⟨out, hout, hto⟩, hlands⟩ :=
    Touch.handle_rests hh.rests hg
  exact ⟨hold', hh.routed hh' hout hto, ⟨out, hto⟩, hlands⟩

omit [Field R] [LinearOrder R] in
/-- What the strip sends goes out between the strokes. -/
lemma strip_tapped {h : Hold} (hh : a.HeldAs said lost h) (hd : h.drawing = false) (now : UInt64)
    {strip : ButtonStrip R}
    (hcalls : ∃ calls, strip.sent = a.strip.sent ++ calls ∧ (calls = [] ∨
      (∃ τ, calls = [.pointer .down τ, .pointer .up τ]) ∨ ∃ b, calls = [.shortcut b])) :
    (a.withStrip now strip).HeldAs said lost h := by
  obtain ⟨calls, hcalls, hkind⟩ := hcalls
  have hsent : (a.withStrip now strip).sent = a.sent ++ calls.map (stripMsg now) := by
    show a.sent ++ _ = _
    rw [hcalls, List.drop_left]
  have hclosed : absolutes a.touch.router.sent ∈ strokeLanguage := by
    have hstrokes := hh.spoken.strokes
    rwa [hd] at hstrokes
  refine ⟨hh.rests, hh.spoken, ?_, ?_, hsent ▸ hh.kept.trans (List.prefix_append _ _)⟩
  · rw [hsent, List.foldl_append, hh.held, hd]
    rcases hkind with rfl | ⟨τ, rfl⟩ | ⟨b, rfl⟩ <;> rfl
  · rw [hsent]
    show Interleaved _ a.touch.router.sent
    rcases hkind with rfl | ⟨τ, rfl⟩ | ⟨b, rfl⟩
    · rw [List.map_nil, List.append_nil]
      exact hh.sent
    · exact hh.sent.click hclosed (buttonPointer now .down τ) rfl rfl
    · exact hh.sent.shortcut hclosed (buttonShortcut b) rfl

/-- A widget that lets go of the finger sends what the button under it does. -/
lemma widgetRelease_inv [IsStrictOrderedRing R] {h : Hold} (hh : a.HeldAs said lost h)
    (hd : h.drawing = false) (hw : h ≠ .widget)
    (hstrip : a.strip.press ≠ .none → a.owner = .strip)
    (hmenu : 0 ≤ a.menu.draggingSlider → a.owner = .menu) (now : UInt64) (p : Point R) :
    Inv said lost (a.widgetRelease now p) := by
  unfold widgetRelease
  split
  · next ho =>
    refine ⟨⟨h, ?_, by simp [hw]⟩, fun hno => absurd rfl hno, ?_⟩
    · exact (strip_tapped hh hd now (a.strip.release_calls a.buttons.buttons)).congr rfl rfl
    · exact fun hno => absurd (ho.symm.trans (hmenu hno)) nofun
  · next ho =>
    refine ⟨⟨h, hh.congr rfl rfl, by simp [hw]⟩, fun hno => ?_, fun hno => ?_⟩
    · exact absurd (ho.symm.trans (hstrip hno)) nofun
    · exact absurd hno (a.menu.release_dragging p)
  · next ho => exact ⟨⟨h, hh, by simp [ho, hw]⟩, hstrip, hmenu⟩

omit [LinearOrder R] [FloatOps R] [FloatText R] [Field R] in
lemma glass_down {touching touching' : Bool}
    (h : MotionAction.down.glass touching = some touching') : touching = false := by
  cases touching
  · rfl
  · simp [MotionAction.glass] at h

@[simp] lemma hit_touch (p : Point R) : (a.hit p).1.touch = a.touch := by
  unfold hit
  split
  dsimp only
  split_ifs <;> rfl

@[simp] lemma hit_sent (p : Point R) : (a.hit p).1.sent = a.sent := by
  unfold hit
  split
  dsimp only
  split_ifs <;> rfl

/-- The router hears of the event, and then the widget that has the finger does. -/
lemma motion_spec {now : UInt64} {e : MotionEvent R} (hs : a.motion now e = some b) :
    ∃ touching, e.maskedAction.glass a.touch.touching = some touching ∧
      b = (a.touch.router.widgetCalls e).foldl (·.widget now ·)
        ((if e.maskedAction = .down then (a.hit (e.pointerPos 0)).1 else a).routed
          (.handle e a.answers) touching) := by
  have hne : e.pointers ≠ [] := by
    intro hno
    simp [AppUi.motion, hno] at hs
  rw [AppUi.motion, if_neg hne] at hs
  obtain ⟨touching, hg, rfl⟩ := Option.map_eq_some_iff.mp hs
  refine ⟨touching, hg, ?_⟩
  have hasked : (if e.maskedAction = .down then (a.hit (e.pointerPos 0)).1 else a).touch =
      a.touch := by
    split_ifs
    · exact hit_touch _
    · rfl
  have hcalls : ((if e.maskedAction = .down then (a.hit (e.pointerPos 0)).1 else a).routed
      (.handle e a.answers) touching).touch.router.widgets.drop a.touch.router.widgets.length =
      a.touch.router.widgetCalls e := by
    show (Touch.call _ _).widgets.drop _ = _
    rw [hasked]
    show (a.touch.router.handle e a.answers).widgets.drop _ = _
    rw [TouchRouter.handle_widgets rfl hne, List.drop_left]
  dsimp only
  rw [hcalls]

/-- A finger that lands is the widget's that takes it, or the router's. -/
lemma Inv.motion_down (h : Inv said lost a) {now : UInt64} {e : MotionEvent R}
    (hs : a.motion now e = some b) (hd : e.maskedAction = .down) : Inv said lost b := by
  obtain ⟨touching, hg, rfl⟩ := motion_spec hs
  obtain ⟨hold, hh, howner⟩ := h.hold
  obtain ⟨hold', hh', -, -⟩ := routed_goes hh hg
  -- no widget had the finger before
  have hidle : hold ≠ .widget := by
    rintro rfl
    simpa using hh.rests.idle (glass_down (hd ▸ hg))
  have hnone : a.owner = .none := by
    by_contra hno
    exact hidle (howner.mp hno)
  have hbare : a.touch.router.uiCaptured = false := by
    simpa [hidle] using hh.rests.sits.captured
  have hcalls : a.touch.router.widgetCalls e = [] := by
    rw [TouchRouter.widgetCalls, hbare]
    rfl
  obtain ⟨htaken, hstrip, hmenu⟩ := hit_spec h hnone (e.pointerPos 0)
  have hcaptured : hold' = .widget ↔ (a.hit (e.pointerPos 0)).2 = true := by
    rw [← hh'.rests.sits.captured]
    show (a.touch.router.handle e a.answers).uiCaptured = true ↔ _
    rw [TouchRouter.handle, hd]
    cases hit : (a.hit (e.pointerPos 0)).2 with
    | true =>
      have hui : a.answers.uiHit.any (· (e.pointerPos 0)) = true := hit
      simp [TouchRouter.onDown_captures hui]
    | false =>
      have hui : a.answers.uiHit.any (· (e.pointerPos 0)) = false := hit
      simp [TouchRouter.onDown_uiCaptured hui, hbare]
  rw [hcalls, if_pos hd]
  refine ⟨⟨hold', hh'.congr ?_ ?_, htaken.trans hcaptured.symm⟩, hstrip, hmenu⟩
  · show (⟨Touch.call (a.hit _).1.touch.router _, _⟩ : Touch R) = ⟨Touch.call _ _, _⟩
    rw [hit_touch]
  · show (a.hit _).1.sent ++ ((Touch.call (a.hit _).1.touch.router _).sent.drop
      (a.hit _).1.touch.router.sent.length).map _ = a.sent ++ _
    rw [hit_touch, hit_sent]

lemma widgetDrag_same (p : Point R) : Same a (a.widgetDrag p) := by
  unfold widgetDrag
  split
  · exact ⟨rfl, rfl, rfl, a.strip.drag_press p, rfl⟩
  · exact ⟨rfl, rfl, rfl, rfl, a.menu.drag_dragging p⟩
  · exact ⟨rfl, rfl, rfl, rfl, rfl⟩

/-- An event of a finger that is down already reaches who has it. -/
lemma Inv.motion_later [IsStrictOrderedRing R] (h : Inv said lost a) {now : UInt64}
    {e : MotionEvent R} (hs : a.motion now e = some b) (hd : e.maskedAction ≠ .down) :
    Inv said lost b := by
  obtain ⟨touching, hg, rfl⟩ := motion_spec hs
  obtain ⟨hold, hh, howner⟩ := h.hold
  obtain ⟨hold', hh', ⟨out, hto⟩, hlands⟩ := routed_goes hh hg
  have hcaptured := hh.rests.sits.captured
  rw [if_neg hd]
  by_cases hw : hold = .widget
  · have hc : a.touch.router.uiCaptured = true := hcaptured.mpr hw
    have hkept : hold' = .widget ↔ ¬(e.maskedAction = .up ∨ e.maskedAction = .cancel) := by
      rw [← hh'.rests.sits.captured]
      show (a.touch.router.handle e a.answers).uiCaptured = true ↔ _
      rw [TouchRouter.handle_uiCaptured hc hd, decide_eq_true_iff]
    have hrouted (hw' : hold' = .widget) :
        Inv said lost (a.routed (.handle e a.answers) touching) :=
      ⟨⟨hold', hh', howner.trans (iff_of_true hw hw')⟩, h.strip, h.menu⟩
    have hlet (hw' : hold' ≠ .widget) : Inv said lost
        ((a.routed (.handle e a.answers) touching).widgetRelease now (e.pointerPos 0)) := by
      exact widgetRelease_inv hh' (says_of_widget (hw ▸ hto)) hw' h.strip h.menu now _
    unfold TouchRouter.widgetCalls
    rw [if_pos hc]
    cases ha : e.maskedAction with
    | down => exact absurd ha hd
    | up | cancel => exact hlet fun hw' => hkept.mp hw' (by simp [ha])
    | move =>
      exact (hrouted (hkept.mpr (by simp [ha]))).same (widgetDrag_same (e.pointerPos 0))
    | _ => exact hrouted (hkept.mpr (by simp [ha]))
  · -- the widgets hear nothing
    have hcalls : a.touch.router.widgetCalls e = [] := by
      rw [TouchRouter.widgetCalls, if_neg fun hc => hw (hcaptured.mp hc)]
    have hw' : hold' ≠ .widget := fun hno => hw (hlands hd hno)
    rw [hcalls]
    exact ⟨⟨hold', hh', howner.trans (iff_of_false hw hw')⟩, h.strip, h.menu⟩

/-- **One motion event.** -/
lemma Inv.motion [IsStrictOrderedRing R] (h : Inv said lost a) {now : UInt64} {e : MotionEvent R}
    (hs : a.motion now e = some b) : Inv said lost b := by
  by_cases hd : e.maskedAction = .down
  · exact h.motion_down hs hd
  · exact h.motion_later hs hd

end AppUi

end Digitiz
