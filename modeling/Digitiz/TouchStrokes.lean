import Digitiz.Phrases
import Digitiz.Runs
import Digitiz.TouchRouter

/-!
What the router says to the host.

Of all its flags four decide what can be sent, and at most one of them is up: a widget has the
finger, a press is held back, a stroke is open or a slide is under way. That is a small machine of
its own. Every call of the router is one of its steps, with the words the step says; which words
these are is settled here once, and the language of the router follows from them.
-/

namespace Digitiz

namespace Pointer

def relative (m : Pointer) : Bool := m.flags &&& kPointerRelative ≠ 0

/-- A message about a point of the desktop, with its action. -/
def Absolute (a : PointerAction) (m : Pointer) : Prop := m.relative = false ∧ m.action = a

/-- A message that carries a delta, with its action. -/
def Relative (a : PointerAction) (m : Pointer) : Prop := m.relative = true ∧ m.action = a

end Pointer

open Pointer (Absolute Relative)

/-- What the finger on the glass has become. -/
inductive Hold
  | free
  | widget
  | pending
  | stroke
  /-- A slide, and whether it has sent anything. -/
  | slide (moved : Bool)
  deriving DecidableEq

namespace Hold

@[simp] def captured : Hold → Bool
  | .widget => true
  | .free | .pending | .stroke | .slide _ => false

@[simp] def pressed : Hold → Bool
  | .pending => true
  | .free | .widget | .stroke | .slide _ => false

@[simp] def drawing : Hold → Bool
  | .stroke => true
  | .free | .widget | .pending | .slide _ => false

@[simp] def sliding : Hold → Bool
  | .slide _ => true
  | .free | .widget | .pending | .stroke => false

@[simp] def moved : Hold → Bool
  | .slide moved => moved
  | .free | .widget | .pending | .stroke => false

/-- What is left when strokes and slides are given up. -/
@[simp] def rest : Hold → Hold
  | .widget => .widget
  | .free | .pending | .stroke | .slide _ => .free

/-- The modes a hold belongs to. -/
@[simp] def Fits (mode : InputMode) : Hold → Prop
  | .free | .widget => True
  | .pending | .stroke => mode = .draw
  | .slide _ => mode = .slide

end Hold

/-- A step of the machine with the messages it says. -/
inductive Reply : Hold → List Pointer → Hold → Prop
  | keep (h : Hold) : Reply h [] h
  | capture : Reply .free [] .widget
  | land : Reply .free [] .pending
  | slideBegin : Reply .free [] (.slide false)
  | letGo : Reply .widget [] .free
  | drop : Reply .pending [] .free
  | abandon (b : Bool) : Reply (.slide b) [] .free
  | press {d : Pointer} (hd : Absolute .down d) : Reply .pending [d] .stroke
  | pressMove {d m : Pointer} (hd : Absolute .down d) (hm : Absolute .move m) :
      Reply .pending [d, m] .stroke
  | tap {d u : Pointer} (hd : Absolute .down d) (hu : Absolute .up u) : Reply .pending [d, u] .free
  | move {m : Pointer} (hm : Absolute .move m) : Reply .stroke [m] .stroke
  | up {u : Pointer} (hu : Absolute .up u) : Reply .stroke [u] .free
  | cancel {c : Pointer} (hc : Absolute .cancel c) : Reply .stroke [c] .free
  | slideMove (b : Bool) {m : Pointer} (hm : Relative .move m) : Reply (.slide b) [m] (.slide true)
  /-- The last move of a slide, if it is one, and the click of a tap. -/
  | slideClick (b : Bool) {ms : List Pointer} {d u : Pointer} (hms : ms.length ≤ 1)
      (hm : ∀ m ∈ ms, Relative .move m) (hd : Relative .down d) (hu : Relative .up u) :
      Reply (.slide b) (ms ++ [d, u]) .free
  | slideOff (b : Bool) {m : Pointer} (hm : Relative .move m) : Reply (.slide b) [m] .free

namespace TouchRouter

variable {R : Type}

/-- The flags of the router are those of a hold. -/
structure In (r : TouchRouter R) (h : Hold) : Prop where
  captured : r.uiCaptured = h.captured
  pressed : r.pressPending = h.pressed
  drawing : r.strokeActive = h.drawing
  sliding : r.slideActive = h.sliding
  moved : h.sliding = true → r.slideStartedSent = h.moved
  fits : h.Fits r.mode

/-- The router goes from one hold to another and says the words for it. -/
def Goes (r r' : TouchRouter R) (h h' : Hold) : Prop :=
  r'.In h' ∧ ∃ out, r'.sent = r.sent ++ out ∧ Reply h out h'

variable {r r' : TouchRouter R} {h h' : Hold}

/-- A call that says nothing and leads to another hold. -/
lemma Goes.silent (hin : r'.In h') (hsent : r'.sent = r.sent) (hr : Reply h [] h') :
    Goes r r' h h' := ⟨hin, [], by simpa using hsent, hr⟩

/-- A call that leaves alone what decides about messages. -/
lemma In.keep (hin : r.In h) (hc : r'.uiCaptured = r.uiCaptured)
    (hp : r'.pressPending = r.pressPending) (hd : r'.strokeActive = r.strokeActive)
    (hl : r'.slideActive = r.slideActive) (hm : r'.slideStartedSent = r.slideStartedSent)
    (hf : r'.mode = r.mode) : r'.In h where
  captured := hc.trans hin.captured
  pressed := hp.trans hin.pressed
  drawing := hd.trans hin.drawing
  sliding := hl.trans hin.sliding
  moved hs := hm.trans (hin.moved hs)
  fits := hf ▸ hin.fits

/-- Only a slide has to do with what was sent in it. -/
lemma In.of_not_sliding (hn : h.sliding = false) (hc : r.uiCaptured = h.captured)
    (hp : r.pressPending = h.pressed) (hd : r.strokeActive = h.drawing)
    (hl : r.slideActive = false) (hf : h.Fits r.mode) : r.In h where
  captured := hc
  pressed := hp
  drawing := hd
  sliding := hl.trans hn.symm
  moved hs := absurd (hn.symm.trans hs) Bool.false_ne_true
  fits := hf

/-- With every flag down the router holds on to nothing. -/
lemma In.free_of (hc : r.uiCaptured = false) (hp : r.pressPending = false)
    (hd : r.strokeActive = false) (hl : r.slideActive = false) : r.In .free :=
  .of_not_sliding rfl hc hp hd hl trivial

lemma goes_self (hin : r.In h) : Goes r r h h := .silent hin rfl (.keep h)

lemma emitRelative_sent (r : TouchRouter R) (a : PointerAction) (dx dy : Int32) (t : UInt64) :
    ∃ m, Relative a m ∧ (r.emitRelative a dx dy t).sent = r.sent ++ [m] := by
  refine ⟨_, ⟨?_, rfl⟩, rfl⟩
  cases r.slideStartedSent <;> simp [Pointer.relative] <;> decide

/-- Letting go of a widget leaves a touch nobody has. -/
lemma cancelUiCapture_goes (hin : r.In h) :
    Goes r r.cancelUiCapture h (if h.captured then .free else h) := by
  cases h with
  | widget => exact .silent (.free_of rfl hin.pressed hin.drawing hin.sliding) rfl .letGo
  | free | pending | stroke | slide b =>
    exact .silent (hin.keep hin.captured.symm rfl rfl rfl rfl rfl) rfl (.keep _)

variable [Field R]

lemma init_in (view : ViewTransform R) : (init view).In .free := .free_of rfl rfl rfl rfl

lemma dragWidget_goes (hin : r.In h) (e : MotionEvent R) (ans : Answers R) :
    Goes r (r.dragWidget e ans) h h := by
  unfold dragWidget
  split_ifs
  all_goals exact .silent (hin.keep rfl rfl rfl rfl rfl rfl) rfl (.keep _)

lemma releaseWidget_goes (hin : r.In .widget) (e : MotionEvent R) (ans : Answers R) :
    Goes r (r.releaseWidget e ans) .widget .free := by
  unfold releaseWidget
  split_ifs
  all_goals exact .silent (.free_of rfl hin.pressed hin.drawing hin.sliding) rfl .letGo

variable [FloatOps R]

lemma emit_sent (r : TouchRouter R) (a : PointerAction) (p : Point R) (t : UInt64) :
    ∃ m, Absolute a m ∧ (r.emit a p t).sent = r.sent ++ [m] :=
  ⟨_, ⟨by simp [Pointer.relative], rfl⟩, rfl⟩

/-- Without a stroke there is nothing to tell the host. -/
lemma cancelStroke_of_not_drawing (hd : r.strokeActive = false) :
    r.cancelStroke = { r with pressPending := false } := by
  simp [cancelStroke, hd]

/-- A cancelled stroke is closed, a press that was held back is dropped, all else stays. -/
lemma cancelStroke_goes (hin : r.In h) :
    Goes r r.cancelStroke h (if h.pressed ∨ h.drawing then .free else h) := by
  cases h with
  | stroke =>
    obtain ⟨c, hc, hs⟩ := emit_sent { r with pressPending := false } .cancel r.lastSent r.lastSentUs
    have he : r.cancelStroke =
        { { r with pressPending := false }.emit .cancel r.lastSent r.lastSentUs with
          strokeActive := false, strokePointerId := -1 } := by
      simp [cancelStroke, hin.drawing]
    exact ⟨he ▸ .free_of hin.captured rfl rfl hin.sliding, [c], he ▸ hs, .cancel hc⟩
  | pending =>
    rw [cancelStroke_of_not_drawing hin.drawing]
    exact .silent (.free_of hin.captured rfl hin.drawing hin.sliding) rfl .drop
  | free | widget | slide b =>
    rw [cancelStroke_of_not_drawing hin.drawing]
    exact .silent (hin.keep rfl hin.pressed.symm rfl rfl rfl rfl) rfl (.keep _)

/-- Cancelling a stroke and giving up a slide leaves at most a widget with the finger. -/
lemma cancelAll_goes (hin : r.In h) (mode : InputMode) :
    Goes r { r.cancelStroke with mode := mode, gestureActive := false, slideActive := false }
      h h.rest := by
  obtain ⟨hin', out, hsent, hrep⟩ := cancelStroke_goes hin
  cases h with
  | slide b =>
    rw [cancelStroke_of_not_drawing hin.drawing]
    exact .silent (.free_of hin.captured rfl hin.drawing rfl) rfl (.abandon b)
  | widget =>
    exact ⟨.of_not_sliding rfl hin'.captured hin'.pressed hin'.drawing rfl trivial, out, hsent,
      hrep⟩
  | free | pending | stroke =>
    exact ⟨.free_of hin'.captured hin'.pressed hin'.drawing rfl, out, hsent, hrep⟩

/-- Without a stroke a change of mode has nothing to tell the host. -/
lemma setMode_silent (hd : r.strokeActive = false) (mode : InputMode) :
    (r.setMode mode).sent = r.sent := by
  unfold setMode
  rw [cancelStroke_of_not_drawing hd]
  split_ifs <;> rfl

lemma setMode_goes (hin : r.In h) (mode : InputMode) :
    Goes r (r.setMode mode) h (if r.mode = mode then h else h.rest) := by
  unfold setMode
  split_ifs
  · exact goes_self hin
  · exact cancelAll_goes hin mode

/-! ### Events -/

/-- The hold a finger that lands on the glass can come to. -/
lemma onDown_goes (hin : r.In .free) (e : MotionEvent R) (ans : Answers R) :
    ∃ h', Goes r (r.onDown e ans) .free h' := by
  unfold onDown
  dsimp only
  split_ifs with hhit hpan hdraw hslide hoff
  · exact ⟨.widget, .silent
      (.of_not_sliding rfl rfl hin.pressed hin.drawing hin.sliding trivial) rfl .capture⟩
  · exact ⟨.free, .silent (hin.keep rfl rfl rfl rfl rfl rfl) rfl (.keep _)⟩
  · exact ⟨.free, .silent (hin.keep rfl rfl rfl rfl rfl rfl) rfl (.keep _)⟩
  · exact ⟨.slide false, .silent ⟨hin.captured, hin.pressed, hin.drawing, rfl, fun _ => rfl, hslide⟩
      rfl .slideBegin⟩
  · exact ⟨.free, goes_self hin⟩
  · have hmode : r.mode = .draw := by
      cases hm : r.mode with
      | draw => rfl
      | slide => exact absurd hm hslide
      | pan => exact absurd hm hpan
    exact ⟨.pending, .silent (.of_not_sliding rfl hin.captured rfl hin.drawing hin.sliding hmode) rfl
      .land⟩

/-- A second finger ends whatever the first was at, a widget's touch apart. -/
lemma onPointerDown_goes (hin : r.In h) (e : MotionEvent R) :
    Goes r (r.onPointerDown e) h h.rest := by
  cases h with
  | free | widget =>
    have he : r.onPointerDown e = r.beginGesture e none := by
      simp [onPointerDown, hin.pressed, hin.drawing, hin.sliding]
    exact .silent (he ▸ hin.keep rfl rfl rfl rfl rfl rfl) (he ▸ rfl) (.keep _)
  | pending =>
    have he : r.onPointerDown e =
        { r with pressPending := false, strokePointerId := -1 }.beginGesture e none := by
      simp [onPointerDown, hin.pressed, hin.drawing, hin.sliding]
    exact .silent (he ▸ .free_of hin.captured rfl hin.drawing hin.sliding) (he ▸ rfl) .drop
  | stroke =>
    obtain ⟨c, hc, hs⟩ := emit_sent r .cancel r.lastSent e.tUs
    have he : r.onPointerDown e =
        { r.emit .cancel r.lastSent e.tUs with
          strokeActive := false, strokePointerId := -1 }.beginGesture e none := by
      have hl : (r.emit .cancel r.lastSent e.tUs).slideActive = false := hin.sliding
      simp [onPointerDown, hin.pressed, hin.drawing, hl]
    exact ⟨he ▸ .free_of hin.captured hin.pressed rfl hin.sliding, [c], he ▸ hs, .cancel hc⟩
  | slide b =>
    have he : r.onPointerDown e =
        { r with slideActive := false, strokePointerId := -1 }.beginGesture e none := by
      simp [onPointerDown, hin.pressed, hin.drawing, hin.sliding]
    exact .silent (he ▸ .free_of hin.captured hin.pressed hin.drawing rfl) (he ▸ rfl) (.abandon b)

/-- Without a stroke a second finger has nothing to take back. -/
lemma onPointerDown_silent (hd : r.strokeActive = false) (e : MotionEvent R) :
    (r.onPointerDown e).sent = r.sent := by
  cases hp : r.pressPending <;> cases hl : r.slideActive <;>
    simp [onPointerDown, beginGesture, hp, hd, hl]

/-- A finger that lifts off others leaves every hold as it is. -/
lemma onPointerUp_goes (hin : r.In h) (e : MotionEvent R) : Goes r (r.onPointerUp e) h h := by
  unfold onPointerUp
  split_ifs
  all_goals exact .silent (hin.keep rfl rfl rfl rfl rfl rfl) rfl (.keep _)

lemma onCancel_goes (hin : r.In h) (e : MotionEvent R) (ans : Answers R) :
    Goes r (r.onCancel e ans) h .free := by
  obtain ⟨hin', out, hs, hrep⟩ := cancelAll_goes hin r.cancelStroke.mode
  unfold onCancel
  dsimp only
  cases h with
  | widget =>
    rw [if_pos (by simpa using hin'.captured)]
    obtain ⟨hfree, out', hs', hrep'⟩ := releaseWidget_goes hin' e ans
    obtain rfl : out = [] := by cases hrep; rfl
    obtain rfl : out' = [] := by cases hrep'; rfl
    exact ⟨hfree, [], by rw [hs', hs]; simp, .letGo⟩
  | free | pending | stroke | slide b =>
    rw [if_neg (by simpa using hin'.captured)]
    exact ⟨hin', out, hs, hrep⟩

/-- Without a stroke a touch the system takes away has nothing to tell the host. -/
lemma onCancel_silent (hd : r.strokeActive = false) (e : MotionEvent R) (ans : Answers R) :
    (r.onCancel e ans).sent = r.sent := by
  unfold onCancel releaseWidget
  rw [cancelStroke_of_not_drawing hd]
  dsimp only
  split_ifs <;> rfl

/-- A press that is sent opens the stroke. -/
lemma flushPress_opens (hin : r.In .pending) :
    r.flushPress.In .stroke ∧ ∃ d, Absolute .down d ∧ r.flushPress.sent = r.sent ++ [d] := by
  let r' := { r with
    pressPending := false, strokeActive := true, lastSent := r.pressP, lastSentUs := r.pressUs }
  have he : r.flushPress = r'.emit .down r.pressP r.pressUs := if_neg (by simp [hin.pressed])
  rw [he]
  exact ⟨.of_not_sliding rfl hin.captured rfl rfl hin.sliding hin.fits, emit_sent r' _ _ _⟩

/-- The release of a stroke. -/
lemma endStroke_releases (hin : r.In .stroke) (e : MotionEvent R) (ans : Answers R) :
    (r.endStroke e ans).uiCaptured = false ∧ (r.endStroke e ans).pressPending = false ∧
    ∃ u, Absolute .up u ∧ (r.endStroke e ans).sent = r.sent ++ [u] := by
  unfold endStroke
  rw [if_pos (by simp [hin.drawing])]
  exact ⟨hin.captured, hin.pressed, emit_sent _ _ _ _⟩

variable [LinearOrder R]

lemma moveHeld_opens (hin : r.In .pending) (e : MotionEvent R) : r.moveHeld e = r ∨
    ((r.moveHeld e).In .stroke ∧ ∃ d, Absolute .down d ∧ (r.moveHeld e).sent = r.sent ++ [d]) := by
  unfold moveHeld
  rw [if_pos (show r.pressPending = true from hin.pressed)]
  split
  · split_ifs
    · exact .inr (flushPress_opens hin)
    · exact .inl rfl
  · exact .inl rfl

lemma moveStroke_moves (hin : r.In .stroke) (e : MotionEvent R) (ans : Answers R) :
    r.moveStroke e ans = r ∨ ((r.moveStroke e ans).In .stroke ∧
      ∃ m, Absolute .move m ∧ (r.moveStroke e ans).sent = r.sent ++ [m]) := by
  unfold moveStroke
  split
  · dsimp only
    split_ifs
    · exact .inl rfl
    · exact .inl rfl
    · exact .inr ⟨hin.keep rfl rfl rfl rfl rfl rfl, emit_sent _ _ _ _⟩
  · exact .inl rfl

/-- A move to this point does not come to a whole pixel. -/
def slideStill (r : TouchRouter R) (p : Point R) : Bool :=
  trunc (r.slideWanted p).x = 0 ∧ trunc (r.slideWanted p).y = 0

/-- A move of a slide sends a delta when a whole pixel came together, and nothing otherwise. -/
lemma slideMove_sent (r : TouchRouter R) (p : Point R) (t : UInt64) :
    (r.slideStill p = true ∧ (r.slideMove p t).sent = r.sent ∧
      (r.slideMove p t).slideStartedSent = r.slideStartedSent) ∨
    (r.slideStill p = false ∧ (r.slideMove p t).slideStartedSent = true ∧
      ∃ m, Relative .move m ∧ (r.slideMove p t).sent = r.sent ++ [m]) := by
  unfold slideMove slideStill
  dsimp only
  split_ifs with hstill
  · exact .inl ⟨by simpa using hstill, rfl, rfl⟩
  · exact .inr ⟨by simpa using hstill, rfl, emitRelative_sent _ _ _ _ _⟩

/-- A slide moves nothing but its own fields. -/
lemma slideMove_keeps (r : TouchRouter R) (p : Point R) (t : UInt64) :
    (r.slideMove p t).uiCaptured = r.uiCaptured ∧ (r.slideMove p t).pressPending = r.pressPending ∧
    (r.slideMove p t).strokeActive = r.strokeActive ∧
    (r.slideMove p t).slideActive = r.slideActive ∧ (r.slideMove p t).mode = r.mode := by
  unfold slideMove
  dsimp only
  split_ifs
  all_goals exact ⟨rfl, rfl, rfl, rfl, rfl⟩

lemma slideMove_goes {b : Bool} (hin : r.In (.slide b)) (p : Point R) (t : UInt64) :
    Goes r (r.slideMove p t) (.slide b) (.slide (b || !r.slideStill p)) := by
  obtain ⟨hc, hp, hd, hl, hm⟩ := slideMove_keeps r p t
  have hflags (b' : Bool) (hb : (r.slideMove p t).slideStartedSent = b') :
      (r.slideMove p t).In (.slide b') :=
    ⟨hc.trans hin.captured, hp.trans hin.pressed, hd.trans hin.drawing, hl.trans hin.sliding,
      fun _ => hb, hm.trans hin.fits⟩
  obtain ⟨hstill, hs, hst⟩ | ⟨hstill, hst, m, hrel, hs⟩ := slideMove_sent r p t
  · simp only [hstill, Bool.not_true, Bool.or_false]
    exact .silent (hflags b (hst.trans (hin.moved rfl))) hs (.keep _)
  · simp only [hstill, Bool.not_false, Bool.or_true]
    exact ⟨hflags true hst, [m], hs, .slideMove b hrel⟩

/-- The touch of a slide that ends at this point and time was brief and stayed put. -/
def endsAsTap (r : TouchRouter R) (p : Point R) (t : UInt64) : Bool :=
  t - r.slideOriginUs ≤ kTapMaxUs &&
    r.slideTravel + MotionEvent.norm (p - r.slideLast) ≤ kTapSlopDp * r.density

lemma isTap_slideMove (r : TouchRouter R) (p : Point R) (t : UInt64) :
    (r.slideMove p t).isTap t = r.endsAsTap p t := by
  unfold slideMove
  dsimp only
  split_ifs <;> rfl

/-- The end of a slide: its last move, and a click if it was a tap. -/
lemma slideEnd_sent (r : TouchRouter R) (p : Point R) (t : UInt64) :
    (r.endsAsTap p t = false ∧ (r.slideEnd p t).sent = (r.slideMove p t).sent) ∨
    (r.endsAsTap p t = true ∧ ∃ d u, Relative .down d ∧ Relative .up u ∧
      (r.slideEnd p t).sent = (r.slideMove p t).sent ++ [d, u]) := by
  unfold slideEnd
  dsimp only
  rw [isTap_slideMove]
  cases r.endsAsTap p t with
  | false => exact .inl ⟨rfl, rfl⟩
  | true =>
    let r' := { r.slideMove p t with slideActive := false }
    obtain ⟨d, hd, hds⟩ := emitRelative_sent r' .down 0 0 t
    obtain ⟨u, hu, hus⟩ := emitRelative_sent (r'.emitRelative .down 0 0 t) .up 0 0 t
    refine .inr ⟨rfl, d, u, hd, hu, ?_⟩
    calc ((r'.emitRelative .down 0 0 t).emitRelative .up 0 0 t).sent
        = (r.slideMove p t).sent ++ [d] ++ [u] := by rw [hus, hds]
      _ = (r.slideMove p t).sent ++ [d, u] := by simp

lemma slideEnd_keeps (r : TouchRouter R) (p : Point R) (t : UInt64) :
    (r.slideEnd p t).uiCaptured = r.uiCaptured ∧ (r.slideEnd p t).pressPending = r.pressPending ∧
    (r.slideEnd p t).strokeActive = r.strokeActive := by
  obtain ⟨hc, hp, hd, -, -⟩ := slideMove_keeps r p t
  unfold slideEnd
  dsimp only
  split_ifs
  all_goals exact ⟨hc, hp, hd⟩

/-- What a slide says when it ends. -/
lemma slideEnd_reply (b : Bool) (r : TouchRouter R) (p : Point R) (t : UInt64) :
    ∃ out, (r.slideEnd p t).sent = r.sent ++ out ∧ Reply (.slide b) out .free := by
  have hmove : ∃ ms, (r.slideMove p t).sent = r.sent ++ ms ∧
      (ms = [] ∨ ∃ m, Relative .move m ∧ ms = [m]) := by
    obtain ⟨-, hs, -⟩ | ⟨-, -, m, hm, hs⟩ := slideMove_sent r p t
    · exact ⟨[], by simpa using hs, .inl rfl⟩
    · exact ⟨[m], hs, .inr ⟨m, hm, rfl⟩⟩
  obtain ⟨ms, hms, hcase⟩ := hmove
  obtain ⟨-, hs⟩ | ⟨-, d, u, hd, hu, hs⟩ := slideEnd_sent r p t
  · refine ⟨ms, hs.trans hms, ?_⟩
    obtain rfl | ⟨m, hm, rfl⟩ := hcase
    · exact .abandon b
    · exact .slideOff b hm
  · refine ⟨ms ++ [d, u], by rw [hs, hms, List.append_assoc], ?_⟩
    obtain rfl | ⟨m, hm, rfl⟩ := hcase
    · exact .slideClick b (by simp) (by simp) hd hu
    · exact .slideClick b (by simp) (by simpa using hm) hd hu

/-- A move that is not about a widget, the view or a slide. -/
lemma onMove_of_one_finger (hc : r.uiCaptured = false) (hg : r.gestureActive = false)
    (hl : r.slideActive = false) (e : MotionEvent R) (ans : Answers R) : r.onMove e ans =
      if !(r.moveHeld e).strokeActive then r.moveHeld e else (r.moveHeld e).moveStroke e ans := by
  simp only [onMove, hc, hg, hl, Bool.false_eq_true, if_false]

/-- A press that is held back stays so, or opens the stroke and may move it at once. -/
lemma onMove_pending (hin : r.In .pending) (hg : r.gestureActive = false) (e : MotionEvent R)
    (ans : Answers R) : ∃ h', Goes r (r.onMove e ans) .pending h' ∧ h'.sliding = false := by
  rw [onMove_of_one_finger hin.captured hg hin.sliding]
  obtain hkeep | ⟨hin', d, hd, hs⟩ := moveHeld_opens hin e
  · rw [hkeep, if_pos (by simpa using hin.drawing)]
    exact ⟨.pending, goes_self hin, rfl⟩
  · rw [if_neg (by simpa using hin'.drawing)]
    obtain hkeep | ⟨hin'', m, hm, hs'⟩ := moveStroke_moves hin' e ans
    · rw [hkeep]
      exact ⟨.stroke, ⟨hin', [d], hs, .press hd⟩, rfl⟩
    · have hsent : ((r.moveHeld e).moveStroke e ans).sent = r.sent ++ [d, m] := by
        rw [hs', hs, List.append_assoc]; rfl
      exact ⟨.stroke, ⟨hin'', [d, m], hsent, .pressMove hd hm⟩, rfl⟩

lemma onMove_stroke (hin : r.In .stroke) (hg : r.gestureActive = false) (e : MotionEvent R)
    (ans : Answers R) : Goes r (r.onMove e ans) .stroke .stroke := by
  have hheld : r.moveHeld e = r := if_neg (by simp [hin.pressed])
  rw [onMove_of_one_finger hin.captured hg hin.sliding, hheld, if_neg (by simpa using hin.drawing)]
  obtain hkeep | ⟨hin', m, hm, hs⟩ := moveStroke_moves hin e ans
  · rw [hkeep]
    exact goes_self hin
  · exact ⟨hin', [m], hs, .move hm⟩

lemma onMove_slide {b : Bool} (hin : r.In (.slide b)) (hg : r.gestureActive = false)
    (e : MotionEvent R) (ans : Answers R) :
    ∃ h', Goes r (r.onMove e ans) (.slide b) h' ∧ h'.sliding = true := by
  unfold onMove
  rw [if_neg (by simp [hin.captured]), if_neg (by simp [hg]), if_pos (by simp [hin.sliding])]
  split
  · exact ⟨_, slideMove_goes hin _ _, rfl⟩
  · exact ⟨_, goes_self hin, rfl⟩

lemma onMove_free (hin : r.In .free) (hg : r.gestureActive = false) (e : MotionEvent R)
    (ans : Answers R) : r.onMove e ans = r := by
  have hheld : r.moveHeld e = r := if_neg (by simp [hin.pressed])
  rw [onMove_of_one_finger hin.captured hg hin.sliding, hheld, if_pos (by simpa using hin.drawing)]

lemma onMove_goes (hin : r.In h) (e : MotionEvent R) (ans : Answers R) :
    ∃ h', Goes r (r.onMove e ans) h h' ∧ (h = .free → h' = .free) ∧ h'.sliding = h.sliding := by
  by_cases hw : h = .widget
  · subst hw
    have he : r.onMove e ans = r.dragWidget e ans := if_pos hin.captured
    exact ⟨.widget, he ▸ dragWidget_goes hin e ans, by simp, rfl⟩
  · have hc : r.uiCaptured = false := by cases h <;> first | exact hin.captured | contradiction
    cases hg : r.gestureActive with
    | true =>
      -- while a gesture is under way a move is about the view
      have he : r.onMove e ans = r.updateGesture e none := by simp [onMove, hc, hg]
      exact ⟨h, .silent (he ▸ hin.keep rfl rfl rfl rfl rfl rfl) (he ▸ rfl) (.keep _), id, rfl⟩
    | false =>
      cases h with
      | widget => contradiction
      | free => exact ⟨.free, (onMove_free hin hg e ans).symm ▸ goes_self hin, id, rfl⟩
      | pending =>
        obtain ⟨h', hgo, hs⟩ := onMove_pending hin hg e ans
        exact ⟨h', hgo, by simp, hs⟩
      | stroke => exact ⟨.stroke, onMove_stroke hin hg e ans, by simp, rfl⟩
      | slide b =>
        obtain ⟨h', hgo, hs⟩ := onMove_slide hin hg e ans
        exact ⟨h', hgo, by simp, hs⟩

/-- The last finger lifts off a slide. -/
lemma onUp_slide {b : Bool} (hin : r.In (.slide b)) (e : MotionEvent R) (ans : Answers R) :
    r.onUp e ans = { r.slideEnd (e.pointerPos e.pointerIndex) e.tUs with
      strokeActive := false, gestureActive := false, slideActive := false
      strokePointerId := -1 } := by
  obtain ⟨-, hp, hd⟩ := slideEnd_keeps r (e.pointerPos e.pointerIndex) e.tUs
  simp [onUp, endStroke, hin.captured, hin.sliding, hp.trans hin.pressed, hd.trans hin.drawing]

/-- The last finger lifts, and nothing is held any more. -/
lemma onUp_goes (hin : r.In h) (e : MotionEvent R) (ans : Answers R) :
    Goes r (r.onUp e ans) h .free := by
  cases h with
  | widget =>
    have he : r.onUp e ans = r.releaseWidget e ans := if_pos hin.captured
    exact he ▸ releaseWidget_goes hin e ans
  | free =>
    have he : r.onUp e ans = { r with
        strokeActive := false, gestureActive := false, slideActive := false
        strokePointerId := -1 } := by
      simp [onUp, endStroke, hin.captured, hin.pressed, hin.drawing, hin.sliding]
    exact .silent (he ▸ .free_of hin.captured hin.pressed rfl rfl) (he ▸ rfl) (.keep _)
  | slide b =>
    let p := e.pointerPos e.pointerIndex
    obtain ⟨hc, hp, -⟩ := slideEnd_keeps r p e.tUs
    obtain ⟨out, hs, hrep⟩ := slideEnd_reply b r p e.tUs
    rw [onUp_slide hin]
    exact ⟨.free_of (hc.trans hin.captured) (hp.trans hin.pressed) rfl rfl, out, hs, hrep⟩
  | pending =>
    -- a tap: the press is sent now, so that the order on the wire is still down and then up
    obtain ⟨hin', d, hd, hs⟩ := flushPress_opens hin
    obtain ⟨hc, hp, u, hu, hs'⟩ := endStroke_releases hin' e ans
    have he : r.onUp e ans = { r.flushPress.endStroke e ans with
        strokeActive := false, gestureActive := false, slideActive := false
        strokePointerId := -1 } := by
      simp [onUp, hin.captured, hin.sliding, hin.pressed]
    refine ⟨he ▸ .free_of hc hp rfl rfl, [d, u], ?_, .tap hd hu⟩
    rw [he]
    calc (r.flushPress.endStroke e ans).sent = r.sent ++ [d] ++ [u] := by rw [hs', hs]
      _ = r.sent ++ [d, u] := by simp
  | stroke =>
    obtain ⟨hc, hp, u, hu, hs⟩ := endStroke_releases hin e ans
    have he : r.onUp e ans = { r.endStroke e ans with
        strokeActive := false, gestureActive := false, slideActive := false
        strokePointerId := -1 } := by
      simp [onUp, hin.captured, hin.sliding, hin.pressed]
    exact ⟨he ▸ .free_of hc hp rfl rfl, [u], he ▸ hs, .up hu⟩

end TouchRouter

end Digitiz
