import Digitiz.TouchRouter
import Mathlib.Algebra.Order.Field.Basic
import Mathlib.Tactic.NormNum
import Mathlib.Tactic.Ring

/-!
The view under the fingers.

A pinch is a pan by the way of the centroid and then a zoom about it. Both keep the desktop point
that was under the fingers where it is, whatever becomes of the scale. No finger moves the view by
landing or lifting, and the scale never leaves its range, so that the view can be turned around.
-/

namespace Digitiz

namespace ViewTransform

variable {R : Type}

/-! ### Points that stay -/

section points

variable [Field R]

/-- There and back. -/
lemma toPc_toSurface {v : ViewTransform R} (h : v.scale ≠ 0) (q : Point R) :
    v.toPc (v.toSurface q) = q := by
  ext
  · exact (congrArg (· + v.pan.x) (mul_div_cancel_right₀ _ h)).trans (sub_add_cancel _ _)
  · exact (congrArg (· + v.pan.y) (mul_div_cancel_right₀ _ h)).trans (sub_add_cancel _ _)

lemma toSurface_toPc {v : ViewTransform R} (h : v.scale ≠ 0) (q : Point R) :
    v.toSurface (v.toPc q) = q := by
  ext
  · exact (congrArg (· * v.scale) (add_sub_cancel_right _ _)).trans (div_mul_cancel₀ _ h)
  · exact (congrArg (· * v.scale) (add_sub_cancel_right _ _)).trans (div_mul_cancel₀ _ h)

/-- A pan takes the point along. -/
lemma toPc_panBy (v : ViewTransform R) (a b : Point R) :
    (v.panBy (b - a)).toPc b = v.toPc a := by
  have hpan (x y : R) (pan : R) : y / v.scale + (pan - (y - x) / v.scale) = x / v.scale + pan := by
    ring
  ext
  · exact hpan _ _ _
  · exact hpan _ _ _

/-- A zoom keeps the point under its anchor, whatever the scale becomes. -/
lemma toPc_zoomAbout [LinearOrder R] (v : ViewTransform R) (a : Point R) (factor : R) :
    (v.zoomAbout a factor).toPc a = v.toPc a := by
  ext
  · exact add_sub_cancel _ _
  · exact add_sub_cancel _ _

end points

/-! ### The range of the scale -/

lemma clamp_mem [LinearOrder R] {lo hi : R} (h : lo ≤ hi) (q : R) :
    lo ≤ clamp q lo hi ∧ clamp q lo hi ≤ hi := by
  unfold clamp
  split_ifs with hlo hhi
  · exact ⟨le_rfl, h⟩
  · exact ⟨h, le_rfl⟩
  · exact ⟨not_lt.mp hlo, not_lt.mp hhi⟩

section range

variable [Field R] [LinearOrder R]

/-- The scale is in its range. -/
def InRange (v : ViewTransform R) : Prop := kMinScale ≤ v.scale ∧ v.scale ≤ kMaxScale

variable [IsStrictOrderedRing R]

lemma kMinScale_pos : (0 : R) < kMinScale := by
  unfold kMinScale
  norm_num

lemma one_inRange : (kMinScale : R) ≤ 1 ∧ (1 : R) ≤ kMaxScale := by
  unfold kMinScale kMaxScale
  norm_num

lemma kMinScale_le_kMaxScale : (kMinScale : R) ≤ kMaxScale := one_inRange.1.trans one_inRange.2

lemma init_inRange : (init : ViewTransform R).InRange := one_inRange

lemma fit_inRange {v : ViewTransform R} (h : v.InRange) (rect : Recti) (w k margin : R) :
    (v.fit rect w k margin).InRange := by
  unfold fit
  split_ifs
  · exact h
  · exact clamp_mem kMinScale_le_kMaxScale _

lemma set_inRange (v : ViewTransform R) (scale : R) (pan : Point R) : (v.set scale pan).InRange :=
  clamp_mem kMinScale_le_kMaxScale scale

lemma zoomAbout_inRange (v : ViewTransform R) (a : Point R) (factor : R) :
    (v.zoomAbout a factor).InRange :=
  clamp_mem kMinScale_le_kMaxScale _

lemma InRange.scale_ne_zero {v : ViewTransform R} (h : v.InRange) : v.scale ≠ 0 :=
  (kMinScale_pos.trans_le h.1).ne'

end range

end ViewTransform

variable {R : Type} [Field R]

namespace TouchRouter

open MotionEvent ViewTransform

/-! ### What leaves the view alone -/

variable (r : TouchRouter R) (e : MotionEvent R) (ans : Answers R)

lemma dragWidget_view : (r.dragWidget e ans).view = r.view := by
  unfold dragWidget
  split_ifs <;> rfl

lemma releaseWidget_view : (r.releaseWidget e ans).view = r.view := by
  unfold releaseWidget
  split_ifs <;> rfl

variable [FloatOps R]

lemma flushPress_view : r.flushPress.view = r.view := by
  unfold flushPress
  split_ifs <;> rfl

lemma cancelStroke_view : r.cancelStroke.view = r.view := by
  unfold cancelStroke
  dsimp only
  split_ifs <;> rfl

lemma setMode_view (mode : InputMode) : (r.setMode mode).view = r.view := by
  unfold setMode
  split_ifs
  · rfl
  · exact cancelStroke_view r

lemma onDown_view : (r.onDown e ans).view = r.view := by
  unfold onDown
  dsimp only
  split_ifs <;> rfl

lemma onPointerDown_view : (r.onPointerDown e).view = r.view := by
  unfold onPointerDown beginGesture
  dsimp only
  split_ifs <;> rfl

lemma onPointerUp_view : (r.onPointerUp e).view = r.view := by
  unfold onPointerUp
  split_ifs <;> rfl

lemma endStroke_view : (r.endStroke e ans).view = r.view := by
  unfold endStroke
  split_ifs <;> rfl

lemma onCancel_view : (r.onCancel e ans).view = r.view := by
  unfold onCancel
  dsimp only
  split_ifs
  · exact (releaseWidget_view _ e ans).trans (cancelStroke_view r)
  · exact cancelStroke_view r

variable [LinearOrder R]

lemma slideMove_view (p : Point R) (tUs : UInt64) : (r.slideMove p tUs).view = r.view := by
  unfold slideMove
  dsimp only
  split_ifs <;> rfl

lemma slideEnd_view (p : Point R) (tUs : UInt64) : (r.slideEnd p tUs).view = r.view := by
  unfold slideEnd
  dsimp only
  split_ifs
  · exact slideMove_view r p tUs
  · exact slideMove_view r p tUs

lemma moveHeld_view : (r.moveHeld e).view = r.view := by
  unfold moveHeld
  split_ifs
  · cases e.find r.strokePointerId with
    | none => rfl
    | some p =>
      dsimp only
      split_ifs
      · exact flushPress_view r
      · rfl
  · rfl

lemma moveStroke_view : (r.moveStroke e ans).view = r.view := by
  unfold moveStroke
  cases e.find r.strokePointerId with
  | none => rfl
  | some p =>
    dsimp only
    split_ifs <;> rfl

lemma onUp_view : (r.onUp e ans).view = r.view := by
  have hslide : (if r.slideActive then r.slideEnd (e.pointerPos e.pointerIndex) e.tUs
      else r).view = r.view := by
    split_ifs
    · exact slideEnd_view r _ _
    · rfl
  have hflush : ∀ s : TouchRouter R, (if s.pressPending then s.flushPress else s).view = s.view :=
    fun s => by
      split_ifs
      · exact flushPress_view s
      · rfl
  unfold onUp
  by_cases hui : r.uiCaptured
  · rw [if_pos hui]
    exact releaseWidget_view r e ans
  · rw [if_neg hui]
    exact (endStroke_view _ e ans).trans ((hflush _).trans hslide)

/-- **Only a gesture that goes on moves the view.** -/
theorem handle_view : (r.handle e ans).view = r.view ∨
    e.maskedAction = .move ∧ (r.handle e ans).view = (r.updateGesture e none).view := by
  unfold handle
  cases e.maskedAction with
  | down => exact Or.inl (onDown_view r e ans)
  | pointerDown => exact Or.inl (onPointerDown_view r e)
  | pointerUp => exact Or.inl (onPointerUp_view r e)
  | up => exact Or.inl (onUp_view r e ans)
  | cancel => exact Or.inl (onCancel_view r e ans)
  | other => exact Or.inl rfl
  | move =>
    dsimp only
    unfold onMove
    split_ifs
    · exact Or.inl (dragWidget_view r e ans)
    · exact Or.inr ⟨rfl, rfl⟩
    · cases e.find r.strokePointerId with
      | none => exact Or.inl rfl
      | some p => exact Or.inl (slideMove_view r p.pos e.tUs)
    · left
      dsimp only
      split_ifs
      · exact moveHeld_view r e
      · exact (moveStroke_view _ e ans).trans (moveHeld_view r e)

/-! ### What a gesture does to it -/

/-- **A pinch stays attached.** What was under the old centroid is under the new one. -/
theorem toPc_updateGesture (r : TouchRouter R) (e : MotionEvent R) (exclude : Option ℕ) :
    (r.updateGesture e exclude).view.toPc (r.updateGesture e exclude).gestureCentroid =
      r.view.toPc r.gestureCentroid := by
  have hpan := toPc_panBy r.view r.gestureCentroid (e.centroidOf exclude)
  rw [← hpan]
  dsimp only [updateGesture]
  split_ifs
  · exact toPc_zoomAbout _ _ _
  · rfl

lemma updateGesture_inRange [IsStrictOrderedRing R] {r : TouchRouter R} (h : r.view.InRange)
    (e : MotionEvent R) (exclude : Option ℕ) : (r.updateGesture e exclude).view.InRange := by
  dsimp only [updateGesture]
  split_ifs
  · exact zoomAbout_inRange _ _ _
  · exact h

end TouchRouter

/-! ### Runs -/

/-- What can be done to a view, by the app and by the fingers. -/
inductive ViewAct (R : Type)
  | fit (rect : Recti) (surfaceW surfaceH margin : R)
  | set (scale : R) (pan : Point R)
  | panBy (surfaceDelta : Point R)
  | zoomAbout (surfaceAnchor : Point R) (factor : R)
  | setMode (mode : InputMode)
  | beginGesture (e : MotionEvent R) (exclude : Option ℕ)
  | updateGesture (e : MotionEvent R) (exclude : Option ℕ)
  | handle (e : MotionEvent R) (ans : Answers R)

namespace ViewAct

open TouchRouter ViewTransform

variable [LinearOrder R] [FloatOps R]

def step (r : TouchRouter R) : ViewAct R → TouchRouter R
  | .fit rect surfaceW surfaceH margin => r.setView (r.view.fit rect surfaceW surfaceH margin)
  | .set scale pan => r.setView (r.view.set scale pan)
  | .panBy surfaceDelta => r.setView (r.view.panBy surfaceDelta)
  | .zoomAbout surfaceAnchor factor => r.setView (r.view.zoomAbout surfaceAnchor factor)
  | .setMode mode => r.setMode mode
  | .beginGesture e exclude => r.beginGesture e exclude
  | .updateGesture e exclude => r.updateGesture e exclude
  | .handle e ans => r.handle e ans

/-- A router over a fresh view, after all that. -/
def run (acts : List (ViewAct R)) : TouchRouter R := acts.foldl step (TouchRouter.init .init)

variable [IsStrictOrderedRing R]

lemma step_inRange {r : TouchRouter R} (h : r.view.InRange) (a : ViewAct R) :
    (step r a).view.InRange := by
  cases a with
  | fit rect surfaceW surfaceH margin => exact fit_inRange h rect surfaceW surfaceH margin
  | set scale pan => exact set_inRange r.view scale pan
  | panBy surfaceDelta => exact h
  | zoomAbout surfaceAnchor factor => exact zoomAbout_inRange r.view surfaceAnchor factor
  | setMode mode => exact (setMode_view r mode).symm ▸ h
  | beginGesture e exclude => exact h
  | updateGesture e exclude => exact updateGesture_inRange h e exclude
  | handle e ans =>
    obtain hstill | ⟨-, hmoved⟩ := handle_view r e ans
    · exact hstill.symm ▸ h
    · exact hmoved.symm ▸ updateGesture_inRange h e none

lemma run_inRange (acts : List (ViewAct R)) : (run acts).view.InRange :=
  List.foldlRecOn (motive := fun r : TouchRouter R => r.view.InRange) acts step init_inRange
    fun _ h a _ => step_inRange h a

/-- **The view under the fingers.** In every state that can be reached, a gesture that begins takes
the centroid of the fingers and leaves the view; one that goes on keeps what was under the old
centroid under the new one; a finger that lands or lifts does not move the view; and the scale is
in its range, so that the two maps undo each other. -/
theorem pinch_stays_attached (acts : List (ViewAct R)) :
    (∀ (e : MotionEvent R) (exclude : Option ℕ),
      (((run acts).beginGesture e exclude).gestureCentroid = e.centroidOf exclude ∧
        ((run acts).beginGesture e exclude).view = (run acts).view) ∧
      ((run acts).updateGesture e exclude).gestureCentroid = e.centroidOf exclude ∧
        ((run acts).updateGesture e exclude).view.toPc
            ((run acts).updateGesture e exclude).gestureCentroid =
          (run acts).view.toPc (run acts).gestureCentroid) ∧
      (∀ (e : MotionEvent R) (ans : Answers R),
        e.maskedAction = .pointerDown ∨ e.maskedAction = .pointerUp →
        ((run acts).handle e ans).view = (run acts).view) ∧
      kMinScale ≤ (run acts).view.scale ∧ (run acts).view.scale ≤ kMaxScale ∧
      ∀ q : Point R, (run acts).view.toPc ((run acts).view.toSurface q) = q ∧
        (run acts).view.toSurface ((run acts).view.toPc q) = q := by
  have hrange := run_inRange acts
  refine ⟨fun e exclude => ⟨⟨rfl, rfl⟩, rfl, toPc_updateGesture _ e exclude⟩,
    fun e ans hact => ?_, hrange.1, hrange.2, fun q =>
      ⟨toPc_toSurface hrange.scale_ne_zero q, toSurface_toPc hrange.scale_ne_zero q⟩⟩
  obtain hstill | ⟨hmove, -⟩ := handle_view (run acts) e ans
  · exact hstill
  · rw [hmove] at hact
    exact absurd hact (by decide)

/-- Two fingers land a hundred pixels apart on a desktop that was framed, and spread to twice
that. -/
def twoFingers : List (ViewAct ℚ) :=
  [.fit ⟨0, 0, 1920, 1080⟩ 1280 720 0,
    .handle ⟨5, 0, [⟨0, 1, ⟨100, 100⟩⟩, ⟨1, 1, ⟨200, 100⟩⟩]⟩ {},
    .handle ⟨2, 8, [⟨0, 1, ⟨50, 100⟩⟩, ⟨1, 1, ⟨250, 100⟩⟩]⟩ {}]

/-- One of them lifts. -/
theorem pinch_stays_attached_two_fingers :
    ((run twoFingers).handle ⟨6, 16, [⟨0, 1, ⟨50, 100⟩⟩, ⟨1, 1, ⟨250, 100⟩⟩]⟩ {}).view =
      (run twoFingers).view :=
  (pinch_stays_attached twoFingers).2.1 _ _ (Or.inr rfl)

end ViewAct

end Digitiz
