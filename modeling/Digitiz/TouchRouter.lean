import Digitiz.Messages
import Digitiz.ViewTransform

/-!
What a touch means.

One finger is digitizer input, forwarded to the PC; two or more manipulate the view and stay
local. A press is held back until the finger has moved, lifted or stayed long enough, so that a
second finger that lands first leaves nothing to take back.

The messages a router hands to its sink and the calls it makes on the widgets are part of its
state, oldest first. What the widgets and the monitor list answer comes with each event: they are
asked at most once for it.
-/

namespace Digitiz

inductive InputMode
  | draw
  | slide
  | pan
  deriving DecidableEq, Repr

/-- The masked action of a motion event. -/
inductive MotionAction
  | down
  | up
  | move
  | cancel
  | pointerDown
  | pointerUp
  | other
  deriving DecidableEq, Repr

structure PointerAxes (R : Type) where
  id : Int32
  toolType : Int32
  pos : Point R

structure MotionEvent (R : Type) where
  /-- The action in the low byte, the index of the pointer it is about in the next. -/
  action : UInt32
  /-- In milliseconds. -/
  eventTime : Int64
  pointers : List (PointerAxes R)

/-- What is asked of the surroundings during an event: whether a widget takes the finger, if there
are widgets, and whether a desktop point is on a screen, if the screens are known. -/
structure Answers (R : Type) where
  uiHit : Option (Point R → Bool) := none
  onScreen : Option (Point R → Bool) := none

inductive UiCall (R : Type)
  | drag (p : Point R)
  | release (p : Point R)

def kPressHoldUs : UInt64 := 100000
def kTapMaxUs : UInt64 := 300000
def toolTypeStylus : Int32 := 2
def toolTypeEraser : Int32 := 4

namespace MotionEvent

variable {R : Type}

def maskedAction (e : MotionEvent R) : MotionAction :=
  match (e.action &&& 0xff).toNat with
  | 0 => .down
  | 1 => .up
  | 2 => .move
  | 3 => .cancel
  | 5 => .pointerDown
  | 6 => .pointerUp
  | _ => .other

def pointerIndex (e : MotionEvent R) : ℕ := ((e.action &&& 0xff00) >>> 8).toNat

/-- The time of the event on the guest's clock, in microseconds. -/
def tUs (e : MotionEvent R) : UInt64 := e.eventTime.toUInt64 * 1000

/-- The pointer with an id; on a multi-touch event it is not always the first. -/
def find (e : MotionEvent R) (id : Int32) : Option (PointerAxes R) :=
  e.pointers.find? fun p => p.id = id

variable [Field R] [LinearOrder R]

def pointerPos (e : MotionEvent R) (i : ℕ) : Point R := (e.pointers[i]?.map PointerAxes.pos).getD 0

/-- The positions without that of the pointer that is lifting. -/
def positions (e : MotionEvent R) (exclude : Option ℕ) : List (Point R) :=
  ((List.range e.pointers.length).filter fun i => some i ≠ exclude).map e.pointerPos

def centroidOf (e : MotionEvent R) (exclude : Option ℕ) : Point R :=
  let ps := e.positions exclude
  let sum := ps.foldl (· + ·) 0
  if ps.length > 0 then sum / (ps.length : R) else sum

variable [FloatOps R]

/-- How far a vector reaches. -/
def norm (d : Point R) : R := FloatOps.sqrt (d.x * d.x + d.y * d.y)

/-- The mean distance from the centroid, and zero for a single finger. -/
def spreadOf (e : MotionEvent R) (centroid : Point R) (exclude : Option ℕ) : R :=
  let ps := e.positions exclude
  let total := ps.foldl (fun t p => t + norm (p - centroid)) 0
  if ps.length ≥ 2 then total / (ps.length : R) else 0

end MotionEvent

structure TouchRouter (R : Type) where
  view : ViewTransform R
  uiCaptured : Bool
  mode : InputMode
  strokeActive : Bool
  stylusOnly : Bool
  /-- A press that has landed but has not been sent. -/
  pressPending : Bool
  pressP : Point R
  pressUs : UInt64
  gestureActive : Bool
  viewAdjusted : Bool
  strokePointerId : Int32
  lastSent : Point R
  lastSentUs : UInt64
  minIntervalUs : UInt64
  minDistancePx : R
  gestureCentroid : Point R
  gestureSpread : R
  density : R
  slideActive : Bool
  slideStartedSent : Bool
  slideLast : Point R
  slideRemainder : Point R
  slideOriginUs : UInt64
  slideTravel : R
  /-- Every message handed to the sink so far. -/
  sent : List Pointer
  /-- Every call made on the widgets so far. -/
  widgets : List (UiCall R)

namespace TouchRouter

open MotionEvent

variable {R : Type} [Field R] [LinearOrder R]

def kPressSlopDp : R := (3 : ℕ)
def kTapSlopDp : R := 10

/-- A router as it is constructed over a view. -/
def init (view : ViewTransform R) : TouchRouter R where
  view := view
  uiCaptured := false
  mode := .draw
  strokeActive := false
  stylusOnly := false
  pressPending := false
  pressP := 0
  pressUs := 0
  gestureActive := false
  viewAdjusted := false
  strokePointerId := -1
  lastSent := 0
  lastSentUs := 0
  minIntervalUs := 0
  minDistancePx := 0
  gestureCentroid := 0
  gestureSpread := 0
  density := 1
  slideActive := false
  slideStartedSent := false
  slideLast := 0
  slideRemainder := 0
  slideOriginUs := 0
  slideTravel := 0
  sent := []
  widgets := []

/-! ### Settings -/

def cancelUiCapture (r : TouchRouter R) : TouchRouter R := { r with uiCaptured := false }

def setStylusOnly (r : TouchRouter R) (on : Bool) : TouchRouter R := { r with stylusOnly := on }

def setMinIntervalUs (r : TouchRouter R) (us : UInt64) : TouchRouter R :=
  { r with minIntervalUs := us }

def setMinDistancePx (r : TouchRouter R) (px : R) : TouchRouter R := { r with minDistancePx := px }

def setDensity (r : TouchRouter R) (density : R) : TouchRouter R :=
  { r with density := if density > 0 then density else 1 }

/-- The view is shared with the rest of the app, which frames the desktop in it. -/
def setView (r : TouchRouter R) (view : ViewTransform R) : TouchRouter R := { r with view := view }

/-! ### Messages -/

variable [FloatOps R]

def emit (r : TouchRouter R) (action : PointerAction) (surface : Point R) (tUs : UInt64) :
    TouchRouter R :=
  let pc := r.view.toPc surface
  { r with sent := r.sent ++ [{
      tUs := tUs, x := Int32.ofInt (FloatOps.lround pc.x), y := Int32.ofInt (FloatOps.lround pc.y)
      action := action, button := .left, pointerId := 0 }] }

/-- Sends a delta rather than a position. The first one of a slide is marked, so that the host
reads the real cursor again before it accumulates. -/
def emitRelative (r : TouchRouter R) (action : PointerAction) (dx dy : Int32) (tUs : UInt64) :
    TouchRouter R :=
  { r with
    slideStartedSent := true
    sent := r.sent ++ [{
      tUs := tUs, x := dx, y := dy, action := action, button := .left, pointerId := 0
      flags := if !r.slideStartedSent then kPointerRelative ||| kPointerGestureStart
        else kPointerRelative }] }

def landsOnScreen (r : TouchRouter R) (ans : Answers R) (surface : Point R) : Bool :=
  match ans.onScreen with
  | none => true
  | some test => test (r.view.toPc surface)

/-- Sends the press that was held back, at the point and time it really happened. -/
def flushPress (r : TouchRouter R) : TouchRouter R :=
  if !r.pressPending then r
  else
    { r with
      pressPending := false, strokeActive := true
      lastSent := r.pressP, lastSentUs := r.pressUs }.emit .down r.pressP r.pressUs

/-- Drops a stroke in progress and tells the host to release. -/
def cancelStroke (r : TouchRouter R) : TouchRouter R :=
  let r := { r with pressPending := false }
  if !r.strokeActive then r
  else { r.emit .cancel r.lastSent r.lastSentUs with strokeActive := false, strokePointerId := -1 }

def setMode (r : TouchRouter R) (mode : InputMode) : TouchRouter R :=
  if r.mode = mode then r
  else { r.cancelStroke with mode := mode, gestureActive := false, slideActive := false }

/-! ### The view -/

def beginGesture (r : TouchRouter R) (e : MotionEvent R) (exclude : Option ℕ) : TouchRouter R :=
  let centroid := e.centroidOf exclude
  { r with
    gestureActive := true, gestureCentroid := centroid
    gestureSpread := e.spreadOf centroid exclude }

def updateGesture (r : TouchRouter R) (e : MotionEvent R) (exclude : Option ℕ) : TouchRouter R :=
  let centroid := e.centroidOf exclude
  let spread := e.spreadOf centroid exclude
  -- the pan first, so the zoom anchor is evaluated in the frame that is already panned
  let view := r.view.panBy (centroid - r.gestureCentroid)
  let view := if r.gestureSpread > 1 ∧ spread > 1 then
      view.zoomAbout centroid (spread / r.gestureSpread)
    else view
  { r with view := view, viewAdjusted := true, gestureCentroid := centroid, gestureSpread := spread }

/-! ### Slides -/

/-- The whole part, towards zero. -/
def trunc (x : R) : ℤ := if x < 0 then FloatOps.ceil x else -FloatOps.ceil (-x)

def slideBegin (r : TouchRouter R) (surface : Point R) (tUs : UInt64) : TouchRouter R :=
  { r with
    slideActive := true, slideStartedSent := false, slideLast := surface, slideRemainder := 0
    slideOriginUs := tUs, slideTravel := 0 }

/-- The delta in PC pixels a move of the finger asks for, with what the last ones left over. -/
def slideWanted (r : TouchRouter R) (surface : Point R) : Point R :=
  let scale := if r.view.scale > 0 then r.view.scale else 1
  (surface - r.slideLast) / scale + r.slideRemainder

def slideMove (r : TouchRouter R) (surface : Point R) (tUs : UInt64) : TouchRouter R :=
  let step := surface - r.slideLast
  let wanted := r.slideWanted surface
  let dx := trunc wanted.x
  let dy := trunc wanted.y
  let r := { r with
    slideLast := surface, slideTravel := r.slideTravel + norm step
    slideRemainder := ⟨wanted.x - (dx : R), wanted.y - (dy : R)⟩ }
  if dx = 0 ∧ dy = 0 then r
  else r.emitRelative .move (Int32.ofInt dx) (Int32.ofInt dy) tUs

/-- The touch of a slide so far was brief and stayed put. -/
def isTap (r : TouchRouter R) (tUs : UInt64) : Bool :=
  tUs - r.slideOriginUs ≤ kTapMaxUs && r.slideTravel ≤ kTapSlopDp * r.density

def slideEnd (r : TouchRouter R) (surface : Point R) (tUs : UInt64) : TouchRouter R :=
  let r := r.slideMove surface tUs
  let tap := r.isTap tUs
  let r := { r with slideActive := false }
  if !tap then r else (r.emitRelative .down 0 0 tUs).emitRelative .up 0 0 tUs

/-! ### Events -/

def mayDraw (r : TouchRouter R) (e : MotionEvent R) (i : ℕ) : Bool :=
  if !r.stylusOnly then true
  else match e.pointers[i]? with
    | none => false
    | some p => p.toolType = toolTypeStylus ∨ p.toolType = toolTypeEraser

def onDown (r : TouchRouter R) (e : MotionEvent R) (ans : Answers R) : TouchRouter R :=
  let p := e.pointerPos 0
  if ans.uiHit.any (· p) then { r with uiCaptured := true }
  else if r.mode = .pan then r.beginGesture e none
  else if r.mode = .draw ∧ !r.mayDraw e 0 then r.beginGesture e none
  else if r.mode = .slide then
    { r with strokePointerId := (e.pointers[0]?.map PointerAxes.id).getD 0 }.slideBegin p e.tUs
  else if !r.landsOnScreen ans p then r
  else
    { r with
      pressPending := true, pressP := p, pressUs := e.tUs
      strokePointerId := (e.pointers[0]?.map PointerAxes.id).getD 0
      lastSent := p, lastSentUs := e.tUs }

def onPointerDown (r : TouchRouter R) (e : MotionEvent R) : TouchRouter R :=
  -- nothing went out yet, so there is nothing to take back
  let r := if r.pressPending then { r with pressPending := false, strokePointerId := -1 } else r
  let r := if r.strokeActive then
      { r.emit .cancel r.lastSent e.tUs with strokeActive := false, strokePointerId := -1 }
    else r
  let r := if r.slideActive then { r with slideActive := false, strokePointerId := -1 } else r
  r.beginGesture e none

/-- Sends the held press once the finger has moved far enough or stayed long enough. -/
def moveHeld (r : TouchRouter R) (e : MotionEvent R) : TouchRouter R :=
  if r.pressPending then
    match e.find r.strokePointerId with
    | some p =>
      if norm (p.pos - r.pressP) ≥ kPressSlopDp * r.density ∨ e.tUs - r.pressUs ≥ kPressHoldUs then
        r.flushPress
      else r
    | none => r
  else r

/-- A move of a stroke that is open. Off the screens the stroke waits where it was. -/
def moveStroke (r : TouchRouter R) (e : MotionEvent R) (ans : Answers R) : TouchRouter R :=
  match e.find r.strokePointerId with
  | some p =>
    let farEnough := norm (p.pos - r.lastSent) ≥ r.minDistancePx
    let lateEnough := e.tUs - r.lastSentUs ≥ r.minIntervalUs
    if ¬farEnough ∨ ¬lateEnough then r
    else if !r.landsOnScreen ans p.pos then r
    else { r with lastSent := p.pos, lastSentUs := e.tUs }.emit .move p.pos e.tUs
  | none => r

def dragWidget (r : TouchRouter R) (e : MotionEvent R) (ans : Answers R) : TouchRouter R :=
  if ans.uiHit.isSome ∧ e.pointers.length > 0 then
    { r with widgets := r.widgets ++ [.drag (e.pointerPos 0)] }
  else r

def releaseWidget (r : TouchRouter R) (e : MotionEvent R) (ans : Answers R) : TouchRouter R :=
  let r := if ans.uiHit.isSome ∧ e.pointers.length > 0 then
      { r with widgets := r.widgets ++ [.release (e.pointerPos 0)] }
    else r
  { r with uiCaptured := false }

def onMove (r : TouchRouter R) (e : MotionEvent R) (ans : Answers R) : TouchRouter R :=
  if r.uiCaptured then r.dragWidget e ans
  else if r.gestureActive then r.updateGesture e none
  else if r.slideActive then
    match e.find r.strokePointerId with
    | some p => r.slideMove p.pos e.tUs
    | none => r
  else
    let r := r.moveHeld e
    if !r.strokeActive then r else r.moveStroke e ans

def onPointerUp (r : TouchRouter R) (e : MotionEvent R) : TouchRouter R :=
  if r.mode = .pan then r.beginGesture e (some e.pointerIndex)
  else if e.pointers.length ≤ 2 then { r with gestureActive := false }
  else r.beginGesture e (some e.pointerIndex)

/-- The stroke is released where the finger lifted, or at the last point that was on a screen. -/
def endStroke (r : TouchRouter R) (e : MotionEvent R) (ans : Answers R) : TouchRouter R :=
  let p := e.pointerPos e.pointerIndex
  if r.strokeActive then r.emit .up (if r.landsOnScreen ans p then p else r.lastSent) e.tUs else r

def onUp (r : TouchRouter R) (e : MotionEvent R) (ans : Answers R) : TouchRouter R :=
  if r.uiCaptured then r.releaseWidget e ans
  else
    let r := if r.slideActive then r.slideEnd (e.pointerPos e.pointerIndex) e.tUs else r
    let r := if r.pressPending then r.flushPress else r
    let r := r.endStroke e ans
    { r with
      strokeActive := false, gestureActive := false, slideActive := false, strokePointerId := -1 }

def onCancel (r : TouchRouter R) (e : MotionEvent R) (ans : Answers R) : TouchRouter R :=
  let r := { r.cancelStroke with gestureActive := false, slideActive := false }
  if r.uiCaptured then r.releaseWidget e ans else r

def handle (r : TouchRouter R) (e : MotionEvent R) (ans : Answers R) : TouchRouter R :=
  match e.maskedAction with
  | .down => r.onDown e ans
  | .pointerDown => r.onPointerDown e
  | .move => r.onMove e ans
  | .pointerUp => r.onPointerUp e
  | .up => r.onUp e ans
  | .cancel => r.onCancel e ans
  | .other => r

end TouchRouter

end Digitiz
