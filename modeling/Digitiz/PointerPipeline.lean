import Digitiz.SplineSmoother
import Digitiz.InputInjector

/-!
Turning a stream of pointer messages into injector calls.

The guest is not trusted to send a well-formed sequence: packets can be lost on a reconnect, the
app can be killed mid-stroke, and a buggy build can send nonsense. What the pipeline has to get
right is that the mouse button is released in the end.
-/

namespace Digitiz

structure PipelineStats where
  received : ℕ := 0
  injected : ℕ := 0
  droppedDisabled : ℕ := 0
  protocolErrors : ℕ := 0
  injectFailures : ℕ := 0
  droppedOffScreen : ℕ := 0
  relativeEvents : ℕ := 0
  smoothedPoints : ℕ := 0
  keysSent : ℕ := 0
  keysUnknown : ℕ := 0
  droppedNoWindow : ℕ := 0
  deriving DecidableEq, Repr

/-- What the pipeline asks of its surroundings while it handles one message: which points are on
a screen, if that is known at all, and where the focused window is, if there is one and it can
be measured. -/
structure Surroundings where
  onScreen : Option (ℤ → ℤ → Bool) := none
  windowBounds : Option Recti := none

structure PointerPipeline (R σ : Type) where
  injector : σ
  /-- Every call made on the injector so far, oldest first. -/
  calls : List Call
  smoother : SplineSmoother R
  relX : R
  relY : R
  relSeeded : Bool
  enabled : Bool
  down : Bool
  held : MouseButton
  lastX : ℤ
  lastY : ℤ
  stats : PipelineStats

namespace PointerPipeline

variable {R σ : Type} [Field R] [LinearOrder R] [FloatOps R] (I : IInputInjector σ)

/-- A pipeline as it is constructed over an injector. -/
def init (injector : σ) : PointerPipeline R σ where
  injector := injector
  calls := []
  smoother := .init
  relX := 0
  relY := 0
  relSeeded := false
  enabled := false
  down := false
  held := .left
  lastX := 0
  lastY := 0
  stats := {}

/-- Updates the counters. -/
def count (p : PointerPipeline R σ) (f : PipelineStats → PipelineStats) : PointerPipeline R σ :=
  { p with stats := f p.stats }

/-- Counts a call by whether the injector took it. -/
def countInjected (p : PointerPipeline R σ) (ok : Bool) : PointerPipeline R σ :=
  if ok then p.count fun s => { s with injected := s.injected + 1 }
  else p.count fun s => { s with injectFailures := s.injectFailures + 1 }

def injectMove (p : PointerPipeline R σ) (x y : ℤ) : PointerPipeline R σ :=
  let (ok, inj) := I.moveTo x y p.injector
  { p with injector := inj, calls := p.calls ++ [Call.moveTo x y] }.countInjected ok

def injectButton (p : PointerPipeline R σ) (b : MouseButton) (down : Bool) (x y : ℤ) :
    PointerPipeline R σ :=
  let (ok, inj) := I.button b down x y p.injector
  { p with injector := inj, calls := p.calls ++ [Call.button b down x y] }.countInjected ok

def emitSmoothed (p : PointerPipeline R σ) (q : Point R) : PointerPipeline R σ :=
  (p.count fun s => { s with smoothedPoints := s.smoothedPoints + 1 }).injectMove I
    (FloatOps.lround q.x) (FloatOps.lround q.y)

/-- The callback of the smoother, over all the points it produced. -/
def emitAll (p : PointerPipeline R σ) (qs : List (Point R)) : PointerPipeline R σ :=
  qs.foldl (emitSmoothed I) p

def onScreen (env : Surroundings) (x y : ℤ) : Bool :=
  match env.onScreen with
  | none => true
  | some test => test x y

/-- A press. When the guest lost an UP somewhere, the old stroke is closed before a new one is
opened, or the button would stay held forever. -/
def openStroke (p : PointerPipeline R σ) (b : MouseButton) (x y : ℤ) : PointerPipeline R σ :=
  let p := if p.down then
      (p.count fun s => { s with protocolErrors := s.protocolErrors + 1 }).injectButton I
        p.held false x y
    else p
  { p.injectButton I b true x y with down := true, held := b }

/-- Releases the button that was really pressed. -/
def closeStroke (p : PointerPipeline R σ) (x y : ℤ) : PointerPipeline R σ :=
  { p.injectButton I p.held false x y with down := false }

def releaseStroke (p : PointerPipeline R σ) : PointerPipeline R σ :=
  let p := { p with smoother := p.smoother.reset }
  if !p.down then p else p.closeStroke I p.lastX p.lastY

def setEnabled (p : PointerPipeline R σ) (on : Bool) : PointerPipeline R σ :=
  if p.enabled = on then p
  else
    -- never leave a button held across a disable
    let p := if !on then p.releaseStroke I else p
    { p with enabled := on }

/-- Moves the tracked position, refusing to leave the screens; each axis is tried on its own, so
running into an edge slides along it. -/
def advanceRelative (env : Surroundings) (p : PointerPipeline R σ) (dx dy : R) :
    PointerPipeline R σ :=
  match env.onScreen with
  | none => { p with relX := p.relX + dx, relY := p.relY + dy }
  | some test =>
    let lands (x y : R) : Bool := test (FloatOps.lround x) (FloatOps.lround y)
    let wantX := p.relX + dx
    let wantY := p.relY + dy
    if lands wantX wantY then { p with relX := wantX, relY := wantY }
    else if lands wantX p.relY then { p with relX := wantX }
    else if lands p.relX wantY then { p with relY := wantY }
    else p

/-- Starts a relative gesture from where the cursor really is. -/
def seedRelative (p : PointerPipeline R σ) (m : Pointer) : PointerPipeline R σ :=
  if m.flags &&& kPointerGestureStart ≠ 0 ∨ !p.relSeeded then
    match I.cursorPos p.injector with
    | some (cx, cy) => { p with relX := (cx : R), relY := (cy : R), relSeeded := true }
    | none => { p with relSeeded := true }
  else p

/-- Follows a relative message to where it puts the pointer. -/
def trackRelative (env : Surroundings) (p : PointerPipeline R σ) (m : Pointer) :
    PointerPipeline R σ :=
  let p := p.seedRelative I m
  let p := p.advanceRelative env (m.x.toInt : R) (m.y.toInt : R)
  { p with lastX := FloatOps.lround p.relX, lastY := FloatOps.lround p.relY }

/-- The relative message after the pointer has been tracked. -/
def relativeAt (p : PointerPipeline R σ) (m : Pointer) (x y : ℤ) : PointerPipeline R σ :=
  if m.action = .down then p.openStroke I m.button x y
  else if m.action = .move ∨ m.action = .hover then p.injectMove I x y
  else if m.action = .up ∨ m.action = .cancel then
    if p.down then p.closeStroke I x y else p
  else p

def handleRelative (env : Surroundings) (p : PointerPipeline R σ) (m : Pointer) :
    PointerPipeline R σ :=
  let p := p.trackRelative I env m
  p.relativeAt I m p.lastX p.lastY

/-- Draws what is left of the curve, or the stroke would stop one sample short of where the
finger lifted. -/
def drainCurve (p : PointerPipeline R σ) (x y : ℤ) : PointerPipeline R σ :=
  if p.smoother.enabled then
    let (qs, s) := p.smoother.add (x : R) (y : R)
    let (qs', s) := s.finish
    { p with smoother := s }.emitAll I (qs ++ qs')
  else p

/-- The absolute message after it has been placed at a desktop point. -/
def handleAt (p : PointerPipeline R σ) (m : Pointer) (x y : ℤ) : PointerPipeline R σ :=
  let p := { p with lastX := x, lastY := y }
  if m.action = .down then
    let p := p.openStroke I m.button x y
    { p with smoother := p.smoother.begin (x : R) (y : R) }
  else if m.action = .move ∨ m.action = .hover then
    if p.smoother.enabled then
      let (qs, s) := p.smoother.add (x : R) (y : R)
      { p with smoother := s }.emitAll I qs
    else p.injectMove I x y
  else if m.action = .up then
    if !p.down then p.count fun s => { s with protocolErrors := s.protocolErrors + 1 }
    else
      -- our own record is trusted over the message
      let p := if m.button ≠ p.held then
          p.count fun s => { s with protocolErrors := s.protocolErrors + 1 }
        else p
      (p.drainCurve I x y).closeStroke I x y
  else if m.action = .cancel then
    let p := { p with smoother := p.smoother.reset }
    if p.down then p.closeStroke I x y else p
  else p

/-- Where an absolute message lands on the desktop; nowhere, if it is an offset inside a window
and no window can be measured. -/
def place (env : Surroundings) (m : Pointer) : Option (ℤ × ℤ) :=
  if m.flags &&& kPointerWindowRelative ≠ 0 then
    env.windowBounds.map fun window => (m.x.toInt + window.x, m.y.toInt + window.y)
  else some (m.x.toInt, m.y.toInt)

def handlePointer (env : Surroundings) (p : PointerPipeline R σ) (m : Pointer) :
    PointerPipeline R σ :=
  let p := p.count fun s => { s with received := s.received + 1 }
  if !p.enabled then p.count fun s => { s with droppedDisabled := s.droppedDisabled + 1 }
  else if m.flags &&& kPointerRelative ≠ 0 then
    (p.count fun s => { s with relativeEvents := s.relativeEvents + 1 }).handleRelative I env m
  else
    match place env m with
    | none => p.count fun s => { s with droppedNoWindow := s.droppedNoWindow + 1 }
    | some (x, y) =>
      -- UP and CANCEL are honoured wherever they land
      let needsScreen := m.action = .down ∨ m.action = .move ∨ m.action = .hover
      if needsScreen ∧ !onScreen env x y then
        p.count fun s => { s with droppedOffScreen := s.droppedOffScreen + 1 }
      else p.handleAt I m x y

def handleKey (p : PointerPipeline R σ) (k : Key) : PointerPipeline R σ :=
  let p := p.count fun s => { s with received := s.received + 1 }
  if !p.enabled then p.count fun s => { s with droppedDisabled := s.droppedDisabled + 1 }
  else
    let (ok, inj) := I.key k p.injector
    let p := { p with injector := inj, calls := p.calls ++ [Call.key k] }
    if !ok then p.count fun s => { s with keysUnknown := s.keysUnknown + 1 }
    else p.count fun s => { s with keysSent := s.keysSent + 1, injected := s.injected + 1 }

def endSession (p : PointerPipeline R σ) : PointerPipeline R σ :=
  let p := { p with relSeeded := false }.releaseStroke I
  { p with injector := I.releaseAll p.injector, calls := p.calls ++ [Call.releaseAll] }

end PointerPipeline

end Digitiz
