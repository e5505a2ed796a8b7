import Digitiz.ButtonStore
import Digitiz.TouchRouter

/-!
The row or column of custom buttons along one edge of the surface.

It collapses to a tab. Where there are more buttons than fit, the list scrolls along its own
direction and wraps. What a finger came down on is kept until it is released, since a hold can
still turn out to be a long press and a slide a scroll.

Positions and sizes are exact numbers here. The source keeps them in floats, whose rounding can
move a slot where a quotient or a remainder comes out at a whole number.

The strip reads its buttons through the store, so every operation that looks at them is given
them. What it hands to its sinks is part of its state, oldest first.
-/

namespace Digitiz

open ButtonStore

/-- A rectangle of the surface, from its top left corner. -/
@[ext] structure Rect (R : Type) where
  x : R
  y : R
  w : R
  h : R
  deriving DecidableEq

def Rect.contains {R : Type} [Field R] [LinearOrder R] (r : Rect R) (p : Point R) : Bool :=
  r.x ≤ p.x && r.y ≤ p.y && p.x < r.x + r.w && p.y < r.y + r.h

inductive StripOrientation
  | horizontal
  | vertical
  deriving DecidableEq, Repr

/-- What the finger came down on. -/
inductive Press
  | none
  | toggle
  | prev
  | next
  | add
  | slot
  | accept
  | decline
  deriving DecidableEq, Repr

/-- What a button does on the PC. -/
inductive StripCall (R : Type)
  | pointer (action : PointerAction) (target : Point R)
  | shortcut (button : CustomButton)

structure StripMetrics (R : Type) where
  margin : R
  thickness : R
  toggle : R
  arrow : R
  add : R
  slot : R
  /-- The slots that fit in the run. -/
  visible : ℤ
  arrows : Bool
  /-- The length of the scrolling area. -/
  run : R
  /-- The origin of the whole strip along its own direction. -/
  start : R
  /-- Its origin across it. -/
  cross : R

structure ButtonStrip (R : Type) where
  orientation : StripOrientation
  expanded : Bool
  surfaceW : ℤ
  surfaceH : ℤ
  density : R
  m : StripMetrics R
  /-- Zero asks for the default. -/
  slotLimit : ℤ
  effectiveLimit : ℤ
  maxSlots : ℤ
  /-- In pixels, and never wrapped in place. -/
  scroll : R
  scrollTarget : R
  scrollAtPress : R
  press : Press
  /-- A place in the store. -/
  pressSlot : ℤ
  pressPos : Point R
  pressSeconds : R
  pressMoved : Bool
  scrolling : Bool
  addRequested : Bool
  stateChanged : Bool
  longPress : ℤ
  presetMenuRequested : Bool
  suggestionAccepted : Bool
  suggestionDeclined : Bool
  activeProcess : List UInt8
  presetName : List UInt8
  suggestedName : List UInt8
  /-- Everything handed to the sinks so far. -/
  sent : List (StripCall R)

namespace ButtonStrip

variable {R : Type} [Field R] [LinearOrder R]

def kLongPressSeconds : R := (11 : ℕ) / (20 : ℕ)
def kMoveSlopDp : R := (10 : ℕ)
def kSnapSeconds : R := (7 : ℕ) / (50 : ℕ)

/-- A strip as it is constructed. -/
def init : ButtonStrip R where
  orientation := .horizontal
  expanded := false
  surfaceW := 0
  surfaceH := 0
  density := 1
  m := ⟨0, 0, 0, 0, 0, 0, 0, false, 0, 0, 0⟩
  slotLimit := 0
  effectiveLimit := 1
  maxSlots := 1
  scroll := 0
  scrollTarget := 0
  scrollAtPress := 0
  press := .none
  pressSlot := -1
  pressPos := 0
  pressSeconds := 0
  pressMoved := false
  scrolling := false
  addRequested := false
  stateChanged := false
  longPress := -1
  presetMenuRequested := false
  suggestionAccepted := false
  suggestionDeclined := false
  activeProcess := []
  presetName := []
  suggestedName := []
  sent := []

/-! ### Settings -/

def setSlotLimit (s : ButtonStrip R) (slots : ℤ) : ButtonStrip R := { s with slotLimit := slots }

def setOrientation (s : ButtonStrip R) (o : StripOrientation) : ButtonStrip R :=
  { s with orientation := o }

def setExpanded (s : ButtonStrip R) (on : Bool) : ButtonStrip R := { s with expanded := on }

def setActiveWindow (s : ButtonStrip R) (process : List UInt8) : ButtonStrip R :=
  { s with activeProcess := process }

def setPresetName (s : ButtonStrip R) (name : List UInt8) : ButtonStrip R :=
  { s with presetName := name }

/-- Offers a preset; an empty name offers none. -/
def setSuggestion (s : ButtonStrip R) (presetName : List UInt8) : ButtonStrip R :=
  { s with suggestedName := presetName }

def suggesting (s : ButtonStrip R) : Bool := s.suggestedName ≠ []

def horizontal (s : ButtonStrip R) : Bool := s.orientation = .horizontal

def scrollable (s : ButtonStrip R) : Bool := s.m.arrows

/-! ### Layout -/

variable [FloatOps R]

/-- The slots that fit in a length, with room for the arrows kept back whether they are drawn or
not. -/
def fitIn (m : StripMetrics R) (budget : R) : ℤ :=
  let room := budget - m.toggle - m.add - m.arrow * (2 : ℕ)
  if room ≤ 0 then 0 else TouchRouter.trunc (room / m.slot)

/-- The lengths that depend only on the density and the direction. -/
def baseMetrics (horizontal : Bool) (density : R) : StripMetrics R where
  margin := (8 : ℕ) * density
  thickness := (76 : ℕ) * density
  toggle := (26 : ℕ) * density
  arrow := (34 : ℕ) * density
  add := (48 : ℕ) * density
  slot := (if horizontal then ((84 : ℕ) : R) else (68 : ℕ)) * density
  visible := 0
  arrows := false
  run := 0
  start := 0
  cross := 0

/-- The most slots the screen can hold in the direction of the strip. -/
def maxSlotsOn (m : StripMetrics R) (axis : R) : ℤ :=
  max (fitIn m (axis - m.margin * (2 : ℕ))) 1

/-- The slots asked for, or the most that fit in half the edge, as far as the screen holds them. -/
def limitOn (m : StripMetrics R) (axis : R) (slotLimit : ℤ) : ℤ :=
  let wanted := if slotLimit > 0 then slotLimit else max (fitIn m (axis / (2 : ℕ))) 1
  if wanted < 1 then 1 else if maxSlotsOn m axis < wanted then maxSlotsOn m axis else wanted

/-- The lengths of an expanded strip with `count` buttons. -/
def expandedMetrics (m : StripMetrics R) (count limit : ℤ) : StripMetrics R :=
  { m with
    visible := min count limit
    arrows := count > min count limit
    run := (min count limit : ℤ) * m.slot }

def layout (s : ButtonStrip R) (buttons : List CustomButton) (surfaceW surfaceH : ℤ)
    (density : R) : ButtonStrip R :=
  let density := if density > 0 then density else 1
  let m := baseMetrics s.horizontal density
  let axis : R := if s.horizontal then surfaceW else surfaceH
  let effectiveLimit := limitOn m axis s.slotLimit
  let m' := if s.expanded then expandedMetrics m buttons.length effectiveLimit else m
  { s with
    surfaceW, surfaceH, density, effectiveLimit
    maxSlots := maxSlotsOn m axis
    m := { m' with
      start := m.margin
      cross := if s.horizontal then (surfaceH : R) - m.margin - m.thickness else m.margin }
    -- with everything on screen there is nowhere to be scrolled to
    scroll := if m'.arrows then s.scroll else 0
    scrollTarget := if m'.arrows then s.scrollTarget else 0 }

/-! ### Geometry -/

/-- A rectangle from its offset and length along the strip, whichever way it runs. -/
def cell (s : ButtonStrip R) (offset length : R) : Rect R :=
  if s.horizontal then ⟨s.m.start + offset, s.m.cross, length, s.m.thickness⟩
  else ⟨s.m.cross, s.m.start + offset, s.m.thickness, length⟩

def toggleRect (s : ButtonStrip R) : Rect R := s.cell 0 s.m.toggle

def prevRect (s : ButtonStrip R) : Rect R := s.cell s.m.toggle s.m.arrow

def runStart (s : ButtonStrip R) : R := s.m.toggle + (if s.m.arrows then s.m.arrow else 0)

def runRect (s : ButtonStrip R) : Rect R := s.cell s.runStart s.m.run

def nextRect (s : ButtonStrip R) : Rect R := s.cell (s.runStart + s.m.run) s.m.arrow

def addRect (s : ButtonStrip R) : Rect R :=
  s.cell (s.runStart + s.m.run + (if s.m.arrows then s.m.arrow else 0)) s.m.add

/-- What the strip covers. -/
def occupied (s : ButtonStrip R) : Rect R :=
  if !s.expanded then s.toggleRect
  else
    let add := s.addRect
    if s.horizontal then ⟨s.m.start, s.m.cross, add.x + add.w - s.m.start, s.m.thickness⟩
    else ⟨s.m.cross, s.m.start, s.m.thickness, add.y + add.h - s.m.start⟩

def captionOrigin (s : ButtonStrip R) : Point R :=
  let strip := s.occupied
  if s.horizontal then ⟨strip.x, strip.y - (17 : ℕ) * s.density⟩
  else ⟨strip.x, strip.y + strip.h + (8 : ℕ) * s.density⟩

def suggestionBar (s : ButtonStrip R) : Rect R :=
  let o := s.captionOrigin
  ⟨o.x, o.y - (9 : ℕ) * s.density, (230 : ℕ) * s.density, (30 : ℕ) * s.density⟩

def acceptRect (s : ButtonStrip R) : Rect R :=
  let bar := s.suggestionBar
  let d := (24 : ℕ) * s.density
  ⟨bar.x + (3 : ℕ) * s.density, bar.y + (3 : ℕ) * s.density, d, d⟩

def declineRect (s : ButtonStrip R) : Rect R :=
  let a := s.acceptRect
  ⟨a.x + a.w + (6 : ℕ) * s.density, a.y, a.w, a.h⟩

/-- The remainder of the C library, which has the sign of the value. -/
def fmod (value span : R) : R := value - (TouchRouter.trunc (value / span) : R) * span

/-- A remainder that is never negative. -/
def wrap (value span : R) : R :=
  if span ≤ 0 then 0
  else
    let r := fmod value span
    if r < 0 then r + span else r

/-- The scroll folded into one lap of the `count` buttons. -/
def wrappedScroll (s : ButtonStrip R) (count : ℕ) : R := wrap s.scroll ((count : R) * s.m.slot)

/-- How far the first drawn position has slid out of the run. -/
def phase (s : ButtonStrip R) (count : ℕ) : R :=
  if s.scrollable then fmod (s.wrappedScroll count) s.m.slot else 0

/-- The drawn position `k`, which slides with the scroll. -/
def slotRect (s : ButtonStrip R) (count : ℕ) (k : ℤ) : Rect R :=
  s.cell (s.runStart + (k : R) * s.m.slot - s.phase count) s.m.slot

/-- The button in the drawn position `k`, or -1. One position past the last full one is the
button that slides in at the edge. -/
def buttonAt (s : ButtonStrip R) (count : ℕ) (k : ℤ) : ℤ :=
  if count = 0 ∨ k < 0 then -1
  else if !s.scrollable then if k < s.m.visible then k else -1
  else if k > s.m.visible then -1
  else (TouchRouter.trunc (s.wrappedScroll count / s.m.slot) + k).tmod count

/-- The drawn positions, in the order in which they are searched. -/
def drawn (s : ButtonStrip R) : List ℤ := (List.range (s.m.visible + 1).toNat).map (↑)

/-- The touchable model of a region button's rectangle, in the shape of the rectangle. -/
def regionPad (s : ButtonStrip R) (slot : Rect R) (button : CustomButton) : Rect R :=
  let pad := (6 : ℕ) * s.density
  let label := (15 : ℕ) * s.density
  let box : Rect R :=
    ⟨slot.x + pad, slot.y + pad, slot.w - pad * (2 : ℕ), slot.h - pad * (2 : ℕ) - label⟩
  if box.w ≤ 0 ∨ box.h ≤ 0 ∨ button.target.w ≤ 0 ∨ button.target.h ≤ 0 then box
  else
    let aspect : R := (button.target.w.toInt : R) / (button.target.h.toInt : R)
    let h := box.w / aspect
    let tall := h > box.h
    let w := if tall then box.h * aspect else box.w
    let h := if tall then box.h else h
    ⟨box.x + (box.w - w) / (2 : ℕ), box.y + (box.h - h) / (2 : ℕ), w, h⟩

/-- The place of the region under a place of its model, or at the edge if it is beside it. -/
def mapIntoRegion (button : CustomButton) (pad : Rect R) (p : Point R) : Point R :=
  let x : R := button.target.x.toInt
  let y : R := button.target.y.toInt
  if pad.w ≤ 0 ∨ pad.h ≤ 0 then ⟨x, y⟩
  else
    let tx := ViewTransform.clamp ((p.x - pad.x) / pad.w) 0 1
    let ty := ViewTransform.clamp ((p.y - pad.y) / pad.h) 0 1
    ⟨x + tx * (max (button.target.w.toInt - 1) 0 : ℤ),
      y + ty * (max (button.target.h.toInt - 1) 0 : ℤ)⟩

/-- The distance along the strip, signed the way the content moves. -/
def along (s : ButtonStrip R) (a b : Point R) : R :=
  if s.horizontal then a.x - b.x else a.y - b.y

def across (s : ButtonStrip R) (a b : Point R) : R :=
  if s.horizontal then a.y - b.y else a.x - b.x

/-- The button under the finger, if it is still there. -/
def pressedButton (s : ButtonStrip R) (buttons : List CustomButton) : Option CustomButton :=
  if s.pressSlot < 0 then none else buttons[s.pressSlot.toNat]?

/-! ### Scrolling -/

/-- The slot boundary nearest to the scroll. -/
def nearestSlot (s : ButtonStrip R) : R := (FloatOps.lround (s.scroll / s.m.slot) : R) * s.m.slot

def nudge (s : ButtonStrip R) (slots : ℤ) : ButtonStrip R :=
  if !s.scrollable then s
  else { s with scrollTarget := s.nearestSlot + (slots : R) * s.m.slot }

def snapToSlot (s : ButtonStrip R) : ButtonStrip R :=
  if !s.scrollable then { s with scrollTarget := s.scroll }
  else { s with scrollTarget := s.nearestSlot }

/-- The list on its way to where it settles. -/
def settle (s : ButtonStrip R) (dt : R) : ButtonStrip R :=
  if s.scrolling ∨ s.scroll = s.scrollTarget then s
  else
    let t := ViewTransform.clamp (dt / kSnapSeconds) 0 1
    let scroll := s.scroll + (s.scrollTarget - s.scroll) * t
    { s with scroll := if |s.scrollTarget - scroll| < 1 / (2 : ℕ) then s.scrollTarget else scroll }

/-- The list settles, and a press that lasts becomes a long press. -/
def advance (s : ButtonStrip R) (dt : R) : ButtonStrip R :=
  let s := s.settle dt
  if ¬(s.press = .slot ∨ s.press = .toggle) ∨ s.pressMoved then s
  else
    let s := { s with pressSeconds := s.pressSeconds + dt }
    if s.pressSeconds < kLongPressSeconds then s
    else
      let s := if s.press = .toggle then { s with presetMenuRequested := true }
        else { s with longPress := s.pressSlot }
      -- the release does not fire anything as well
      { s with press := .none, pressSlot := -1 }

/-! ### Input -/

/-- What a point of the strip is, or of the offer beside it. -/
def target (s : ButtonStrip R) (p : Point R) : Press :=
  if s.expanded && s.suggesting && s.acceptRect.contains p then .accept
  else if s.expanded && s.suggesting && s.declineRect.contains p then .decline
  else if s.toggleRect.contains p then .toggle
  else if !s.expanded then .none
  else if s.m.arrows && s.prevRect.contains p then .prev
  else if s.m.arrows && s.nextRect.contains p then .next
  else if s.addRect.contains p then .add
  else if s.runRect.contains p then .slot
  else .none

/-- The button drawn under a point of the run, or -1. -/
def buttonUnder (s : ButtonStrip R) (count : ℕ) (p : Point R) : ℤ :=
  ((s.drawn.find? fun k => (s.slotRect count k).contains p).map (s.buttonAt count)).getD (-1)

/-- The strip with a finger down somewhere. -/
def landed (s : ButtonStrip R) (p : Point R) : ButtonStrip R :=
  { s with
    press := .none, pressSlot := -1, pressPos := p, pressSeconds := 0, pressMoved := false
    scrolling := false, scrollAtPress := s.scroll }

/-- The strip with a finger down on what is there, and whether it takes the touch. -/
def hitTest (s : ButtonStrip R) (buttons : List CustomButton) (p : Point R) :
    ButtonStrip R × Bool :=
  match s.target p with
  | .none => (s.landed p, s.expanded && s.occupied.contains p)
  | .slot =>
    ({ s.landed p with press := .slot, pressSlot := s.buttonUnder buttons.length p }, true)
  | press => ({ s.landed p with press }, true)

def drag (s : ButtonStrip R) (p : Point R) : ButtonStrip R :=
  if s.press ≠ .slot then s
  else
    let s := if !s.pressMoved ∧ MotionEvent.norm (p - s.pressPos) > kMoveSlopDp * s.density then
        -- only a drag along the strip scrolls it; one across it slides off the button
        { s with
          pressMoved := true
          scrolling := s.scrollable && |s.along p s.pressPos| > |s.across p s.pressPos| }
      else s
    if !s.scrolling then s
    else
      let scroll := s.scrollAtPress - s.along p s.pressPos
      { s with scroll := scroll, scrollTarget := scroll }

def tap (s : ButtonStrip R) (target : Point R) : ButtonStrip R :=
  { s with sent := s.sent ++ [.pointer .down target, .pointer .up target] }

def activate (s : ButtonStrip R) (count : ℕ) (button : CustomButton) (at' : Point R) :
    ButtonStrip R :=
  match button.kind with
  | .point => s.tap ⟨button.target.x.toInt, button.target.y.toInt⟩
  | .region =>
    match s.drawn.find? fun k => s.buttonAt count k = s.pressSlot with
    | none => s
    | some k => s.tap (mapIntoRegion button (s.regionPad (s.slotRect count k) button) at')
  | .shortcut => { s with sent := s.sent ++ [.shortcut button] }

/-- What the finger came down on happens, if it is still pressed. -/
def releaseAct (s : ButtonStrip R) (buttons : List CustomButton) : ButtonStrip R :=
  match s.press with
  | .toggle => { s with expanded := !s.expanded, stateChanged := true }.layout buttons
      s.surfaceW s.surfaceH s.density
  | .prev => s.nudge (-1)
  | .next => s.nudge 1
  | .add => { s with addRequested := true }
  | .accept => { s with suggestionAccepted := true, suggestedName := [] }
  | .decline => { s with suggestionDeclined := true, suggestedName := [] }
  | .slot =>
    if s.scrolling then { s with scrolling := false }.snapToSlot
    else
      match s.pressedButton buttons with
      | some button => if s.pressMoved then s else s.activate buttons.length button s.pressPos
      | none => s
  | .none => s

def release (s : ButtonStrip R) (buttons : List CustomButton) : ButtonStrip R :=
  { s.releaseAct buttons with press := .none, pressSlot := -1, scrolling := false }

/-- Abandons a press without acting on it. -/
def cancelPress (s : ButtonStrip R) : ButtonStrip R :=
  let s := if s.scrolling then { s with scrolling := false }.snapToSlot else s
  { s with press := .none, pressSlot := -1, pressMoved := false }

/-! ### What the app collects once a frame -/

def takeAddRequest (s : ButtonStrip R) : ButtonStrip R × Bool :=
  ({ s with addRequested := false }, s.addRequested)

def takeStateChange (s : ButtonStrip R) : ButtonStrip R × Bool :=
  ({ s with stateChanged := false }, s.stateChanged)

def takeLongPress (s : ButtonStrip R) : ButtonStrip R × ℤ :=
  ({ s with longPress := -1 }, s.longPress)

def takePresetMenuRequest (s : ButtonStrip R) : ButtonStrip R × Bool :=
  ({ s with presetMenuRequested := false }, s.presetMenuRequested)

def takeSuggestionAccepted (s : ButtonStrip R) : ButtonStrip R × Bool :=
  ({ s with suggestionAccepted := false }, s.suggestionAccepted)

def takeSuggestionDeclined (s : ButtonStrip R) : ButtonStrip R × Bool :=
  ({ s with suggestionDeclined := false }, s.suggestionDeclined)

end ButtonStrip

end Digitiz
