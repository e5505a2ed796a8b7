import Digitiz.ButtonStrip

/-!
The drawer with the settings.

It slides in from the right edge when its handle is tapped and out again when anything beside it is
tapped. A tap inside it that lands on a row or a header button changes a setting and raises a flag
for the app to collect; three sliders follow the finger until it lifts.
-/

namespace Digitiz

/-- The mode after this one in the drawer. -/
def nextMode : InputMode → InputMode
  | .draw => .slide
  | .slide => .pan
  | .pan => .draw

structure SideMenu (R : Type) where
  surfaceW : ℤ
  surfaceH : ℤ
  density : R
  panelW : R
  handleW : R
  handleH : R
  /-- 0 for closed and 1 for open. -/
  target : R
  /-- Where the drawer is on its way to the target. -/
  progress : R
  mode : InputMode
  modeChanged : Bool
  autoLaunch : Bool
  autoLaunchChanged : Bool
  rotateRequested : Bool
  aboutRequested : Bool
  stripVertical : Bool
  stripChanged : Bool
  screenEnabled : Bool
  screenChanged : Bool
  stylusOnly : Bool
  stylusChanged : Bool
  minIntervalMs : ℤ
  minDistanceDp : R
  throttleChanged : Bool
  stripSlots : ℤ
  stripSlotsMax : ℤ
  stripSlotsChanged : Bool
  /-- The slider that has the finger, or -1. -/
  draggingSlider : ℤ

namespace SideMenu

variable {R : Type} [Field R] [LinearOrder R]

def kSlideSeconds : R := (4 : ℕ) / (25 : ℕ)
def kMaxIntervalMs : ℤ := 40
def kMaxDistanceDp : R := (16 : ℕ)
def kSliderCount : ℕ := 3

/-- A drawer as it is constructed. -/
def init : SideMenu R where
  surfaceW := 0
  surfaceH := 0
  density := 1
  panelW := 0
  handleW := 0
  handleH := 0
  target := 0
  progress := 0
  mode := .draw
  modeChanged := false
  autoLaunch := true
  autoLaunchChanged := false
  rotateRequested := false
  aboutRequested := false
  stripVertical := false
  stripChanged := false
  screenEnabled := false
  screenChanged := false
  stylusOnly := false
  stylusChanged := false
  minIntervalMs := 0
  minDistanceDp := 0
  throttleChanged := false
  stripSlots := 1
  stripSlotsMax := 1
  stripSlotsChanged := false
  draggingSlider := -1

def isOpen (m : SideMenu R) : Bool := m.target > 1 / (2 : ℕ)

def layout (m : SideMenu R) (surfaceW surfaceH : ℤ) (density : R) : SideMenu R :=
  let density := if density > 0 then density else 1
  { m with
    surfaceW, surfaceH, density
    handleW := (22 : ℕ) * density
    handleH := (110 : ℕ) * density
    panelW := min ((surfaceW : R) * ((62 : ℕ) / (100 : ℕ))) ((300 : ℕ) * density) }

/-- The drawer slides on. -/
def advance (m : SideMenu R) (dt : R) : SideMenu R :=
  let step := dt / kSlideSeconds
  if m.progress < m.target then { m with progress := min m.target (m.progress + step) }
  else if m.progress > m.target then { m with progress := max m.target (m.progress - step) }
  else m

/-! ### Settings -/

def setAutoLaunch (m : SideMenu R) (on : Bool) : SideMenu R := { m with autoLaunch := on }

def setStripVertical (m : SideMenu R) (on : Bool) : SideMenu R := { m with stripVertical := on }

def setScreenEnabled (m : SideMenu R) (on : Bool) : SideMenu R := { m with screenEnabled := on }

def setStylusOnly (m : SideMenu R) (on : Bool) : SideMenu R := { m with stylusOnly := on }

/-- An integer in the range, or the end of the range it lies beyond. -/
def clampInt (v lo hi : ℤ) : ℤ := if v < lo then lo else if hi < v then hi else v

def setThrottle (m : SideMenu R) (intervalMs : ℤ) (distanceDp : R) : SideMenu R :=
  { m with
    minIntervalMs := clampInt intervalMs 0 kMaxIntervalMs
    minDistanceDp := ViewTransform.clamp distanceDp 0 kMaxDistanceDp }

def setStripSlots (m : SideMenu R) (slots max : ℤ) : SideMenu R :=
  let most := if max > 0 then max else 1
  { m with stripSlotsMax := most, stripSlots := clampInt slots 1 most }

/-! ### Geometry -/

def easeOut (t : R) : R := 1 - (1 - t) * (1 - t)

def handleRect (m : SideMenu R) : Rect R :=
  let slide := easeOut m.progress * m.panelW
  ⟨(m.surfaceW : R) - m.handleW - slide, ((m.surfaceH : R) - m.handleH) / (2 : ℕ), m.handleW,
    m.handleH⟩

def panelRect (m : SideMenu R) : Rect R :=
  let slide := easeOut m.progress * m.panelW
  ⟨(m.surfaceW : R) - slide, 0, m.panelW, (m.surfaceH : R)⟩

def titleRect (m : SideMenu R) : Rect R :=
  let panel := m.panelRect
  let pad := (16 : ℕ) * m.density
  ⟨panel.x + pad, (8 : ℕ) * m.density, (90 : ℕ) * m.density, (40 : ℕ) * m.density⟩

def rotateButton (m : SideMenu R) : Rect R :=
  let panel := m.panelRect
  let pad := (16 : ℕ) * m.density
  let w := (92 : ℕ) * m.density
  let h := (34 : ℕ) * m.density
  ⟨panel.x + panel.w - pad - w, (12 : ℕ) * m.density, w, h⟩

def stripButton (m : SideMenu R) : Rect R :=
  let rotate := m.rotateButton
  let w := (42 : ℕ) * m.density
  ⟨rotate.x - (6 : ℕ) * m.density - w, rotate.y, w, rotate.h⟩

def screenButton (m : SideMenu R) : Rect R :=
  let strip := m.stripButton
  let w := (42 : ℕ) * m.density
  ⟨strip.x - (6 : ℕ) * m.density - w, strip.y, w, strip.h⟩

def modeRow (m : SideMenu R) : Rect R :=
  let panel := m.panelRect
  let pad := (16 : ℕ) * m.density
  ⟨panel.x + pad, (56 : ℕ) * m.density, panel.w - pad * (2 : ℕ), (54 : ℕ) * m.density⟩

def modeValuePill (m : SideMenu R) : Rect R :=
  let row := m.modeRow
  let w := (118 : ℕ) * m.density
  let h := (36 : ℕ) * m.density
  ⟨row.x + row.w - w - (10 : ℕ) * m.density, row.y + (row.h - h) / (2 : ℕ), w, h⟩

def stylusButton (m : SideMenu R) : Rect R :=
  let pill := m.modeValuePill
  let w := (40 : ℕ) * m.density
  let h := (30 : ℕ) * m.density
  ⟨pill.x - (8 : ℕ) * m.density - w, pill.y + (pill.h - h) / (2 : ℕ), w, h⟩

def autoLaunchRow (m : SideMenu R) : Rect R :=
  let above := m.modeRow
  ⟨above.x, above.y + above.h + (12 : ℕ) * m.density, above.w, above.h⟩

def sliderRow (m : SideMenu R) (index : ℕ) : Rect R :=
  let above := m.autoLaunchRow
  let h := (58 : ℕ) * m.density
  let gap := (8 : ℕ) * m.density
  ⟨above.x, above.y + above.h + (12 : ℕ) * m.density + (index : R) * (h + gap), above.w, h⟩

def sliderTrack (m : SideMenu R) (index : ℕ) : Rect R :=
  let row := m.sliderRow index
  let pad := (16 : ℕ) * m.density
  ⟨row.x + pad, row.y + row.h - (20 : ℕ) * m.density, row.w - pad * (2 : ℕ), (6 : ℕ) * m.density⟩

/-- Where the knob of a slider stands on its track. -/
def sliderFraction (m : SideMenu R) (index : ℕ) : R :=
  if index = 0 then (m.minIntervalMs : R) / (kMaxIntervalMs : R)
  else if index = 1 then m.minDistanceDp / kMaxDistanceDp
  else if m.stripSlotsMax ≤ 1 then 1
  else ((m.stripSlots - 1 : ℤ) : R) / ((m.stripSlotsMax - 1 : ℤ) : R)

/-! ### Input -/

variable [FloatOps R]

/-- The value of a slider under a place of the surface. -/
def setSliderFromX (m : SideMenu R) (index : ℕ) (x : R) : SideMenu R :=
  let track := m.sliderTrack index
  let t := ViewTransform.clamp ((x - track.x) / track.w) 0 1
  if index = 2 then
    let slots := 1 + FloatOps.lround (t * ((m.stripSlotsMax - 1 : ℤ) : R))
    if slots ≠ m.stripSlots then { m with stripSlots := slots, stripSlotsChanged := true } else m
  else if index = 0 then
    let ms := FloatOps.lround (t * (kMaxIntervalMs : R))
    if ms ≠ m.minIntervalMs then { m with minIntervalMs := ms, throttleChanged := true } else m
  else
    let dp := (FloatOps.lround (t * kMaxDistanceDp * (2 : ℕ)) : R) / (2 : ℕ)
    if dp ≠ m.minDistanceDp then { m with minDistanceDp := dp, throttleChanged := true } else m

/-- What a tap inside the drawer does once it has arrived. -/
def tapPanel (m : SideMenu R) (p : Point R) : SideMenu R :=
  if m.titleRect.contains p then { m with aboutRequested := true }
  else if m.rotateButton.contains p then { m with rotateRequested := true }
  else if m.stripButton.contains p then
    { m with stripVertical := !m.stripVertical, stripChanged := true }
  else if m.screenButton.contains p then
    { m with screenEnabled := !m.screenEnabled, screenChanged := true }
  else if m.stylusButton.contains p then
    { m with stylusOnly := !m.stylusOnly, stylusChanged := true }
  else if m.modeRow.contains p then { m with mode := nextMode m.mode, modeChanged := true }
  else if m.autoLaunchRow.contains p then
    { m with autoLaunch := !m.autoLaunch, autoLaunchChanged := true }
  else
    match (List.range kSliderCount).find? fun i => (m.sliderRow i).contains p with
    | some i => { m with draggingSlider := i }.setSliderFromX i p.x
    | none => m

/-- The drawer with a finger down, and whether it takes the touch. -/
def hitTest (m : SideMenu R) (p : Point R) : SideMenu R × Bool :=
  let handle := m.handleRect
  let slop := (12 : ℕ) * m.density
  let handle : Rect R := ⟨handle.x - slop, handle.y - slop, handle.w + slop * (2 : ℕ),
    handle.h + slop * (2 : ℕ)⟩
  if handle.contains p then ({ m with target := if m.isOpen then 0 else 1 }, true)
  else if m.progress > 1 / (100 : ℕ) && m.panelRect.contains p then
    -- a tap during the slide would land on a row that has moved
    (if m.progress > (9 : ℕ) / (10 : ℕ) then m.tapPanel p else m, true)
  else if m.isOpen then ({ m with target := 0 }, true)
  else (m, false)

def drag (m : SideMenu R) (p : Point R) : SideMenu R :=
  if m.draggingSlider ≥ 0 then m.setSliderFromX m.draggingSlider.toNat p.x else m

def release (m : SideMenu R) (p : Point R) : SideMenu R :=
  if m.draggingSlider ≥ 0 then
    { m.setSliderFromX m.draggingSlider.toNat p.x with draggingSlider := -1 }
  else m

/-- Abandons a press without acting on it. -/
def cancelPress (m : SideMenu R) : SideMenu R := { m with draggingSlider := -1 }

end SideMenu

end Digitiz
