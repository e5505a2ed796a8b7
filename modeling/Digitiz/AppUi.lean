import Digitiz.PresetMatch
import Digitiz.Settings
import Digitiz.SideMenu
import Digitiz.TouchLanguage

/-!
The part of the app that the fingers reach.

A touch belongs to the drawer, to the strip or to the router, from the moment it lands until it
lifts. Once a frame the app takes what the network and the dialogs have left for it, hands the
motion events to whom they belong, and then collects what the widgets were asked for: settings go
where they take effect and into the file, presets are selected and offered.

What is sent to the host is kept in the order in which it is sent, whoever sends it.
-/

namespace Digitiz

open ButtonStore

/-- Which widget has the finger. -/
inductive UiOwner
  | none
  | menu
  | strip
  deriving DecidableEq, Repr

inductive PresetCommandKind
  | select
  | create
  | rename
  | bind
  | unbind
  | delete
  deriving DecidableEq, Repr

/-- What was chosen in the preset menu. -/
structure PresetCommand where
  kind : PresetCommandKind
  index : ℤ
  text : List UInt8

/-- What was entered in the button editor; an index below zero is a new button. -/
structure ButtonEdit where
  index : ℤ
  button : CustomButton

inductive ButtonCommandKind
  | edit
  | delete
  | earlier
  | later
  deriving DecidableEq, Repr

structure ButtonCommand where
  index : ℤ
  kind : ButtonCommandKind

/-- What the activity is asked to show or do. -/
inductive Dialog
  | buttonEditor (index : ℤ) (button : CustomButton)
  | buttonMenu (index : ℤ) (label : List UInt8)
  | presetMenu (names : List (List UInt8)) (current : ℕ) (activeWindow : List UInt8)
  | licenses
  | flipOrientation
  deriving DecidableEq, Repr

/-- A message of the input side to the host. -/
inductive GuestMsg
  | pointer (m : Pointer)
  | key (k : Key)
  deriving DecidableEq, Repr

/-- What the network thread, the system and the dialogs have left for a frame. -/
structure FrameInput (R : Type) where
  /-- The program now in focus on the PC, if that was reported. -/
  activeWindow : Option (List UInt8) := none
  strokeCancel : Bool := false
  viewNeedsFit : Bool := false
  /-- Motion events, with the time on the clock when they are handled. -/
  events : List (UInt64 × MotionEvent R) := []
  presets : List PresetCommand := []
  edits : List ButtonEdit := []
  commands : List ButtonCommand := []
  dt : R

structure AppUi (R : Type) [FloatText R] where
  touch : Touch R
  menu : SideMenu R
  strip : ButtonStrip R
  buttons : ButtonStore
  settings : Settings R
  /-- What is in the settings file, if there is one. -/
  settingsFile : Option (List UInt8)
  owner : UiOwner
  screenEnabled : Bool
  width : ℤ
  height : ℤ
  density : R
  ready : Bool
  desktop : Recti
  monitors : List Recti
  viewFitted : Bool
  focusedProcess : List UInt8
  /-- The program the user has already said no to. -/
  offerDeclinedFor : List UInt8
  offeredPreset : ℤ
  defaultPresetName : List UInt8
  dialogs : List Dialog
  sent : List GuestMsg

namespace AppUi

variable {R : Type} [Field R] [LinearOrder R] [FloatOps R] [FloatText R]

/-! ### Messages -/

/-- An offset inside the window in focus, in whatever mode the drawing surface is. -/
def buttonPointer (now : UInt64) (action : PointerAction) (pc : Point R) : Pointer :=
  { tUs := now, x := Int32.ofInt (FloatOps.lround pc.x), y := Int32.ofInt (FloatOps.lround pc.y)
    action := action, button := .left, flags := kPointerWindowRelative }

def buttonShortcut (button : CustomButton) : Key :=
  { modifiers := button.modifiers, action := .press, key := button.key }

def stripMsg (now : UInt64) : StripCall R → GuestMsg
  | .pointer action target => .pointer (buttonPointer now action target)
  | .shortcut button => .key (buttonShortcut button)

/-- A call of the router, with a finger on the glass afterwards or not. -/
def routed (a : AppUi R) (c : TouchCall R) (touching : Bool) : AppUi R :=
  let r := Touch.call a.touch.router c
  { a with
    touch := ⟨r, touching⟩
    sent := a.sent ++ (r.sent.drop a.touch.router.sent.length).map .pointer }

/-- A call of the router that has nothing to do with the glass. -/
def call (a : AppUi R) (c : TouchCall R) : AppUi R := a.routed c a.touch.touching

/-- The strip after an operation, with what it handed to its sinks sent. -/
def withStrip (a : AppUi R) (now : UInt64) (strip : ButtonStrip R) : AppUi R :=
  { a with
    strip
    sent := a.sent ++ (strip.sent.drop a.strip.sent.length).map (stripMsg now) }

/-! ### Whose touch it is -/

/-- The strip is asked first unless the drawer is open, and the drawer next. -/
def hit (a : AppUi R) (p : Point R) : AppUi R × Bool :=
  let (strip, onStrip) :=
    if a.menu.isOpen then (a.strip, false) else a.strip.hitTest a.buttons.buttons p
  if onStrip then ({ a with strip, owner := .strip }, true)
  else
    let (menu, onMenu) := a.menu.hitTest p
    ({ a with strip, menu, owner := if onMenu then .menu else .none }, onMenu)

def widgetDrag (a : AppUi R) (p : Point R) : AppUi R :=
  match a.owner with
  | .strip => { a with strip := a.strip.drag p }
  | .menu => { a with menu := a.menu.drag p }
  | .none => a

def widgetRelease (a : AppUi R) (now : UInt64) (p : Point R) : AppUi R :=
  match a.owner with
  | .strip => { a.withStrip now (a.strip.release a.buttons.buttons) with owner := .none }
  | .menu => { a with menu := a.menu.release p, owner := .none }
  | .none => a

def widget (a : AppUi R) (now : UInt64) : UiCall R → AppUi R
  | .drag p => a.widgetDrag p
  | .release p => a.widgetRelease now p

/-- Whether a desktop point is on a screen. -/
def pcPointOnScreen (a : AppUi R) (pc : Point R) : Bool :=
  a.monitors.any fun m => m.contains (Int32.ofInt (FloatOps.lround pc.x)).toInt
    (Int32.ofInt (FloatOps.lround pc.y)).toInt

def answers (a : AppUi R) : Answers R :=
  { uiHit := some fun p => (a.hit p).2, onScreen := some a.pcPointOnScreen }

/-- One motion event, if it can come: it has a finger, and fingers land and lift in turn, where one
that went away with the focus has lifted. -/
def motion (a : AppUi R) (now : UInt64) (e : MotionEvent R) : Option (AppUi R) :=
  if e.pointers = [] then none
  else
    (e.maskedAction.glass a.touch.touching).map fun touching =>
      -- a finger that lands is offered to the widgets first
      let b := if e.maskedAction = .down then (a.hit (e.pointerPos 0)).1 else a
      let c := b.routed (.handle e a.answers) touching
      (c.touch.router.widgets.drop a.touch.router.widgets.length).foldl (·.widget now ·) c

/-! ### Settings -/

def withSettings (a : AppUi R) (s : Settings R × Option (List UInt8)) : AppUi R :=
  { a with settings := s.1, settingsFile := s.2 <|> a.settingsFile }

/-- The decimation of the router, in its own units. -/
def applyThrottle (a : AppUi R) : AppUi R :=
  (a.call (.setMinIntervalUs (UInt64.ofInt a.settings.minIntervalMs.toInt * 1000))).call
    (.setMinDistancePx (a.settings.minDistanceDp * a.density))

def relayoutWidgets (a : AppUi R) : AppUi R :=
  let strip := a.strip.layout a.buttons.buttons a.width a.height a.density
  { a with
    strip
    menu := (a.menu.layout a.width a.height a.density).setStripSlots strip.effectiveLimit
      strip.maxSlots }

def fitViewToDesktop (a : AppUi R) : AppUi R :=
  if a.width ≤ 0 ∨ a.height ≤ 0 then a
  else
    { a with viewFitted := true }.call (.setView
      (a.touch.router.view.fit a.desktop a.width a.height ((12 : ℕ) / (100 : ℕ))))

/-! ### Presets -/

def presetDisplayName (a : AppUi R) (index : ℤ) : List UInt8 :=
  match if index < 0 then none else a.buttons.presets[index.toNat]? with
  | none => a.defaultPresetName
  | some p => if p.name = [] then a.defaultPresetName else p.name

/-- The preset to offer for the program in focus, or -1. -/
def wantedOffer (a : AppUi R) : ℤ :=
  let wanted := a.buttons.presetFor a.focusedProcess
  if wanted ≥ 0 ∧ wanted ≠ a.buttons.current ∧ a.focusedProcess ≠ a.offerDeclinedFor then wanted
  else -1

def refreshPresetOffer (a : AppUi R) : AppUi R :=
  let offered := a.wantedOffer
  { a with
    offeredPreset := offered
    strip := (a.strip.setPresetName (a.presetDisplayName a.buttons.current)).setSuggestion
      (if offered ≥ 0 then a.presetDisplayName offered else []) }

def presetCommand (s : ButtonStore) (c : PresetCommand) : ButtonStore :=
  match c.kind with
  | .select => (s.select c.index).1
  | .create => (s.create c.text).1
  | .rename => (s.rename c.index c.text).1
  | .bind => (s.setMatch c.index c.text).1
  | .unbind => (s.setMatch c.index []).1
  | .delete => (s.removePreset c.index).1

def applyPresetEvents (a : AppUi R) (commands : List PresetCommand) : AppUi R :=
  if commands = [] then a
  else { a with buttons := commands.foldl presetCommand a.buttons }.relayoutWidgets.refreshPresetOffer

def presetMenuEntry (a : AppUi R) (i : ℕ) (p : Preset) : List UInt8 :=
  let entry := a.presetDisplayName i
  let entry := if i = a.buttons.current then ascii "> " ++ entry else entry
  if p.match' = [] then entry
  else entry ++ ascii "   (" ++ p.match' ++ ascii ")"

def openPresetMenu (a : AppUi R) : AppUi R :=
  { a with dialogs := a.dialogs ++ [.presetMenu (a.buttons.presets.mapIdx a.presetMenuEntry)
      a.buttons.current a.focusedProcess] }

/-! ### Buttons -/

def openButtonEditor (a : AppUi R) (index : ℤ) : AppUi R :=
  { a with dialogs := a.dialogs ++ [if a.buttons.valid index then
      .buttonEditor index (a.buttons.buttons.getD index.toNat {}) else .buttonEditor (-1) {}] }

def applyEdit (a : AppUi R) (e : ButtonEdit) : AppUi R :=
  { a with buttons := if e.index < 0 then (a.buttons.add e.button).1
      else (a.buttons.replace e.index e.button).1 }

def applyCommand (a : AppUi R) (c : ButtonCommand) : AppUi R :=
  match c.kind with
  | .edit => a.openButtonEditor c.index
  | .delete => { a with buttons := (a.buttons.remove c.index).1 }
  | .earlier => { a with buttons := (a.buttons.move c.index (-1)).1 }
  | .later => { a with buttons := (a.buttons.move c.index 1).1 }

def applyButtonEvents (a : AppUi R) (edits : List ButtonEdit) (commands : List ButtonCommand) :
    AppUi R :=
  if edits = [] ∧ commands = [] then a
  else (commands.foldl applyCommand (edits.foldl applyEdit a)).relayoutWidgets

/-! ### A frame -/

/-- What the network thread left. -/
def applyPending (a : AppUi R) (f : FrameInput R) : AppUi R :=
  let a := match f.activeWindow with
    | none => a
    | some process =>
      -- a different program, so an earlier refusal no longer applies
      let a := if process = a.focusedProcess then a else { a with offerDeclinedFor := [] }
      { a with focusedProcess := process, strip := a.strip.setActiveWindow process
        }.refreshPresetOffer
  let a := if f.strokeCancel then a.call .cancelStroke else a
  if f.viewNeedsFit then a.fitViewToDesktop else a

def drainInput (a : AppUi R) (events : List (UInt64 × MotionEvent R)) : Option (AppUi R) :=
  events.foldlM (fun a e => a.motion e.1 e.2) a

def collectMode (a : AppUi R) : AppUi R :=
  if a.menu.modeChanged then
    { a with menu := { a.menu with modeChanged := false } }.call (.setMode a.menu.mode)
  else a

def orientationOf (vertical : Bool) : StripOrientation := if vertical then .vertical else .horizontal

def collectStripChange (a : AppUi R) : AppUi R :=
  if a.menu.stripChanged then
    let a := { a with
      menu := { a.menu with stripChanged := false }
      strip := a.strip.setOrientation (orientationOf a.menu.stripVertical) }.relayoutWidgets
    a.withSettings (a.settings.setStrip a.menu.stripVertical a.strip.expanded)
  else a

def collectStateChange (a : AppUi R) : AppUi R :=
  if a.strip.stateChanged then
    let a := { a with strip := a.strip.takeStateChange.1 }
    a.withSettings (a.settings.setStrip a.menu.stripVertical a.strip.expanded)
  else a

def collectStripSlots (a : AppUi R) : AppUi R :=
  if a.menu.stripSlotsChanged then
    let a := { a with
      menu := { a.menu with stripSlotsChanged := false }
      strip := a.strip.setSlotLimit a.menu.stripSlots }.relayoutWidgets
    a.withSettings (a.settings.setStripSlots (Int32.ofInt a.menu.stripSlots))
  else a

def collectAddRequest (a : AppUi R) : AppUi R :=
  if a.strip.addRequested then
    { a with strip := a.strip.takeAddRequest.1 }.openButtonEditor (-1)
  else a

def collectPresetMenu (a : AppUi R) : AppUi R :=
  if a.strip.presetMenuRequested then
    { a with strip := a.strip.takePresetMenuRequest.1 }.openPresetMenu
  else a

def collectAccepted (a : AppUi R) : AppUi R :=
  if a.strip.suggestionAccepted then
    let a := { a with strip := a.strip.takeSuggestionAccepted.1 }
    let (buttons, moved) := a.buttons.select a.offeredPreset
    let a := { a with buttons }
    (if moved then a.relayoutWidgets else a).refreshPresetOffer
  else a

def collectDeclined (a : AppUi R) : AppUi R :=
  if a.strip.suggestionDeclined then
    { a with
      strip := a.strip.takeSuggestionDeclined.1
      offerDeclinedFor := a.focusedProcess }.refreshPresetOffer
  else a

def collectLongPress (a : AppUi R) : AppUi R :=
  let held := a.strip.longPress
  let a := { a with strip := a.strip.takeLongPress.1 }
  if a.buttons.valid held then
    { a with dialogs := a.dialogs ++
      [.buttonMenu held (a.buttons.buttons.getD held.toNat {}).label] }
  else a

def collectAbout (a : AppUi R) : AppUi R :=
  if a.menu.aboutRequested then
    { a with menu := { a.menu with aboutRequested := false }, dialogs := a.dialogs ++ [.licenses] }
  else a

def collectRotate (a : AppUi R) : AppUi R :=
  if a.menu.rotateRequested then
    { a with
      menu := { a.menu with rotateRequested := false }
      dialogs := a.dialogs ++ [.flipOrientation] }
  else a

def collectStylus (a : AppUi R) : AppUi R :=
  if a.menu.stylusChanged then
    let a := { a with menu := { a.menu with stylusChanged := false } }.call
      (.setStylusOnly a.menu.stylusOnly)
    a.withSettings (a.settings.setStylusOnly a.menu.stylusOnly)
  else a

def collectScreen (a : AppUi R) : AppUi R :=
  if a.menu.screenChanged then
    { a with
      menu := { a.menu with screenChanged := false }
      screenEnabled := a.menu.screenEnabled }.withSettings
        (a.settings.setScreenEnabled a.menu.screenEnabled)
  else a

def collectAutoLaunch (a : AppUi R) : AppUi R :=
  if a.menu.autoLaunchChanged then
    { a with menu := { a.menu with autoLaunchChanged := false } }.withSettings
      (a.settings.setAutoLaunch a.menu.autoLaunch)
  else a

def collectThrottle (a : AppUi R) : AppUi R :=
  if a.menu.throttleChanged then
    ({ a with menu := { a.menu with throttleChanged := false } }.withSettings
      (a.settings.setThrottle (Int32.ofInt a.menu.minIntervalMs) a.menu.minDistanceDp)).applyThrottle
  else a

/-- What the widgets were asked for, in the order of the source. -/
def collect (a : AppUi R) (f : FrameInput R) : AppUi R :=
  let a := a.collectMode.collectStripChange.collectStateChange.collectStripSlots
  let a := a.collectAddRequest.collectPresetMenu.collectAccepted.collectDeclined
  let a := (a.applyPresetEvents f.presets).collectLongPress.applyButtonEvents f.edits f.commands
  a.collectAbout.collectRotate.collectStylus.collectScreen.collectAutoLaunch.collectThrottle

/-- The widgets move on. -/
def animate (a : AppUi R) (dt : R) : AppUi R :=
  { a with menu := a.menu.advance dt, strip := a.strip.advance dt }

def frame (a : AppUi R) (f : FrameInput R) : Option (AppUi R) :=
  if !a.ready then some a
  else ((a.applyPending f).drainInput f.events).map fun a => (a.collect f).animate f.dt

/-! ### Runs -/

/-- An app as it is constructed, over the files of the device. -/
def start (externalDir : List UInt8) (settingsFile buttonsFile : Option (List UInt8)) : AppUi R :=
  let loaded := Settings.load ({} : Settings R) externalDir settingsFile
  let s := loaded.1
  let a : AppUi R :=
    { touch := .init ViewTransform.init
      menu := ((((SideMenu.init.setAutoLaunch s.autoLaunch).setThrottle s.minIntervalMs.toInt
        s.minDistanceDp).setStripVertical s.stripVertical).setScreenEnabled
          s.screenEnabled).setStylusOnly s.stylusOnly
      strip := ((ButtonStrip.init.setOrientation (orientationOf s.stripVertical)).setExpanded
        s.stripExpanded).setSlotLimit s.stripSlots.toInt
      buttons := ({ current_lt := Nat.zero_lt_one } : ButtonStore).load externalDir buttonsFile
      settings := s
      settingsFile := loaded.2 <|> settingsFile
      owner := .none
      screenEnabled := s.screenEnabled
      width := 0
      height := 0
      density := 1
      ready := false
      desktop := ⟨0, 0, 1920, 1080⟩
      monitors := [⟨0, 0, 1920, 1080⟩]
      viewFitted := false
      focusedProcess := []
      offerDeclinedFor := []
      offeredPreset := -1
      defaultPresetName := []
      dialogs := []
      sent := [] }
  (a.call (.setStylusOnly s.stylusOnly)).applyThrottle

/-- The surface is there, with its size, its density if that is known, and the name of a preset
without one. -/
def initWindow (a : AppUi R) (width height dpi : ℤ) (defaultName : List UInt8) : AppUi R :=
  let a := { a with width, height, ready := true }
  let a := if a.defaultPresetName = [] then
      { a with defaultPresetName := defaultName }.refreshPresetOffer
    else a
  let a := if dpi > 0 then
      let density : R := (dpi : R) / (160 : ℕ)
      ({ a with density }.call (.setDensity density)).applyThrottle
    else a
  let a := a.relayoutWidgets
  if a.viewFitted then a else a.fitViewToDesktop

/-- A rotation frames the desktop anew, unless the view is the user's. -/
def resized (a : AppUi R) (width height : ℤ) : AppUi R :=
  let changed := width ≠ a.width ∨ height ≠ a.height
  let a := { a with width, height }.relayoutWidgets
  if changed ∧ !a.touch.router.viewAdjusted then a.fitViewToDesktop else a

/-- A stroke cannot be finished without the focus, and a widget never learns that its finger has
gone. The dialog that took the focus may keep the finger: then its lift is never reported. -/
def lostFocus (a : AppUi R) (gone : Bool) : AppUi R :=
  let a := a.call .cancelStroke
  let a := if a.touch.router.uiCaptured then
      let a := a.call .cancelUiCapture
      match a.owner with
      | .strip => { a with strip := a.strip.cancelPress, owner := .none }
      | .menu => { a with menu := a.menu.cancelPress, owner := .none }
      | .none => a
    else a
  { a with touch := ⟨a.touch.router, a.touch.touching && !gone⟩ }

/-- What happens to the app. -/
inductive Act (R : Type)
  | initWindow (width height dpi : ℤ) (defaultName : List UInt8)
  | termWindow
  | resized (width height : ℤ)
  /-- The focus is lost, and the finger with it or not. -/
  | lostFocus (gone : Bool)
  /-- The host has said what its desktop is. -/
  | announced (desktop : Recti) (monitors : List Recti)
  | frame (f : FrameInput R)

def step (a : AppUi R) : Act R → Option (AppUi R)
  | .initWindow width height dpi defaultName => some (a.initWindow width height dpi defaultName)
  | .termWindow => some { a with ready := false }
  | .resized width height => some (a.resized width height)
  | .lostFocus gone => some (a.lostFocus gone)
  | .announced desktop monitors => some { a with desktop, monitors }
  | .frame f => a.frame f

end AppUi

end Digitiz
