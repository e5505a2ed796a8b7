import Digitiz.AppTouch

/-!
The app over whole runs.

Frames follow one another as long as there is a surface. Between them the surface comes, changes
and goes, the focus is lost and the host announces its desktop. Nothing of that gives a finger to
two at once.
-/

namespace Digitiz

open ButtonStore TextLines

namespace SideMenu

variable {R : Type}

/-- The settings in the drawer and their flags. -/
def shown (m : SideMenu R) :
    (InputMode × Bool) × (Bool × Bool) × (Bool × Bool) × (Bool × Bool) × (Bool × Bool) × ℤ × R ×
      Bool :=
  ((m.mode, m.modeChanged), (m.autoLaunch, m.autoLaunchChanged), (m.stripVertical, m.stripChanged),
    (m.screenEnabled, m.screenChanged), (m.stylusOnly, m.stylusChanged), m.minIntervalMs,
    m.minDistanceDp, m.throttleChanged)

end SideMenu

namespace ButtonStrip

variable {R : Type}

/-- The settings of the strip and their flag. -/
def shown (s : ButtonStrip R) : StripOrientation × Bool × Bool :=
  (s.orientation, s.expanded, s.stateChanged)

end ButtonStrip

namespace AppUi

variable {R : Type} [Field R] [LinearOrder R] [FloatOps R] [FloatText R] {a b c : AppUi R}
  {said : List GuestMsg} {lost : Prop}

/-! ### Beside the finger and the settings -/

/-- What has to do neither with who has the finger nor with the settings. -/
structure Beside (a b : AppUi R) : Prop extends Same a b where
  drawer : b.menu.shown = a.menu.shown
  saved : b.strip.shown = a.strip.shown
  settings : b.settings = a.settings
  file : b.settingsFile = a.settingsFile
  screen : b.screenEnabled = a.screenEnabled
  density : b.density = a.density

section

omit [Field R] [LinearOrder R] [FloatOps R]

lemma Beside.refl (a : AppUi R) : Beside a a :=
  ⟨⟨rfl, rfl, rfl, rfl, rfl⟩, rfl, rfl, rfl, rfl, rfl, rfl⟩

lemma Beside.trans (h : Beside a b) (h' : Beside b c) : Beside a c :=
  ⟨h.toSame.trans h'.toSame, h'.drawer.trans h.drawer, h'.saved.trans h.saved,
    h'.settings.trans h.settings, h'.file.trans h.file, h'.screen.trans h.screen,
    h'.density.trans h.density⟩

lemma foldl_beside {α : Type} {f : AppUi R → α → AppUi R} (hf : ∀ a x, Beside a (f a x))
    (xs : List α) : Beside a (xs.foldl f a) := by
  induction xs generalizing a with
  | nil => exact .refl a
  | cons x xs ih => exact (hf a x).trans ih

lemma refreshPresetOffer_beside : Beside a a.refreshPresetOffer :=
  ⟨⟨rfl, rfl, rfl, rfl, rfl⟩, rfl, rfl, rfl, rfl, rfl, rfl⟩

lemma applyEdit_beside (e : ButtonEdit) : Beside a (a.applyEdit e) :=
  ⟨⟨rfl, rfl, rfl, rfl, rfl⟩, rfl, rfl, rfl, rfl, rfl, rfl⟩

lemma applyCommand_beside (c : ButtonCommand) : Beside a (a.applyCommand c) := by
  unfold applyCommand
  split <;> exact ⟨⟨rfl, rfl, rfl, rfl, rfl⟩, rfl, rfl, rfl, rfl, rfl, rfl⟩

lemma collectAddRequest_beside : Beside a a.collectAddRequest := by
  unfold collectAddRequest
  split_ifs
  · exact ⟨⟨rfl, rfl, rfl, rfl, rfl⟩, rfl, rfl, rfl, rfl, rfl, rfl⟩
  · exact .refl a

lemma collectPresetMenu_beside : Beside a a.collectPresetMenu := by
  unfold collectPresetMenu
  split_ifs
  · exact ⟨⟨rfl, rfl, rfl, rfl, rfl⟩, rfl, rfl, rfl, rfl, rfl, rfl⟩
  · exact .refl a

lemma collectDeclined_beside : Beside a a.collectDeclined := by
  unfold collectDeclined
  split_ifs
  · have htaken : Beside a { a with
        strip := a.strip.takeSuggestionDeclined.1
        offerDeclinedFor := a.focusedProcess } :=
      ⟨⟨rfl, rfl, rfl, rfl, rfl⟩, rfl, rfl, rfl, rfl, rfl, rfl⟩
    exact htaken.trans refreshPresetOffer_beside
  · exact .refl a

lemma collectLongPress_beside : Beside a a.collectLongPress := by
  unfold collectLongPress
  dsimp only
  split_ifs <;> exact ⟨⟨rfl, rfl, rfl, rfl, rfl⟩, rfl, rfl, rfl, rfl, rfl, rfl⟩

lemma collectAbout_beside : Beside a a.collectAbout := by
  unfold collectAbout
  split_ifs
  · exact ⟨⟨rfl, rfl, rfl, rfl, rfl⟩, rfl, rfl, rfl, rfl, rfl, rfl⟩
  · exact .refl a

lemma collectRotate_beside : Beside a a.collectRotate := by
  unfold collectRotate
  split_ifs
  · exact ⟨⟨rfl, rfl, rfl, rfl, rfl⟩, rfl, rfl, rfl, rfl, rfl, rfl⟩
  · exact .refl a

end

lemma relayoutWidgets_beside : Beside a a.relayoutWidgets :=
  ⟨⟨rfl, rfl, rfl, rfl, rfl⟩, rfl, rfl, rfl, rfl, rfl, rfl⟩

lemma collectAccepted_beside : Beside a a.collectAccepted := by
  unfold collectAccepted
  split_ifs
  · have htaken : Beside a { a with
        strip := a.strip.takeSuggestionAccepted.1
        buttons := (a.buttons.select a.offeredPreset).1 } :=
      ⟨⟨rfl, rfl, rfl, rfl, rfl⟩, rfl, rfl, rfl, rfl, rfl, rfl⟩
    refine htaken.trans (Beside.trans ?_ refreshPresetOffer_beside)
    dsimp only
    split_ifs
    · exact relayoutWidgets_beside
    · exact .refl _
  · exact .refl a

lemma applyPresetEvents_beside (commands : List PresetCommand) :
    Beside a (a.applyPresetEvents commands) := by
  unfold applyPresetEvents
  split_ifs
  · exact .refl a
  · have hdone : Beside a { a with buttons := commands.foldl presetCommand a.buttons } :=
      ⟨⟨rfl, rfl, rfl, rfl, rfl⟩, rfl, rfl, rfl, rfl, rfl, rfl⟩
    exact (hdone.trans relayoutWidgets_beside).trans refreshPresetOffer_beside

lemma applyButtonEvents_beside (edits : List ButtonEdit) (commands : List ButtonCommand) :
    Beside a (a.applyButtonEvents edits commands) := by
  unfold applyButtonEvents
  split_ifs
  · exact .refl a
  · have hedits := foldl_beside (a := a) (fun _ e => applyEdit_beside e) edits
    have hcommands := foldl_beside (a := edits.foldl applyEdit a)
      (fun _ c => applyCommand_beside c) commands
    exact (hedits.trans hcommands).trans relayoutWidgets_beside

/-- What a frame collects between the settings of the strip and those of the drawer. -/
def collectDialogs (a : AppUi R) (f : FrameInput R) : AppUi R :=
  let a := a.collectAddRequest.collectPresetMenu.collectAccepted.collectDeclined
  ((a.applyPresetEvents f.presets).collectLongPress.applyButtonEvents f.edits
    f.commands).collectAbout.collectRotate

lemma collectDialogs_beside (f : FrameInput R) : Beside a (a.collectDialogs f) := by
  have hoffers := ((collectAddRequest_beside (a := a)).trans collectPresetMenu_beside).trans
    (collectAccepted_beside.trans collectDeclined_beside)
  have hdialogs := (hoffers.trans (applyPresetEvents_beside f.presets)).trans
    (collectLongPress_beside.trans (applyButtonEvents_beside f.edits f.commands))
  exact hdialogs.trans (collectAbout_beside.trans collectRotate_beside)

/-- A frame collects settings before the dialogs and after them. -/
lemma collect_eq (f : FrameInput R) : a.collect f =
    (((a.collectMode.collectStripChange.collectStateChange.collectStripSlots).collectDialogs
      f).collectStylus.collectScreen.collectAutoLaunch.collectThrottle) := rfl

/-! ### What every step keeps -/

/-- What a finger that lands, the router and the widgets keep, a motion event keeps. -/
lemma motion_keeps {P : AppUi R → Prop} (hhit : ∀ {a : AppUi R} (p : Point R), P a → P (a.hit p).1)
    (hroute : ∀ {a : AppUi R} (e : MotionEvent R) (ans : Answers R) (touching : Bool),
      P a → P (a.routed (.handle e ans) touching))
    (hwidget : ∀ {a : AppUi R} (now : UInt64) (c : UiCall R), P a → P (a.widget now c))
    (h : P a) {now : UInt64} {e : MotionEvent R} (hs : a.motion now e = some b) : P b := by
  obtain ⟨touching, -, rfl⟩ := motion_spec hs
  have hasked : P (if e.maskedAction = .down then (a.hit (e.pointerPos 0)).1 else a) := by
    split_ifs
    · exact hhit _ h
    · exact h
  have hrouted := hroute e a.answers touching hasked
  generalize ((if e.maskedAction = .down then (a.hit (e.pointerPos 0)).1 else a).routed
    (.handle e a.answers) touching) = d at hrouted ⊢
  induction a.touch.router.widgetCalls e generalizing d with
  | nil => exact hrouted
  | cons call calls ih => exact ih _ (hwidget now call hrouted)

/-- A property that is kept by what happens beside the finger and the settings, and by what the app
tells the router of its own accord. -/
structure Quiet (P : AppUi R → Prop) : Prop where
  beside {a b : AppUi R} : P a → Beside a b → P b
  cancel {a : AppUi R} : P a → P (a.call .cancelStroke)
  view {a : AppUi R} (v : ViewTransform R) : P a → P (a.call (.setView v))
  density {a : AppUi R} (d : R) :
    P a → P (({ a with density := d }.call (.setDensity d)).applyThrottle)

/-- A property that every step keeps, where fingers may be lost or not. -/
structure Steady (lost : Prop) (P : AppUi R → Prop) : Prop extends Quiet P where
  motion {a b : AppUi R} {now : UInt64} {e : MotionEvent R} : P a → a.motion now e = some b → P b
  collect {a : AppUi R} (f : FrameInput R) : P a → P (a.collect f)
  animate {a : AppUi R} (dt : R) : P a → P (a.animate dt)
  lostFocus {a : AppUi R} {gone : Bool} : (gone = true → lost) → P a → P (a.lostFocus gone)

namespace Quiet

variable {P : AppUi R → Prop} (hP : Quiet P)

include hP

lemma fitViewToDesktop (h : P a) : P a.fitViewToDesktop := by
  unfold AppUi.fitViewToDesktop
  split_ifs
  · exact h
  · have hfitted : Beside a { a with viewFitted := true } :=
      ⟨⟨rfl, rfl, rfl, rfl, rfl⟩, rfl, rfl, rfl, rfl, rfl, rfl⟩
    exact hP.view _ (hP.beside h hfitted)

lemma applyPending (h : P a) (f : FrameInput R) : P (a.applyPending f) := by
  have hfit (b : AppUi R) (hb : P b) : P (if f.viewNeedsFit then b.fitViewToDesktop else b) := by
    split_ifs
    · exact hP.fitViewToDesktop hb
    · exact hb
  have hcancel (b : AppUi R) (hb : P b) :
      P (if f.strokeCancel then b.call .cancelStroke else b) := by
    split_ifs
    · exact hP.cancel hb
    · exact hb
  unfold AppUi.applyPending
  refine hfit _ (hcancel _ ?_)
  cases f.activeWindow with
  | none => exact h
  | some process =>
    have hforget : Beside a
        (if process = a.focusedProcess then a else { a with offerDeclinedFor := [] }) := by
      split_ifs
      · exact .refl a
      · exact ⟨⟨rfl, rfl, rfl, rfl, rfl⟩, rfl, rfl, rfl, rfl, rfl, rfl⟩
    dsimp only
    generalize (if process = a.focusedProcess then a else { a with offerDeclinedFor := [] }) = b
      at hforget ⊢
    have hnamed : Beside b { b with
        focusedProcess := process
        strip := b.strip.setActiveWindow process } :=
      ⟨⟨rfl, rfl, rfl, rfl, rfl⟩, rfl, rfl, rfl, rfl, rfl, rfl⟩
    exact hP.beside h ((hforget.trans hnamed).trans refreshPresetOffer_beside)

lemma initWindow (h : P a) (width height dpi : ℤ) (defaultName : List UInt8) :
    P (a.initWindow width height dpi defaultName) := by
  have hfit (b : AppUi R) (hb : P b) : P (if b.viewFitted then b else b.fitViewToDesktop) := by
    split_ifs
    · exact hb
    · exact hP.fitViewToDesktop hb
  have hdensity (b : AppUi R) (hb : P b) (density : R) : P
      (if dpi > 0 then ({ b with density }.call (.setDensity density)).applyThrottle else b) := by
    split_ifs
    · exact hP.density density hb
    · exact hb
  unfold AppUi.initWindow
  refine hfit _ (hP.beside (hdensity _ ?_ _) relayoutWidgets_beside)
  have hsized : Beside a { a with width, height, ready := true } :=
    ⟨⟨rfl, rfl, rfl, rfl, rfl⟩, rfl, rfl, rfl, rfl, rfl, rfl⟩
  dsimp only
  split_ifs
  · have hnamed : Beside a { a with
        width, height, ready := true, defaultPresetName := defaultName } :=
      ⟨⟨rfl, rfl, rfl, rfl, rfl⟩, rfl, rfl, rfl, rfl, rfl, rfl⟩
    exact hP.beside h (hnamed.trans refreshPresetOffer_beside)
  · exact hP.beside h hsized

lemma resized (h : P a) (width height : ℤ) : P (a.resized width height) := by
  have hsized : Beside a { a with width, height } :=
    ⟨⟨rfl, rfl, rfl, rfl, rfl⟩, rfl, rfl, rfl, rfl, rfl, rfl⟩
  have hlaid := hP.beside h (hsized.trans relayoutWidgets_beside)
  unfold AppUi.resized
  dsimp only
  split_ifs
  · exact hP.fitViewToDesktop hlaid
  · exact hlaid

end Quiet

namespace Steady

variable {lost : Prop} {P : AppUi R → Prop} (hP : Steady lost P)

include hP

lemma drainInput {events : List (UInt64 × MotionEvent R)} (h : P a)
    (hs : a.drainInput events = some b) : P b := by
  induction events generalizing a with
  | nil =>
    obtain rfl := Option.some.inj hs
    exact h
  | cons e events ih =>
    obtain ⟨c, hc, hs⟩ := Option.bind_eq_some_iff.mp hs
    exact ih (hP.motion h hc) hs

/-- **The rule.** What the parts of a step keep, the step keeps. -/
theorem step (h : P a) {act : Act R} (hl : act = .lostFocus true → lost)
    (hs : a.step act = some b) : P b := by
  cases act with
  | frame f =>
    have hs : a.frame f = some b := hs
    unfold AppUi.frame at hs
    split_ifs at hs
    · obtain rfl := Option.some.inj hs
      exact h
    · obtain ⟨c, hc, rfl⟩ := Option.map_eq_some_iff.mp hs
      have hdrained := hP.drainInput (hP.toQuiet.applyPending h f) hc
      exact hP.animate f.dt (hP.collect f hdrained)
  | initWindow width height dpi defaultName =>
    obtain rfl := Option.some.inj hs
    exact hP.toQuiet.initWindow h width height dpi defaultName
  | resized width height =>
    obtain rfl := Option.some.inj hs
    exact hP.toQuiet.resized h width height
  | lostFocus gone =>
    obtain rfl := Option.some.inj hs
    exact hP.lostFocus (fun hg => hl (hg ▸ rfl)) h
  | termWindow | announced =>
    obtain rfl := Option.some.inj hs
    exact hP.beside h ⟨⟨rfl, rfl, rfl, rfl, rfl⟩, rfl, rfl, rfl, rfl, rfl, rfl⟩

end Steady

/-! ### Who has the finger -/

lemma collectStripChange_same : Same a a.collectStripChange := by
  unfold collectStripChange
  split_ifs <;> exact ⟨rfl, rfl, rfl, rfl, rfl⟩

lemma collectStripSlots_same : Same a a.collectStripSlots := by
  unfold collectStripSlots
  split_ifs <;> exact ⟨rfl, rfl, rfl, rfl, rfl⟩

section

omit [Field R] [LinearOrder R] [FloatOps R]

lemma collectStateChange_same : Same a a.collectStateChange := by
  unfold collectStateChange
  split_ifs <;> exact ⟨rfl, rfl, rfl, rfl, rfl⟩

lemma collectScreen_same : Same a a.collectScreen := by
  unfold collectScreen
  split_ifs <;> exact ⟨rfl, rfl, rfl, rfl, rfl⟩

lemma collectAutoLaunch_same : Same a a.collectAutoLaunch := by
  unfold collectAutoLaunch
  split_ifs <;> exact ⟨rfl, rfl, rfl, rfl, rfl⟩

end

lemma collectMode_inv (h : Inv said lost a) : Inv said lost a.collectMode := by
  unfold collectMode
  split_ifs
  · exact (h.same ⟨rfl, rfl, rfl, rfl, rfl⟩ : Inv said lost { a with
      menu := { a.menu with modeChanged := false } }).call rfl
  · exact h

lemma collectStylus_inv (h : Inv said lost a) : Inv said lost a.collectStylus := by
  unfold collectStylus
  split_ifs
  · exact (((h.same ⟨rfl, rfl, rfl, rfl, rfl⟩ : Inv said lost { a with
      menu := { a.menu with stylusChanged := false } }).call rfl).same ⟨rfl, rfl, rfl, rfl, rfl⟩)
  · exact h

lemma applyThrottle_inv (h : Inv said lost a) : Inv said lost a.applyThrottle :=
  (h.call rfl).call rfl

lemma collectThrottle_inv (h : Inv said lost a) : Inv said lost a.collectThrottle := by
  unfold collectThrottle
  split_ifs
  · exact applyThrottle_inv (h.same ⟨rfl, rfl, rfl, rfl, rfl⟩)
  · exact h

lemma Inv.collect (h : Inv said lost a) (f : FrameInput R) : Inv said lost (a.collect f) := by
  rw [collect_eq]
  have hstrip := (((collectMode_inv h).same collectStripChange_same).same
    collectStateChange_same).same collectStripSlots_same
  have hstylus := collectStylus_inv (hstrip.same (collectDialogs_beside f).toSame)
  exact collectThrottle_inv ((hstylus.same collectScreen_same).same collectAutoLaunch_same)

omit [FloatOps R] in
lemma Inv.animate (h : Inv said lost a) (dt : R) : Inv said lost (a.animate dt) where
  hold := by
    obtain ⟨hold, hh, howner⟩ := h.hold
    exact ⟨hold, hh.congr rfl rfl, howner⟩
  strip hno := by
    obtain he | he := a.strip.advance_press dt
    · exact h.strip (he ▸ hno)
    · exact absurd he hno
  menu hno := h.menu (by rwa [← a.menu.advance_dragging dt])

omit [Field R] [LinearOrder R] [FloatOps R] in
lemma HeldAs.leave {h : Hold} (hh : a.HeldAs said lost h) (hw : h ≠ .widget)
    (hd : h.drawing = false) (hp : h.pressed = false) {gone : Bool} (hl : gone = true → lost) :
    HeldAs said lost { a with touch := ⟨a.touch.router, a.touch.touching && !gone⟩ } h :=
  ⟨hh.rests.leave hw hd hp hl, hh.spoken, hh.held, hh.sent, hh.kept⟩

/-- Whoever had the finger has it no longer, and then it may be gone. -/
lemma Inv.lostFocus (h : Inv said lost a) {gone : Bool} (hl : gone = true → lost) :
    Inv said lost (a.lostFocus gone) := by
  have hb : Inv said lost (a.call .cancelStroke) := h.call rfl
  have hflags : (a.call .cancelStroke).touch.router.strokeActive = false ∧
      (a.call .cancelStroke).touch.router.pressPending = false :=
    TouchRouter.cancelStroke_flags a.touch.router
  unfold AppUi.lostFocus
  generalize a.call .cancelStroke = b at hb hflags ⊢
  obtain ⟨hold, hh, howner⟩ := hb.hold
  have hcaptured := hh.rests.sits.captured
  dsimp only
  split_ifs with hc
  · obtain rfl : hold = .widget := hcaptured.mp hc
    obtain ⟨hold', hrests, hw, hd, hp⟩ := Touch.cancelUiCapture_rests hh.rests
    have hgo : (b.call .cancelUiCapture).HeldAs said lost hold' :=
      hh.routed hrests (List.append_nil _).symm (.inr ⟨rfl, hd⟩)
    split
    · next ho =>
      refine ⟨⟨hold', (hgo.leave hw hd hp hl).congr rfl rfl, by simp [hw]⟩,
        fun hno => absurd rfl hno, fun hno => ?_⟩
      exact absurd (ho.symm.trans (hb.menu hno)) nofun
    · next ho =>
      refine ⟨⟨hold', (hgo.leave hw hd hp hl).congr rfl rfl, by simp [hw]⟩, fun hno => ?_,
        fun hno => ?_⟩
      · exact absurd (ho.symm.trans (hb.strip hno)) nofun
      · exact absurd hno (of_decide_eq_true rfl : ¬(0 : ℤ) ≤ -1)
    · next ho => exact absurd ho (howner.mpr rfl)
  · -- a stroke or a press held back was given up just now
    have hw : hold ≠ .widget := fun hno => hc (hcaptured.mpr hno)
    have hd : hold.drawing = false := hh.rests.sits.drawing.symm.trans hflags.1
    have hp : hold.pressed = false := hh.rests.sits.pressed.symm.trans hflags.2
    exact ⟨⟨hold, hh.leave hw hd hp hl, howner⟩, hb.strip, hb.menu⟩

lemma inv_steady [IsStrictOrderedRing R] : Steady lost (Inv (R := R) said lost) where
  beside h hb := h.same hb.toSame
  cancel h := h.call rfl
  view _ h := h.call rfl
  density {a} d h := by
    have hd : Inv said lost { a with density := d } := h.same ⟨rfl, rfl, rfl, rfl, rfl⟩
    exact applyThrottle_inv (hd.call rfl)
  motion h hs := h.motion hs
  collect f h := h.collect f
  animate dt h := h.animate dt
  lostFocus hl h := h.lostFocus hl

/-! ### Runs -/

lemma Inv.start (externalDir : List UInt8) (settingsFile buttonsFile : Option (List UInt8)) :
    Inv [] lost (start externalDir settingsFile buttonsFile : AppUi R) := by
  unfold AppUi.start
  dsimp only
  refine applyThrottle_inv (Inv.call ?_ rfl)
  obtain ⟨hold, hh, hspoken⟩ := Touch.init_sound (ViewTransform.init : ViewTransform R)
  obtain rfl := hh.2 rfl
  refine ⟨⟨.free, ⟨hh.rests, hspoken, rfl, .nil, List.nil_prefix⟩, by simp⟩,
    fun hno => absurd rfl hno, fun hno => ?_⟩
  exact absurd hno (of_decide_eq_true rfl : ¬(0 : ℤ) ≤ -1)

variable {externalDir : List UInt8} {settingsFile buttonsFile : Option (List UInt8)}
  {acts : List (Act R)}

/-- A finger is lost in some of these steps. -/
def FingerLost (acts : List (Act R)) : Prop := ∃ act ∈ acts, act = .lostFocus true

lemma run_inv [IsStrictOrderedRing R]
    (hr : Run step (fun _ _ => True) (start externalDir settingsFile buttonsFile) acts a) :
    Inv [] (FingerLost acts) a := by
  exact hr.mem.invariant (Inv [] (FingerLost acts))
    (fun _ _ _ h hact hs => inv_steady.step h (fun he => ⟨_, hact.2, he⟩) hs)
    (Inv.start externalDir settingsFile buttonsFile)

/-- What has been said is not taken back. -/
lemma step_keeps [IsStrictOrderedRing R] (h : Inv [] True a) {act : Act R}
    (hs : a.step act = some b) : a.sent <+: b.sent := by
  obtain ⟨hold, hh, howner⟩ := h.hold
  have hself : Inv a.sent True a :=
    ⟨⟨hold, { hh with kept := List.prefix_rfl }, howner⟩, h.strip, h.menu⟩
  obtain ⟨_, hh', -⟩ := (inv_steady.step hself (fun _ => trivial) hs).hold
  exact hh'.kept

/-- **A finger belongs to one.** Over whole runs, also those in which a dialog keeps a finger so
that its lift is never reported, a button is pressed only while the strip has the finger, and a
slider dragged only while the drawer has it. A widget has it exactly as long as the router has given
it away: then it is on the glass, and the router has no stroke open and holds no press back. It
slides nothing then either, unless a finger was lost before: a slide whose finger that was may still
be under way. -/
theorem one_owner [IsStrictOrderedRing R]
    (hr : Run step (fun _ _ => True) (start externalDir settingsFile buttonsFile) acts a) :
    (a.strip.press ≠ .none → a.owner = .strip ∧ a.menu.draggingSlider < 0) ∧
      (0 ≤ a.menu.draggingSlider → a.owner = .menu ∧ a.strip.press = .none) ∧
      (a.owner ≠ .none ↔ a.touch.router.uiCaptured = true) ∧
      (a.owner ≠ .none → a.touch.touching = true ∧ a.touch.router.strokeActive = false ∧
        a.touch.router.pressPending = false ∧
        (a.touch.router.slideActive = true → FingerLost acts ∧ a.touch.router.mode = .slide)) := by
  have h := run_inv hr
  obtain ⟨hold, hh, howner⟩ := h.hold
  have hsits := hh.rests.sits
  refine ⟨fun hp => ?_, fun hd => ?_, howner.trans hsits.captured.symm, fun ho => ?_⟩
  · refine ⟨h.strip hp, ?_⟩
    by_contra hno
    exact absurd ((h.strip hp).symm.trans (h.menu (not_lt.mp hno))) nofun
  · refine ⟨h.menu hd, ?_⟩
    by_contra hno
    exact absurd ((h.strip hno).symm.trans (h.menu hd)) nofun
  · obtain rfl := howner.mp ho
    refine ⟨?_, hsits.drawing, hsits.pressed, fun hslide => ?_⟩
    · by_contra hno
      simpa using hh.rests.idle (by simpa using hno)
    · cases hsits with
      | clean hin => exact absurd (hin.sliding.symm.trans hslide) Bool.false_ne_true
      | above hl ha => exact ⟨hl, ha.mode⟩

/-- Distances in halves, as the slider gives them. -/
instance : FloatText ℚ where
  zero := 0
  same a b := a = b
  atof text := strtol text + if ascii ".5" <:+ text then 1 / 2 else 0
  print q := decimal q.floor ++ if q.floor = q then [] else ascii ".5"

def fingerAt (action : UInt32) (ms : Int64) (x y : ℚ) : UInt64 × MotionEvent ℚ :=
  (0, ⟨action, ms, [⟨0, 1, ⟨x, y⟩⟩]⟩)

def someFrame (events : List (UInt64 × MotionEvent ℚ)) : Act ℚ := .frame { events, dt := 1 / 60 }

/-- The strip is opened, and the one button in it is under a finger. -/
def pressing : List (Act ℚ) :=
  [.initWindow 1200 800 160 (ascii "Default"),
    .frame { edits := [⟨-1, { kind := .shortcut, key := [65] }⟩], dt := 1 / 60 },
    someFrame [fingerAt 0 10 20 780, fingerAt 1 50 20 780],
    someFrame [fingerAt 0 100 76 750]]

/-- A dialog takes the focus and keeps the finger, and the next one lands on the button again. -/
def pressingAgain : List (Act ℚ) := pressing ++ [.lostFocus true, someFrame [fingerAt 0 900 76 750]]

/-- It is let go of, and a line drawn. -/
def drawing : List (Act ℚ) :=
  pressing ++ [someFrame [fingerAt 1 120 76 750],
    someFrame [fingerAt 0 200 600 400, fingerAt 2 210 640 400, fingerAt 1 220 640 400]]

theorem one_owner_pressingAgain :
    let a := Run.final step (fun _ _ => True) (start [] none none) pressingAgain
    a.owner = .strip ∧ a.menu.draggingSlider < 0 ∧ a.touch.touching = true := by
  intro a
  have hrun : Run step (fun _ _ => True) (start [] none none) pressingAgain a :=
    Run.to_final (by decide +kernel)
  have hpress : a.strip.press ≠ .none := by decide +kernel
  obtain ⟨hstrip, -, -, hfinger⟩ := one_owner hrun
  obtain ⟨howner, hslider⟩ := hstrip hpress
  exact ⟨howner, hslider, (hfinger (by rw [howner]; nofun)).1⟩

end AppUi

end Digitiz
