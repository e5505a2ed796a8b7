import Digitiz.AppRuns

/-!
The preset that is offered.

When the program in focus on the PC has a preset of its own and another one is in use, the strip
offers it. The offer follows the focus, the presets and the one in use, whatever the user does to
them; it is taken up or declined, and a program that was declined is not offered again before
another has had the focus.
-/

namespace Digitiz

open ButtonStore

variable {R : Type}

namespace ButtonStore

/-- What an offer depends on: the names and programs of the presets, and which one is in use. -/
def titles (s : ButtonStore) : List (List UInt8 × List UInt8) × ℕ :=
  (s.presets.map fun p => (p.name, p.match'), s.current)

variable {s t : ButtonStore}

lemma modifyButtons_titles (f : List CustomButton → List CustomButton) :
    (s.modifyButtons f).titles = s.titles := by
  refine congrArg (·, s.current) ?_
  show (s.presets.modify s.current _).map _ = s.presets.map _
  apply List.ext_getElem?
  intro i
  simp only [List.getElem?_map, List.getElem?_modify]
  cases s.presets[i]? with
  | none => rfl
  | some p =>
    by_cases hi : s.current = i
    · simp [hi]
    · simp [hi]

lemma add_titles (button : CustomButton) : (s.add button).1.titles = s.titles := by
  obtain h | ⟨-, h⟩ := s.add_cases button <;> rw [h]
  exact modifyButtons_titles _

lemma replace_titles (index : ℤ) (button : CustomButton) :
    (s.replace index button).1.titles = s.titles := by
  obtain h | ⟨-, h⟩ := s.replace_cases index button <;> rw [h]
  exact modifyButtons_titles _

lemma remove_titles (index : ℤ) : (s.remove index).1.titles = s.titles := by
  obtain h | ⟨-, h⟩ := s.remove_cases index <;> rw [h]
  exact modifyButtons_titles _

lemma move_titles (index delta : ℤ) : (s.move index delta).1.titles = s.titles := by
  obtain h | ⟨-, _, -, -, h⟩ := s.move_cases index delta <;> rw [h]
  exact modifyButtons_titles _

lemma presetFor_congr (h : t.titles = s.titles) (process : List UInt8) :
    t.presetFor process = s.presetFor process := by
  have hprograms : t.programs = s.programs := by
    have := congrArg (fun q => q.1.map Prod.snd) h
    simpa [titles, programs, Function.comp_def] using this
  by_cases hp : process = []
  · rw [presetFor, presetFor, if_pos hp, if_pos hp]
  · rw [presetFor_eq hp, presetFor_eq hp, hprograms]

end ButtonStore

namespace ButtonStrip

/-- What the strip says of presets, and what was answered. -/
def caption (s : ButtonStrip R) : List UInt8 × List UInt8 × Bool × Bool :=
  (s.presetName, s.suggestedName, s.suggestionAccepted, s.suggestionDeclined)

/-- The strip says what it said, or was answered just now. -/
def Answered (s s' : ButtonStrip R) : Prop :=
  s'.caption = s.caption ∨ s'.presetName = s.presetName ∧
    (s'.suggestionAccepted = true ∨ s'.suggestionDeclined = true)

variable [Field R] [LinearOrder R] [FloatOps R] (s : ButtonStrip R)

lemma hitTest_caption (bs : List CustomButton) (p : Point R) :
    (s.hitTest bs p).1.caption = s.caption := by
  unfold hitTest
  split <;> rfl

lemma drag_caption (p : Point R) : (s.drag p).caption = s.caption := by
  unfold drag
  dsimp only
  split_ifs <;> rfl

omit [FloatOps R] in
lemma advance_caption (dt : R) : (s.advance dt).caption = s.caption := by
  obtain ⟨scroll, hsettle⟩ := s.settle_frame dt
  rw [advance, hsettle]
  dsimp only
  split_ifs <;> rfl

omit [LinearOrder R] in
lemma cancelPress_caption : s.cancelPress.caption = s.caption := by
  unfold cancelPress snapToSlot
  dsimp only
  split_ifs <;> rfl

lemma release_answered [IsStrictOrderedRing R] (bs : List CustomButton) :
    Answered s (s.release bs) := by
  show Answered s (s.releaseAct bs)
  unfold releaseAct
  cases s.press with
  | accept => exact .inr ⟨rfl, .inl rfl⟩
  | decline => exact .inr ⟨rfl, .inr rfl⟩
  | prev | next =>
    refine .inl ?_
    dsimp only [nudge]
    split_ifs <;> rfl
  | slot =>
    refine .inl ?_
    dsimp only
    split_ifs
    · unfold snapToSlot
      split_ifs <;> rfl
    · cases s.pressedButton bs <;> rfl
    · cases s.pressedButton bs with
      | none => rfl
      | some b =>
        obtain ⟨calls, -, he⟩ := s.activate_spec bs.length b s.pressPos
        dsimp only
        rw [he]
        rfl
  | _ => exact .inl rfl

end ButtonStrip

namespace AppUi

variable [Field R] [LinearOrder R] [FloatOps R] [FloatText R] {a b : AppUi R}

/-- The name on offer, or none. -/
def offerName (a : AppUi R) : List UInt8 :=
  if a.offeredPreset ≥ 0 then a.presetDisplayName a.offeredPreset else []

/-- The offer is the one to make, and the strip makes it unless it was answered just now. -/
structure Offered (a : AppUi R) : Prop where
  offered : a.offeredPreset = a.wantedOffer
  bar : a.strip.suggestionAccepted = false → a.strip.suggestionDeclined = false →
    a.strip.suggestedName = a.offerName
  name : a.defaultPresetName ≠ [] → a.strip.presetName = a.presetDisplayName a.buttons.current
  declined : a.offerDeclinedFor = [] ∨ a.offerDeclinedFor = a.focusedProcess

/-- Nothing was done to the presets or the focus; an offer may have been answered. -/
structure Unrelated (a b : AppUi R) : Prop where
  titles : b.buttons.titles = a.buttons.titles
  focused : b.focusedProcess = a.focusedProcess
  declined : b.offerDeclinedFor = a.offerDeclinedFor
  offered : b.offeredPreset = a.offeredPreset
  default : b.defaultPresetName = a.defaultPresetName
  strip : ButtonStrip.Answered a.strip b.strip

section

omit [Field R] [LinearOrder R] [FloatOps R]

lemma Unrelated.current (h : Unrelated a b) : b.buttons.current = a.buttons.current :=
  congrArg Prod.snd h.titles

lemma Unrelated.wanted (h : Unrelated a b) : b.wantedOffer = a.wantedOffer := by
  unfold wantedOffer
  rw [h.focused, h.declined, presetFor_congr h.titles, h.current]

lemma Unrelated.displayName (h : Unrelated a b) (i : ℤ) :
    b.presetDisplayName i = a.presetDisplayName i := by
  have hname (c : AppUi R) : c.presetDisplayName i =
      (if i < 0 then none else (c.buttons.titles.1.map Prod.fst)[i.toNat]?).elim c.defaultPresetName
        fun name => if name = [] then c.defaultPresetName else name := by
    unfold presetDisplayName ButtonStore.titles
    split_ifs
    · rfl
    · simp only [List.map_map, List.getElem?_map]
      cases c.buttons.presets[i.toNat]? <;> rfl
  rw [hname, hname, h.titles, h.default]

lemma Offered.unrelated (h : Offered a) (hu : Unrelated a b) : Offered b where
  offered := by rw [hu.offered, hu.wanted, h.offered]
  bar ha hd := by
    have hname : b.offerName = a.offerName := by
      unfold offerName
      rw [hu.offered, hu.displayName]
    obtain hcaption | ⟨-, hanswer⟩ := hu.strip
    · simp only [ButtonStrip.caption, Prod.mk.injEq] at hcaption
      obtain ⟨-, hsuggested, haccepted, hdeclined⟩ := hcaption
      rw [hsuggested, hname]
      exact h.bar (haccepted ▸ ha) (hdeclined ▸ hd)
    · simp [ha, hd] at hanswer
  name hne := by
    have hpreset : b.strip.presetName = a.strip.presetName := by
      obtain hcaption | ⟨hpreset, -⟩ := hu.strip
      · exact congrArg Prod.fst hcaption
      · exact hpreset
    rw [hpreset, hu.displayName, hu.current]
    exact h.name (hu.default ▸ hne)
  declined := by
    rw [hu.declined, hu.focused]
    exact h.declined

lemma refresh_offered (h : a.offerDeclinedFor = [] ∨ a.offerDeclinedFor = a.focusedProcess) :
    Offered a.refreshPresetOffer :=
  ⟨rfl, fun _ _ => rfl, fun _ => rfl, h⟩

end

/-! ### Fingers -/

/-- The strip has not even been answered. -/
structure Beneath (a b : AppUi R) : Prop extends Unrelated a b where
  caption : b.strip.caption = a.strip.caption

section

omit [Field R] [LinearOrder R] [FloatOps R]

lemma Beneath.of (ht : b.buttons.titles = a.buttons.titles)
    (hf : b.focusedProcess = a.focusedProcess) (hd : b.offerDeclinedFor = a.offerDeclinedFor)
    (ho : b.offeredPreset = a.offeredPreset) (hn : b.defaultPresetName = a.defaultPresetName)
    (hs : b.strip.caption = a.strip.caption) : Beneath a b :=
  ⟨⟨ht, hf, hd, ho, hn, .inl hs⟩, hs⟩

lemma Beneath.refl (a : AppUi R) : Beneath a a := .of rfl rfl rfl rfl rfl rfl

lemma Beneath.trans {c : AppUi R} (h : Beneath a b) (h' : Beneath b c) : Beneath a c :=
  .of (h'.titles.trans h.titles) (h'.focused.trans h.focused) (h'.declined.trans h.declined)
    (h'.offered.trans h.offered) (h'.default.trans h.default) (h'.caption.trans h.caption)

lemma foldl_beneath {α : Type} {f : AppUi R → α → AppUi R} (hf : ∀ a x, Beneath a (f a x))
    (xs : List α) : Beneath a (xs.foldl f a) := by
  induction xs generalizing a with
  | nil => exact .refl a
  | cons x xs ih => exact (hf a x).trans ih

end

lemma hit_beneath (a : AppUi R) (p : Point R) : Beneath a (a.hit p).1 := by
  have hasked : (if a.menu.isOpen then (a.strip, false)
      else a.strip.hitTest a.buttons.buttons p).1.caption = a.strip.caption := by
    split_ifs
    · rfl
    · exact a.strip.hitTest_caption _ p
  unfold hit
  generalize (if a.menu.isOpen then (a.strip, false)
    else a.strip.hitTest a.buttons.buttons p) = asked at hasked ⊢
  obtain ⟨strip, onStrip⟩ := asked
  cases onStrip <;> exact .of rfl rfl rfl rfl rfl hasked

lemma widget_unrelated [IsStrictOrderedRing R] (a : AppUi R) (now : UInt64) (c : UiCall R) :
    Unrelated a (a.widget now c) := by
  cases c with
  | drag p =>
    show Unrelated a (a.widgetDrag p)
    unfold widgetDrag
    split
    · exact ⟨rfl, rfl, rfl, rfl, rfl, .inl (a.strip.drag_caption p)⟩
    · exact ⟨rfl, rfl, rfl, rfl, rfl, .inl rfl⟩
    · exact (Beneath.refl a).toUnrelated
  | release p =>
    show Unrelated a (a.widgetRelease now p)
    unfold widgetRelease
    split
    · exact ⟨rfl, rfl, rfl, rfl, rfl, a.strip.release_answered _⟩
    · exact ⟨rfl, rfl, rfl, rfl, rfl, .inl rfl⟩
    · exact (Beneath.refl a).toUnrelated

/-- What is kept where nothing is done to presets and focus is kept by the events of a frame. -/
lemma drain_unrelated [IsStrictOrderedRing R] {P : AppUi R → Prop}
    (hP : ∀ {a b}, P a → Unrelated a b → P b) {events : List (UInt64 × MotionEvent R)} (h : P a)
    (hs : a.drainInput events = some b) : P b := by
  induction events generalizing a with
  | nil =>
    obtain rfl := Option.some.inj hs
    exact h
  | cons e events ih =>
    obtain ⟨c, hc, hs⟩ := Option.bind_eq_some_iff.mp hs
    refine ih (motion_keeps (fun p h => hP h (hit_beneath _ p).toUnrelated) (fun _ _ _ h => ?_)
      (fun now c h => hP h (widget_unrelated _ now c)) h hc) hs
    exact hP h ⟨rfl, rfl, rfl, rfl, rfl, .inl rfl⟩

/-! ### What a frame collects -/

lemma call_beneath (c : TouchCall R) : Beneath a (a.call c) := .of rfl rfl rfl rfl rfl rfl

lemma applyThrottle_beneath : Beneath a a.applyThrottle :=
  (call_beneath _).trans (call_beneath _)

lemma fitViewToDesktop_beneath : Beneath a a.fitViewToDesktop := by
  unfold fitViewToDesktop
  have hfitted : Beneath a { a with viewFitted := true } := .of rfl rfl rfl rfl rfl rfl
  split_ifs
  · exact .refl a
  · exact hfitted.trans (call_beneath _)

lemma collectMode_beneath : Beneath a a.collectMode := by
  unfold collectMode
  split_ifs <;> exact .of rfl rfl rfl rfl rfl rfl

lemma collectStripChange_beneath : Beneath a a.collectStripChange := by
  unfold collectStripChange
  split_ifs <;> exact .of rfl rfl rfl rfl rfl rfl

lemma collectStripSlots_beneath : Beneath a a.collectStripSlots := by
  unfold collectStripSlots
  split_ifs <;> exact .of rfl rfl rfl rfl rfl rfl

lemma collectStylus_beneath : Beneath a a.collectStylus := by
  unfold collectStylus
  split_ifs <;> exact .of rfl rfl rfl rfl rfl rfl

lemma collectThrottle_beneath : Beneath a a.collectThrottle := by
  unfold collectThrottle
  split_ifs
  · refine Beneath.trans ?_ applyThrottle_beneath
    exact .of rfl rfl rfl rfl rfl rfl
  · exact .refl a

section

omit [Field R] [LinearOrder R] [FloatOps R]

lemma collectStateChange_beneath : Beneath a a.collectStateChange := by
  unfold collectStateChange
  split_ifs <;> exact .of rfl rfl rfl rfl rfl rfl

lemma collectAddRequest_beneath : Beneath a a.collectAddRequest := by
  unfold collectAddRequest
  split_ifs <;> exact .of rfl rfl rfl rfl rfl rfl

lemma collectPresetMenu_beneath : Beneath a a.collectPresetMenu := by
  unfold collectPresetMenu
  split_ifs <;> exact .of rfl rfl rfl rfl rfl rfl

lemma collectLongPress_beneath : Beneath a a.collectLongPress := by
  unfold collectLongPress
  dsimp only
  split_ifs <;> exact .of rfl rfl rfl rfl rfl rfl

lemma collectAbout_beneath : Beneath a a.collectAbout := by
  unfold collectAbout
  split_ifs <;> exact .of rfl rfl rfl rfl rfl rfl

lemma collectRotate_beneath : Beneath a a.collectRotate := by
  unfold collectRotate
  split_ifs <;> exact .of rfl rfl rfl rfl rfl rfl

lemma collectScreen_beneath : Beneath a a.collectScreen := by
  unfold collectScreen
  split_ifs <;> exact .of rfl rfl rfl rfl rfl rfl

lemma collectAutoLaunch_beneath : Beneath a a.collectAutoLaunch := by
  unfold collectAutoLaunch
  split_ifs <;> exact .of rfl rfl rfl rfl rfl rfl

lemma applyEdit_beneath (e : ButtonEdit) : Beneath a (a.applyEdit e) := by
  refine .of ?_ rfl rfl rfl rfl rfl
  unfold applyEdit
  dsimp only
  split_ifs
  · exact add_titles _
  · exact replace_titles _ _

lemma applyCommand_beneath (c : ButtonCommand) : Beneath a (a.applyCommand c) := by
  unfold applyCommand
  split
  · exact .of rfl rfl rfl rfl rfl rfl
  · exact .of (remove_titles _) rfl rfl rfl rfl rfl
  · exact .of (move_titles _ _) rfl rfl rfl rfl rfl
  · exact .of (move_titles _ _) rfl rfl rfl rfl rfl

end

lemma applyButtonEvents_beneath (edits : List ButtonEdit) (commands : List ButtonCommand) :
    Beneath a (a.applyButtonEvents edits commands) := by
  unfold applyButtonEvents
  split_ifs
  · exact .refl a
  · have hedits := foldl_beneath (a := a) (fun _ e => applyEdit_beneath e) edits
    have hcommands := foldl_beneath (a := edits.foldl applyEdit a)
      (fun _ c => applyCommand_beneath c) commands
    exact (hedits.trans hcommands).trans (.of rfl rfl rfl rfl rfl rfl)

/-- The app with what was answered, before the preset menu is asked. -/
def collectOffers (a : AppUi R) : AppUi R :=
  a.collectMode.collectStripChange.collectStateChange.collectStripSlots
    |>.collectAddRequest.collectPresetMenu

/-- What comes after the preset menu. -/
def collectRest (a : AppUi R) (f : FrameInput R) : AppUi R :=
  (a.collectLongPress.applyButtonEvents f.edits f.commands).collectAbout.collectRotate
    |>.collectStylus.collectScreen.collectAutoLaunch.collectThrottle

/-- Offers are collected between what does not touch them. -/
lemma collect_offers (f : FrameInput R) : a.collect f =
    ((a.collectOffers.collectAccepted.collectDeclined).applyPresetEvents f.presets).collectRest
      f := rfl

lemma collectOffers_beneath : Beneath a a.collectOffers :=
  ((((collectMode_beneath.trans collectStripChange_beneath).trans
    collectStateChange_beneath).trans collectStripSlots_beneath).trans
    collectAddRequest_beneath).trans collectPresetMenu_beneath

lemma collectRest_beneath (f : FrameInput R) : Beneath a (a.collectRest f) :=
  ((((((collectLongPress_beneath.trans (applyButtonEvents_beneath f.edits f.commands)).trans
    collectAbout_beneath).trans collectRotate_beneath).trans collectStylus_beneath).trans
    collectScreen_beneath).trans collectAutoLaunch_beneath).trans collectThrottle_beneath

lemma collectAccepted_offered (h : Offered a) : Offered a.collectAccepted := by
  unfold collectAccepted
  split_ifs
  · refine refresh_offered ?_
    dsimp only
    split_ifs <;> exact h.declined
  · exact h

omit [Field R] [LinearOrder R] [FloatOps R] in
lemma collectDeclined_offered (h : Offered a) : Offered a.collectDeclined := by
  unfold collectDeclined
  split_ifs
  · exact refresh_offered (.inr rfl)
  · exact h

lemma applyPresetEvents_offered (h : Offered a) (commands : List PresetCommand) :
    Offered (a.applyPresetEvents commands) := by
  unfold applyPresetEvents
  split_ifs
  · exact h
  · exact refresh_offered h.declined

lemma Offered.collect (h : Offered a) (f : FrameInput R) : Offered (a.collect f) := by
  rw [collect_offers]
  have hanswered := collectDeclined_offered (collectAccepted_offered
    (h.unrelated collectOffers_beneath.toUnrelated))
  exact (applyPresetEvents_offered hanswered f.presets).unrelated
    (collectRest_beneath f).toUnrelated

/-! ### Answers -/

/-- No answer waits to be collected. -/
def Unanswered (a : AppUi R) : Prop :=
  a.strip.suggestionAccepted = false ∧ a.strip.suggestionDeclined = false

omit [Field R] [LinearOrder R] [FloatOps R] in
lemma Unanswered.beneath (h : Unanswered a) (hb : Beneath a b) : Unanswered b := by
  have hcaption := hb.caption
  simp only [ButtonStrip.caption, Prod.mk.injEq] at hcaption
  exact ⟨hcaption.2.2.1.trans h.1, hcaption.2.2.2.trans h.2⟩

lemma collect_unanswered (a : AppUi R) (f : FrameInput R) : Unanswered (a.collect f) := by
  rw [collect_offers]
  refine Unanswered.beneath ?_ (collectRest_beneath f)
  generalize a.collectOffers = b
  have haccepted : b.collectAccepted.strip.suggestionAccepted = false := by
    unfold collectAccepted
    split_ifs with h
    · dsimp only
      split_ifs <;> rfl
    · simpa using h
  generalize b.collectAccepted = c at haccepted ⊢
  have hboth : Unanswered c.collectDeclined := by
    unfold collectDeclined
    split_ifs with h
    · exact ⟨haccepted, rfl⟩
    · exact ⟨haccepted, by simpa using h⟩
  generalize c.collectDeclined = d at hboth ⊢
  unfold applyPresetEvents
  split_ifs
  · exact hboth
  · exact hboth

/-! ### What the network brings -/

lemma Offered.applyPending (h : Offered a) (f : FrameInput R) : Offered (a.applyPending f) := by
  have hfit (b : AppUi R) (hb : Offered b) :
      Offered (if f.viewNeedsFit then b.fitViewToDesktop else b) := by
    split_ifs
    · exact hb.unrelated fitViewToDesktop_beneath.toUnrelated
    · exact hb
  have hcancel (b : AppUi R) (hb : Offered b) :
      Offered (if f.strokeCancel then b.call .cancelStroke else b) := by
    split_ifs
    · exact hb.unrelated ⟨rfl, rfl, rfl, rfl, rfl, .inl rfl⟩
    · exact hb
  unfold AppUi.applyPending
  refine hfit _ (hcancel _ ?_)
  cases f.activeWindow with
  | none => exact h
  | some process =>
    refine refresh_offered ?_
    dsimp only
    split_ifs with he
    · rw [he]
      exact h.declined
    · exact .inl rfl

lemma Offered.frame [IsStrictOrderedRing R] (h : Offered a) {f : FrameInput R}
    (hs : a.frame f = some b) : Offered b := by
  unfold AppUi.frame at hs
  split_ifs at hs
  · obtain rfl := Option.some.inj hs
    exact h
  · obtain ⟨c, hc, rfl⟩ := Option.map_eq_some_iff.mp hs
    have hdrained := drain_unrelated (fun h hu => h.unrelated hu) (h.applyPending f) hc
    exact (hdrained.collect f).unrelated
      ⟨rfl, rfl, rfl, rfl, rfl, .inl ((c.collect f).strip.advance_caption f.dt)⟩

lemma Unanswered.frame (h : Unanswered a) {f : FrameInput R} (hs : a.frame f = some b) :
    Unanswered b := by
  unfold AppUi.frame at hs
  split_ifs at hs
  · obtain rfl := Option.some.inj hs
    exact h
  · obtain ⟨c, -, rfl⟩ := Option.map_eq_some_iff.mp hs
    exact (collect_unanswered c f).beneath
      (.of rfl rfl rfl rfl rfl ((c.collect f).strip.advance_caption f.dt))

/-! ### Runs -/

/-- A property that is kept outside of frames. -/
structure Lasting (P : AppUi R → Prop) : Prop where
  beneath {a b : AppUi R} : P a → Beneath a b → P b
  named {a : AppUi R} (name : List UInt8) :
    P a → P { a with defaultPresetName := name }.refreshPresetOffer

omit [Field R] [LinearOrder R] [FloatOps R] in
lemma offered_lasting : Lasting (Offered (R := R)) where
  beneath h hb := h.unrelated hb.toUnrelated
  named _ h := refresh_offered h.declined

omit [Field R] [LinearOrder R] [FloatOps R] in
lemma unanswered_lasting : Lasting (Unanswered (R := R)) where
  beneath h hb := h.beneath hb
  named _ h := h

lemma lostFocus_beneath (gone : Bool) : Beneath a (a.lostFocus gone) := by
  have hcancel : Beneath a (a.call .cancelStroke) := .of rfl rfl rfl rfl rfl rfl
  unfold AppUi.lostFocus
  generalize a.call .cancelStroke = b at hcancel ⊢
  have hfree : Beneath b (b.call .cancelUiCapture) := .of rfl rfl rfl rfl rfl rfl
  have hleft (c : AppUi R) :
      Beneath c { c with touch := ⟨c.touch.router, c.touch.touching && !gone⟩ } :=
    .of rfl rfl rfl rfl rfl rfl
  refine Beneath.trans ?_ (hleft _)
  dsimp only
  split_ifs
  · refine hcancel.trans (hfree.trans ?_)
    split
    · exact .of rfl rfl rfl rfl rfl b.strip.cancelPress_caption
    · exact .of rfl rfl rfl rfl rfl rfl
    · exact .refl _
  · exact hcancel

lemma resized_beneath (width height : ℤ) : Beneath a (a.resized width height) := by
  have hlaid : Beneath a { a with width, height }.relayoutWidgets := .of rfl rfl rfl rfl rfl rfl
  unfold AppUi.resized
  dsimp only
  split_ifs
  · exact hlaid.trans fitViewToDesktop_beneath
  · exact hlaid

lemma Lasting.initWindow {P : AppUi R → Prop} (hP : Lasting P) (h : P a) (width height dpi : ℤ)
    (defaultName : List UInt8) : P (a.initWindow width height dpi defaultName) := by
  have hfit (b : AppUi R) (hb : P b) : P (if b.viewFitted then b else b.fitViewToDesktop) := by
    split_ifs
    · exact hb
    · exact hP.beneath hb fitViewToDesktop_beneath
  have hdensity (b : AppUi R) (hb : P b) (density : R) : P
      (if dpi > 0 then ({ b with density }.call (.setDensity density)).applyThrottle else b) := by
    split_ifs
    · have hsharp : Beneath b { b with density } := .of rfl rfl rfl rfl rfl rfl
      exact hP.beneath hb ((hsharp.trans (call_beneath _)).trans applyThrottle_beneath)
    · exact hb
  have hlaid (b : AppUi R) (hb : P b) : P b.relayoutWidgets :=
    hP.beneath hb (.of rfl rfl rfl rfl rfl rfl)
  have hsized : P { a with width, height, ready := true } :=
    hP.beneath h (.of rfl rfl rfl rfl rfl rfl)
  unfold AppUi.initWindow
  refine hfit _ (hlaid _ (hdensity _ ?_ _))
  dsimp only
  split_ifs
  · exact hP.named defaultName hsized
  · exact hsized

/-- **The rule.** A property that is kept outside of frames and by a frame is kept by a step. -/
theorem Lasting.step {P : AppUi R → Prop} (hP : Lasting P) (h : P a) {act : Act R}
    (hframe : ∀ f, act = .frame f → a.frame f = some b → P b) (hs : a.step act = some b) : P b := by
  cases act with
  | frame f => exact hframe f rfl hs
  | initWindow width height dpi defaultName =>
    obtain rfl := Option.some.inj hs
    exact hP.initWindow h width height dpi defaultName
  | resized width height =>
    obtain rfl := Option.some.inj hs
    exact hP.beneath h (resized_beneath width height)
  | lostFocus gone =>
    obtain rfl := Option.some.inj hs
    exact hP.beneath h (lostFocus_beneath gone)
  | termWindow | announced =>
    obtain rfl := Option.some.inj hs
    exact hP.beneath h (.of rfl rfl rfl rfl rfl rfl)

/-! ### What was reported and answered -/

/-- What decides about an offer besides the presets. -/
inductive News
  /-- The PC has reported which program is in focus. -/
  | reported (process : List UInt8)
  /-- The offer was declined. -/
  | declined
  deriving DecidableEq

def News.program : News → Option (List UInt8)
  | .reported process => some process
  | .declined => none

/-- The program that was reported last, or none. -/
def lastReported (ns : List News) : List UInt8 := (ns.filterMap News.program).getLastD []

/-- The offer was declined, and no other program was reported since. -/
def Declined (ns : List News) : Prop :=
  ∃ before after, ns = before ++ .declined :: after ∧
    ∀ p, .reported p ∈ after → p = lastReported before

/-- The news of a step: what the network thread left for a frame, and then the answer that the
events of the frame gave to the strip. -/
def news (a : AppUi R) : Act R → List News
  | .frame f =>
    if a.ready then
      (f.activeWindow.map News.reported).toList ++
        if ((a.applyPending f).drainInput f.events).any (·.strip.suggestionDeclined) then
          [.declined]
        else []
    else []
  | .initWindow _ _ _ _ | .termWindow | .resized _ _ | .lostFocus _ | .announced _ _ => []

/-- The news of some steps, oldest first. -/
def story (a : AppUi R) : List (Act R) → List News
  | [] => []
  | act :: acts => a.news act ++ (a.step act).elim [] (·.story acts)

section

variable {ns before after : List News} {p : List UInt8}

@[simp] lemma lastReported_reported : lastReported (ns ++ [.reported p]) = p := by
  simp [lastReported, News.program]

@[simp] lemma lastReported_declined : lastReported (ns ++ [.declined]) = lastReported ns := by
  simp [lastReported, News.program]

/-- As long as the same program is reported it is the last one. -/
lemma lastReported_same (h : ∀ q, .reported q ∈ after → q = lastReported before) :
    lastReported (before ++ .declined :: after) = lastReported before := by
  induction after using List.reverseRecOn with
  | nil => exact lastReported_declined
  | append_singleton after n ih =>
    rw [← List.cons_append, ← List.append_assoc]
    cases n with
    | reported q =>
      rw [lastReported_reported]
      exact h q (by simp)
    | declined =>
      rw [lastReported_declined]
      exact ih fun q hq => h q (List.mem_append_left _ hq)

lemma declined_now : Declined (ns ++ [.declined]) := ⟨ns, [], rfl, by simp⟩

/-- A report leaves a refusal standing if it is the same program again. -/
lemma declined_reported : Declined (ns ++ [.reported p]) ↔ Declined ns ∧ p = lastReported ns := by
  constructor
  · rintro ⟨before, after, he, hsame⟩
    obtain rfl | ⟨after, n, rfl⟩ := List.eq_nil_or_concat' after
    · have hlast := congrArg List.getLast? he
      simp at hlast
    · rw [← List.cons_append, ← List.append_assoc] at he
      obtain ⟨rfl, hn⟩ := List.append_inj' he rfl
      obtain rfl : .reported p = n := by simpa using hn
      have hsame' (q : List UInt8) (hq : .reported q ∈ after) : q = lastReported before :=
        hsame q (List.mem_append_left _ hq)
      refine ⟨⟨before, after, rfl, hsame'⟩, ?_⟩
      rw [lastReported_same hsame']
      exact hsame p (by simp)
  · rintro ⟨⟨before, after, rfl, hsame⟩, rfl⟩
    refine ⟨before, after ++ [.reported (lastReported (before ++ .declined :: after))],
      by simp, fun q hq => ?_⟩
    obtain hq | hq := List.mem_append.mp hq
    · exact hsame q hq
    · obtain rfl : q = _ := by simpa using hq
      exact lastReported_same hsame

end

/-- The focus and the refusal of the app are those of the news. -/
structure Tied (ns : List News) (a : AppUi R) : Prop where
  focused : a.focusedProcess = lastReported ns
  declined : a.focusedProcess ≠ [] → (a.offerDeclinedFor = a.focusedProcess ↔ Declined ns)

variable {ns : List News}

omit [Field R] [LinearOrder R] [FloatOps R] in
lemma Tied.unrelated (h : Tied ns a) (hu : Unrelated a b) : Tied ns b := by
  refine ⟨hu.focused.trans h.focused, ?_⟩
  rw [hu.focused, hu.declined]
  exact h.declined

omit [Field R] [LinearOrder R] [FloatOps R] in
lemma tied_lasting : Lasting (Tied (R := R) ns) where
  beneath h hb := h.unrelated hb.toUnrelated
  named _ h := ⟨h.focused, h.declined⟩

/-- Taking up an offer is no matter of the focus, and leaves the other answer where it is. -/
lemma collectAccepted_focus : a.collectAccepted.focusedProcess = a.focusedProcess ∧
    a.collectAccepted.offerDeclinedFor = a.offerDeclinedFor ∧
    a.collectAccepted.strip.suggestionDeclined = a.strip.suggestionDeclined := by
  unfold collectAccepted
  split_ifs
  · dsimp only
    split_ifs <;> exact ⟨rfl, rfl, rfl⟩
  · exact ⟨rfl, rfl, rfl⟩

omit [Field R] [LinearOrder R] [FloatOps R] in
/-- What is declined is the program in focus. -/
lemma collectDeclined_focus : a.collectDeclined.focusedProcess = a.focusedProcess ∧
    a.collectDeclined.offerDeclinedFor =
      if a.strip.suggestionDeclined then a.focusedProcess else a.offerDeclinedFor := by
  unfold collectDeclined
  split_ifs <;> exact ⟨rfl, rfl⟩

/-- What is collected at the end of a frame leaves the focus alone, and takes a refusal for it. -/
lemma collect_focus (a : AppUi R) (f : FrameInput R) :
    (a.collect f).focusedProcess = a.focusedProcess ∧ (a.collect f).offerDeclinedFor =
      if a.strip.suggestionDeclined then a.focusedProcess else a.offerDeclinedFor := by
  have hoffers := collectOffers_beneath (a := a)
  have hcaption := hoffers.caption
  simp only [ButtonStrip.caption, Prod.mk.injEq] at hcaption
  obtain ⟨hfocus, hdeclined, hflag⟩ := a.collectOffers.collectAccepted_focus
  obtain ⟨hfocus', hdeclined'⟩ := a.collectOffers.collectAccepted.collectDeclined_focus
  have hpresets (b : AppUi R) : (b.applyPresetEvents f.presets).focusedProcess = b.focusedProcess ∧
      (b.applyPresetEvents f.presets).offerDeclinedFor = b.offerDeclinedFor := by
    unfold applyPresetEvents
    split_ifs <;> exact ⟨rfl, rfl⟩
  obtain ⟨hfocus'', hdeclined''⟩ := hpresets a.collectOffers.collectAccepted.collectDeclined
  rw [collect_offers, (collectRest_beneath f).focused, (collectRest_beneath f).declined,
    hfocus'', hdeclined'', hfocus', hdeclined', hflag, hfocus, hdeclined, hcaption.2.2.2,
    hoffers.focused, hoffers.declined]
  exact ⟨rfl, rfl⟩

omit [Field R] [LinearOrder R] [FloatOps R] in
lemma Tied.reported (h : Tied ns a) {process : List UInt8} (hb : b.focusedProcess = process)
    (hd : b.offerDeclinedFor = if process = a.focusedProcess then a.offerDeclinedFor else []) :
    Tied (ns ++ [News.reported process]) b := by
  refine ⟨by rw [hb, lastReported_reported], fun hne => ?_⟩
  rw [hb] at hne ⊢
  rw [hd, declined_reported, ← h.focused]
  by_cases he : process = a.focusedProcess
  · rw [if_pos he, and_iff_left he, he]
    exact h.declined (he ▸ hne)
  · rw [if_neg he]
    exact iff_of_false hne.symm fun hno => he hno.2

lemma Tied.applyPending (h : Tied ns a) (f : FrameInput R) :
    Tied (ns ++ (f.activeWindow.map News.reported).toList) (a.applyPending f) := by
  have hfit (b : AppUi R) : Beneath b (if f.viewNeedsFit then b.fitViewToDesktop else b) := by
    split_ifs
    · exact fitViewToDesktop_beneath
    · exact .refl b
  have hcancel (b : AppUi R) : Beneath b (if f.strokeCancel then b.call .cancelStroke else b) := by
    split_ifs
    · exact call_beneath _
    · exact .refl b
  unfold AppUi.applyPending
  refine Tied.unrelated ?_ ((hcancel _).trans (hfit _)).toUnrelated
  cases f.activeWindow with
  | none => simpa using h
  | some process =>
    refine h.reported rfl ?_
    dsimp only
    split_ifs <;> rfl

lemma Tied.frame [IsStrictOrderedRing R] (h : Tied ns a) {f : FrameInput R}
    (hs : a.frame f = some b) : Tied (ns ++ a.news (.frame f)) b := by
  unfold AppUi.frame at hs
  cases hready : a.ready with
  | false =>
    rw [hready, Bool.not_false, if_pos rfl] at hs
    obtain rfl := Option.some.inj hs
    simpa [news, hready] using h
  | true =>
    rw [hready, Bool.not_true, if_neg Bool.false_ne_true] at hs
    obtain ⟨c, hc, rfl⟩ := Option.map_eq_some_iff.mp hs
    have hdrained := drain_unrelated (fun h hu => h.unrelated hu) (h.applyPending f) hc
    obtain ⟨hfocus, hdeclined⟩ := c.collect_focus f
    have hnews : ns ++ a.news (.frame f) = (ns ++ (f.activeWindow.map News.reported).toList) ++
        if c.strip.suggestionDeclined then [.declined] else [] := by
      simp only [news, hready, if_true, hc, Option.any_some, List.append_assoc]
    have hcollected : Tied (ns ++ a.news (.frame f)) (c.collect f) := by
      rw [hnews]
      cases hd : c.strip.suggestionDeclined with
      | false =>
        rw [hd, if_neg Bool.false_ne_true] at hdeclined
        rw [if_neg Bool.false_ne_true, List.append_nil]
        refine ⟨hfocus.trans hdrained.focused, ?_⟩
        rw [hfocus, hdeclined]
        exact hdrained.declined
      | true =>
        rw [hd, if_pos rfl] at hdeclined
        rw [if_pos rfl]
        refine ⟨by rw [hfocus, lastReported_declined, hdrained.focused], fun _ => ?_⟩
        exact iff_of_true (hdeclined.trans hfocus.symm) declined_now
    exact hcollected.unrelated
      ⟨rfl, rfl, rfl, rfl, rfl, .inl ((c.collect f).strip.advance_caption f.dt)⟩

lemma Tied.step [IsStrictOrderedRing R] (h : Tied ns a) {act : Act R} (hs : a.step act = some b) :
    Tied (ns ++ a.news act) b := by
  cases act with
  | frame f => exact h.frame hs
  | _ =>
    show Tied (ns ++ []) b
    rw [List.append_nil]
    exact tied_lasting.step h (fun _ he => by cases he) hs

section runs

variable [IsStrictOrderedRing R] {externalDir : List UInt8}
  {settingsFile buttonsFile : Option (List UInt8)} {acts : List (Act R)}

omit [IsStrictOrderedRing R] in
lemma start_offered : Offered (start externalDir settingsFile buttonsFile : AppUi R) := by
  refine ⟨?_, fun _ _ => rfl, fun hne => absurd rfl hne, .inl rfl⟩
  show (-1 : ℤ) = wantedOffer _
  unfold wantedOffer
  refine (if_neg fun h => ?_).symm
  have hnone : (start externalDir settingsFile buttonsFile : AppUi R).buttons.presetFor [] = -1 :=
    if_pos rfl
  exact absurd (hnone ▸ h.1 : (-1 : ℤ) ≥ 0) (by decide)

lemma run_offered
    (hrun : Run step (fun _ _ => True) (start externalDir settingsFile buttonsFile) acts a) :
    Offered a ∧ Unanswered a := by
  refine hrun.invariant (fun a => Offered a ∧ Unanswered a) (fun s act t h _ hs => ?_)
    ⟨start_offered, rfl, rfl⟩
  exact ⟨offered_lasting.step h.1 (fun _ _ hf => h.1.frame hf) hs,
    unanswered_lasting.step h.2 (fun _ _ hf => h.2.frame hf) hs⟩

lemma run_tied
    (hrun : Run step (fun _ _ => True) (start externalDir settingsFile buttonsFile) acts a) :
    Tied ((start externalDir settingsFile buttonsFile : AppUi R).story acts) a := by
  have hstory {s t : AppUi R} {acts : List (Act R)} (hr : Run step (fun _ _ => True) s acts t) :
      ∀ {ns : List News}, Tied ns s → Tied (ns ++ s.story acts) t := by
    induction hr with
    | nil s => exact fun h => by simpa [story] using h
    | cons _ hs _ ih =>
      intro ns h
      rw [story, hs, Option.elim_some, ← List.append_assoc]
      exact ih (h.step hs)
  have hstart : Tied [] (start externalDir settingsFile buttonsFile : AppUi R) :=
    ⟨rfl, fun hne => absurd rfl hne⟩
  exact hstory hrun hstart

omit [Field R] [LinearOrder R] [FloatOps R] [IsStrictOrderedRing R] in
/-- The preset that is wanted is the first that asks for the program, unless it is in use or the
program was declined. -/
lemma wantedOffer_iff (i : ℕ) : a.wantedOffer = i ↔
    a.focusedProcess ≠ [] ∧ a.focusedProcess ≠ a.offerDeclinedFor ∧ i ≠ a.buttons.current ∧
      (∃ m, a.buttons.programs[i]? = some m ∧ asksFor m a.focusedProcess = true) ∧
      ∀ j < i, ∀ m, a.buttons.programs[j]? = some m → asksFor m a.focusedProcess = false := by
  by_cases hp : a.focusedProcess = []
  · have hnone : a.buttons.presetFor [] = -1 := if_pos rfl
    simp [wantedOffer, hp, hnone]
  · rw [← presetFor_eq_iff hp]
    unfold wantedOffer
    generalize a.buttons.presetFor a.focusedProcess = w
    dsimp only
    constructor
    · intro h
      split_ifs at h with hw
      · obtain rfl := h
        exact ⟨hp, hw.2.2, by exact_mod_cast hw.2.1, rfl⟩
    · rintro ⟨-, hdeclined, hcurrent, rfl⟩
      exact if_pos ⟨Int.natCast_nonneg i, by exact_mod_cast hcurrent, hdeclined⟩

/-- **The offer follows.** In every run, after every step, a preset is on offer exactly if it is the
first that asks for the program the PC reported last, is not in use, and that program was not
declined since it came into focus. The bar of the strip shows its name, and nothing when nothing is
on offer; once the app has a name for presets that have none, the strip shows the name of the one in
use. -/
theorem offer_follows
    (hrun : Run step (fun _ _ => True) (start externalDir settingsFile buttonsFile) acts a) :
    let heard := (start externalDir settingsFile buttonsFile : AppUi R).story acts
    (∀ i : ℕ, a.offeredPreset = i ↔
      lastReported heard ≠ [] ∧ ¬Declined heard ∧ i ≠ a.buttons.current ∧
        (∃ m, a.buttons.programs[i]? = some m ∧ asksFor m (lastReported heard) = true) ∧
        ∀ j < i, ∀ m, a.buttons.programs[j]? = some m → asksFor m (lastReported heard) = false) ∧
      a.strip.suggestedName = (if a.offeredPreset ≥ 0 then a.presetDisplayName a.offeredPreset
        else []) ∧
      (a.defaultPresetName ≠ [] →
        a.strip.presetName = a.presetDisplayName a.buttons.current) := by
  intro heard
  obtain ⟨h, hno⟩ := run_offered hrun
  have htied : Tied heard a := run_tied hrun
  refine ⟨fun i => ?_, h.bar hno.1 hno.2, h.name⟩
  rw [h.offered, wantedOffer_iff, ← htied.focused]
  refine and_congr_right fun hp => and_congr_left fun _ => ?_
  rw [← htied.declined hp, ne_comm, Ne]

/-! ### An answer -/

/-- The program in focus is the one that was declined. -/
def Refused (process : List UInt8) (a : AppUi R) : Prop :=
  a.focusedProcess = process ∧ a.offerDeclinedFor = process

omit [Field R] [LinearOrder R] [FloatOps R] [IsStrictOrderedRing R] in
lemma Refused.unrelated {process : List UInt8} (h : Refused process a) (hu : Unrelated a b) :
    Refused process b :=
  ⟨hu.focused.trans h.1, hu.declined.trans h.2⟩

omit [Field R] [LinearOrder R] [FloatOps R] [IsStrictOrderedRing R] in
lemma refused_lasting (process : List UInt8) : Lasting (Refused (R := R) process) where
  beneath h hb := h.unrelated hb.toUnrelated
  named _ h := h

omit [IsStrictOrderedRing R] in
lemma Refused.collect {process : List UInt8} (h : Refused process a) (f : FrameInput R) :
    Refused process (a.collect f) := by
  obtain ⟨hfocus, hdeclined⟩ := a.collect_focus f
  refine ⟨hfocus.trans h.1, hdeclined.trans ?_⟩
  split_ifs
  · exact h.1
  · exact h.2

omit [IsStrictOrderedRing R] in
lemma collect_refuses (h : a.strip.suggestionDeclined = true) (f : FrameInput R) :
    Refused (a.collect f).focusedProcess (a.collect f) := by
  obtain ⟨hfocus, hdeclined⟩ := a.collect_focus f
  rw [if_pos h] at hdeclined
  exact ⟨rfl, hdeclined.trans hfocus.symm⟩

lemma Refused.frame {process : List UInt8} (h : Refused process a) {f : FrameInput R}
    (hf : ∀ p, f.activeWindow = some p → p = process) (hs : a.frame f = some b) :
    Refused process b := by
  have hpending : Refused process (a.applyPending f) := by
    have hfit (b : AppUi R) (hb : Refused process b) :
        Refused process (if f.viewNeedsFit then b.fitViewToDesktop else b) := by
      split_ifs
      · exact hb.unrelated fitViewToDesktop_beneath.toUnrelated
      · exact hb
    have hcancel (b : AppUi R) (hb : Refused process b) :
        Refused process (if f.strokeCancel then b.call .cancelStroke else b) := by
      split_ifs <;> exact hb
    unfold AppUi.applyPending
    refine hfit _ (hcancel _ ?_)
    cases hw : f.activeWindow with
    | none => exact h
    | some p =>
      obtain rfl := hf p hw
      dsimp only
      rw [if_pos h.1.symm]
      exact ⟨rfl, h.2⟩
  unfold AppUi.frame at hs
  split_ifs at hs
  · obtain rfl := Option.some.inj hs
    exact h
  · obtain ⟨c, hc, rfl⟩ := Option.map_eq_some_iff.mp hs
    exact (drain_unrelated (fun h hu => h.unrelated hu) hpending hc).collect f

omit [FloatOps R] [IsStrictOrderedRing R] [Field R] [LinearOrder R] in
lemma Refused.offers_nothing {process : List UInt8} (h : Refused process a) (ho : Offered a)
    (hno : Unanswered a) : a.offeredPreset = -1 ∧ a.strip.suggestedName = [] := by
  have hoffered : a.offeredPreset = -1 := by
    rw [ho.offered]
    exact if_neg fun hw => hw.2.2 (h.1.trans h.2.symm)
  refine ⟨hoffered, ?_⟩
  rw [ho.bar hno.1 hno.2, offerName, hoffered]
  rfl

/-- **No is no.** When the offer is declined in a frame, nothing is on offer after it, in any run,
for as long as the PC reports no other program than the one that was in focus, whatever is done to
the presets meanwhile. -/
theorem no_is_no {c d : AppUi R} {f : FrameInput R} {later : List (Act R)}
    (hrun : Run step (fun _ _ => True) (start externalDir settingsFile buttonsFile) acts a)
    (hready : a.ready = true) (hevents : (a.applyPending f).drainInput f.events = some c)
    (hdeclined : c.strip.suggestionDeclined = true) (hs : a.step (.frame f) = some b)
    (hlater : Run step (fun _ act => ∀ g, act = .frame g →
      ∀ p, g.activeWindow = some p → p = b.focusedProcess) b later d) :
    d.offeredPreset = -1 ∧ d.strip.suggestedName = [] := by
  obtain ⟨ho, hno⟩ := run_offered hrun
  have hframe : a.frame f = some b := hs
  have hrefused : Refused b.focusedProcess b := by
    have hframe' := hframe
    unfold AppUi.frame at hframe'
    rw [hready, Bool.not_true, if_neg Bool.false_ne_true, hevents] at hframe'
    obtain rfl := Option.some.inj hframe'
    exact collect_refuses hdeclined f
  have hall : Refused b.focusedProcess d ∧ Offered d ∧ Unanswered d := by
    refine hlater.invariant (fun e => Refused b.focusedProcess e ∧ Offered e ∧ Unanswered e)
      (fun e act e' h hok he => ?_) ⟨hrefused, ho.frame hframe, hno.frame hframe⟩
    exact ⟨(refused_lasting _).step h.1 (fun g hg hf => h.1.frame (hok g hg) hf) he,
      offered_lasting.step h.2.1 (fun _ _ hf => h.2.1.frame hf) he,
      unanswered_lasting.step h.2.2 (fun _ _ hf => h.2.2.frame hf) he⟩
  exact hall.1.offers_nothing hall.2.1 hall.2.2

omit [Field R] [LinearOrder R] [FloatOps R] [IsStrictOrderedRing R] in
/-- Nothing is wanted once the preset of the program is in use. -/
lemma wantedOffer_in_use (h : a.buttons.presetFor a.focusedProcess = a.buttons.current) :
    a.wantedOffer = -1 :=
  if_neg fun hw => hw.2.1 h

omit [IsStrictOrderedRing R] in
/-- The preset that is taken up is in use, and there is no more to offer. -/
lemma collectAccepted_used (h : Offered a) (ha : a.strip.suggestionAccepted = true) :
    a.collectAccepted.wantedOffer = -1 ∧
      (0 ≤ a.offeredPreset → (a.collectAccepted.buttons.current : ℤ) = a.offeredPreset) := by
  have hbuttons : a.collectAccepted.buttons = (a.buttons.select a.offeredPreset).1 ∧
      a.collectAccepted.focusedProcess = a.focusedProcess ∧
      a.collectAccepted.offerDeclinedFor = a.offerDeclinedFor := by
    refine ⟨?_, (collectAccepted_focus (a := a)).1, (collectAccepted_focus (a := a)).2.1⟩
    unfold collectAccepted
    rw [if_pos ha]
    dsimp only
    split_ifs <;> rfl
  obtain ⟨hstore, hfocus, hdeclined⟩ := hbuttons
  have hwanted (b : AppUi R) : b.wantedOffer = -1 ∨ ∃ i : ℕ, b.wantedOffer = i := by
    unfold wantedOffer
    dsimp only
    split_ifs with hw
    · obtain ⟨i, hi⟩ := Int.eq_ofNat_of_zero_le hw.1
      exact .inr ⟨i, hi⟩
    · exact .inl rfl
  obtain hnone | ⟨i, hi⟩ := hwanted a
  · have hselect : (a.buttons.select a.offeredPreset).1 = a.buttons := by
      rw [h.offered, hnone]
      unfold select
      rw [dif_pos (.inl fun hv => absurd hv.1 (by decide))]
    refine ⟨?_, fun h0 => ?_⟩
    · rw [← hnone]
      unfold wantedOffer
      rw [hstore, hselect, hfocus, hdeclined]
    · rw [h.offered, hnone] at h0
      exact absurd h0 (by decide)
  · obtain ⟨hne, -, hcurrent, ⟨m, hm, hask⟩, hfirst⟩ := (wantedOffer_iff i).mp hi
    have hlt : i < a.buttons.presets.length := by
      rw [← length_programs]
      exact (List.getElem?_eq_some_iff.mp hm).1
    have hselect : (a.buttons.select (i : ℤ)).1.current = i := by
      have hv : a.buttons.validPreset (i : ℤ) := ⟨Int.natCast_nonneg i, hlt⟩
      have hno : ¬(¬ a.buttons.validPreset (i : ℤ) ∨ i = a.buttons.current) :=
        not_or.mpr ⟨not_not.mpr hv, hcurrent⟩
      unfold select
      rw [dif_neg (by simpa using hno)]
      rfl
    rw [h.offered, hi] at hstore ⊢
    have huse : a.collectAccepted.buttons.current = i := by rw [hstore, hselect]
    refine ⟨wantedOffer_in_use ?_, fun _ => by rw [huse]⟩
    rw [huse, hfocus, presetFor_eq_iff hne, hstore, programs, select_presets]
    exact ⟨⟨m, hm, hask⟩, hfirst⟩

/-- **Yes is yes.** When the offer is taken up in a frame and the preset menu does nothing besides,
the preset on offer is in use after it, and nothing more is on offer. -/
theorem yes_is_yes {c : AppUi R} {f : FrameInput R}
    (hrun : Run step (fun _ _ => True) (start externalDir settingsFile buttonsFile) acts a)
    (hready : a.ready = true) (hevents : (a.applyPending f).drainInput f.events = some c)
    (haccepted : c.strip.suggestionAccepted = true) (hpresets : f.presets = [])
    (hs : a.step (.frame f) = some b) :
    b.offeredPreset = -1 ∧ b.strip.suggestedName = [] ∧
      (0 ≤ c.offeredPreset → (b.buttons.current : ℤ) = c.offeredPreset) := by
  obtain ⟨ho, hno⟩ := run_offered hrun
  have hc : Offered c := drain_unrelated (fun h hu => h.unrelated hu) (ho.applyPending f) hevents
  have hb : Offered b ∧ Unanswered b := ⟨ho.frame hs, hno.frame hs⟩
  have hframe : a.frame f = some b := hs
  unfold AppUi.frame at hframe
  rw [hready, Bool.not_true, if_neg Bool.false_ne_true, hevents] at hframe
  obtain rfl := Option.some.inj hframe
  have hoffers := collectOffers_beneath (a := c)
  have hcaption := hoffers.caption
  simp only [ButtonStrip.caption, Prod.mk.injEq] at hcaption
  have hd := hc.unrelated hoffers.toUnrelated
  obtain ⟨hnone, huse⟩ := collectAccepted_used hd (hcaption.2.2.1.trans haccepted)
  rw [hoffers.offered] at huse
  have hdeclined : c.collectOffers.collectAccepted.collectDeclined.wantedOffer = -1 ∧
      c.collectOffers.collectAccepted.collectDeclined.buttons =
        c.collectOffers.collectAccepted.buttons := by
    generalize c.collectOffers.collectAccepted = e at hnone
    unfold collectDeclined
    split_ifs
    · exact ⟨if_neg fun hw => hw.2.2 rfl, rfl⟩
    · exact ⟨hnone, rfl⟩
  have hall : Beneath (c.collectOffers.collectAccepted.collectDeclined)
      ((c.collect f).animate f.dt) := by
    rw [collect_offers, hpresets]
    refine (collectRest_beneath f).trans (.of rfl rfl rfl rfl rfl ?_)
    exact ButtonStrip.advance_caption _ _
  have hoffered : ((c.collect f).animate f.dt).offeredPreset = -1 := by
    rw [hb.1.offered, hall.wanted, hdeclined.1]
  refine ⟨hoffered, ?_, fun h0 => ?_⟩
  · rw [hb.1.bar hb.2.1 hb.2.2, offerName, hoffered]
    rfl
  · rw [hall.current, hdeclined.2, huse h0]

end runs

/-! ### A preset is offered, taken up and declined -/

/-- A preset is made for a program, another one is used, and the program comes into focus. -/
def offering : List (Act ℚ) :=
  [.initWindow 1200 800 160 (ascii "Default"),
    someFrame [fingerAt 0 10 20 780, fingerAt 1 50 20 780],
    .frame { presets := [⟨.create, 0, ascii "Code"⟩, ⟨.bind, 1, ascii "Code.exe"⟩,
      ⟨.select, 0, []⟩], dt := 1 / 60 },
    .frame { activeWindow := some (ascii "code.exe"), dt := 1 / 60 }]

/-- A tap on the bar of the offer. -/
def answering (x : ℚ) : FrameInput ℚ :=
  { events := [fingerAt 0 100 x 705, fingerAt 1 150 x 705], dt := 1 / 60 }

lemma eq_some_getD {α : Type} {x : Option α} (y : α) (h : x.isSome = true) :
    x = some (x.getD y) := by
  obtain ⟨z, rfl⟩ := Option.isSome_iff_exists.mp h
  rfl

theorem offer_follows_offering :
    let a := Run.final step (fun _ _ => True) (start [] none none) offering
    a.offeredPreset = 1 ∧ a.strip.suggestedName = ascii "Code" := by
  intro a
  have hrun : Run step (fun _ _ => True) (start [] none none) offering a :=
    Run.to_final (by decide +kernel)
  obtain ⟨hoffer, hname, -⟩ := offer_follows hrun
  have hstory : (start [] none none : AppUi ℚ).story offering =
      [.reported (ascii "code.exe")] := by decide +kernel
  have hkept : ¬Declined [.reported (ascii "code.exe")] := by
    rintro ⟨before, after, he, -⟩
    have hin : News.declined ∈ [News.reported (ascii "code.exe")] := he ▸ by simp
    exact absurd hin (by decide)
  have hone : a.offeredPreset = (1 : ℕ) := by
    rw [hoffer, hstory]
    refine ⟨by decide, hkept, ?_⟩
    decide +kernel
  refine ⟨hone, ?_⟩
  rw [hname]
  decide +kernel

theorem no_is_no_offering :
    let a := Run.final step (fun _ _ => True) (start [] none none) offering
    let b := (a.step (.frame (answering 53))).getD a
    let d := (b.step (.frame { activeWindow := some (ascii "code.exe"), dt := 1 / 60 })).getD b
    d.offeredPreset = -1 := by
  intro a b d
  have hrun : Run step (fun _ _ => True) (start [] none none) offering a :=
    Run.to_final (by decide +kernel)
  have hfocus : b.focusedProcess = ascii "code.exe" := by decide +kernel
  have hlater : Run step (fun _ act => ∀ g, act = .frame g →
      ∀ p, g.activeWindow = some p → p = b.focusedProcess) b
      [.frame { activeWindow := some (ascii "code.exe"), dt := 1 / 60 }] d := by
    refine .one (fun g hg p hp => ?_) (eq_some_getD b (by decide +kernel))
    obtain rfl := Act.frame.inj hg
    exact (Option.some.inj hp).symm.trans hfocus.symm
  exact (no_is_no hrun (by decide +kernel)
    (eq_some_getD a (by decide +kernel : ((a.applyPending (answering 53)).drainInput
      (answering 53).events).isSome = true))
    (by decide +kernel) (eq_some_getD a (by decide +kernel)) hlater).1

theorem yes_is_yes_offering :
    let a := Run.final step (fun _ _ => True) (start [] none none) offering
    let b := (a.step (.frame (answering 23))).getD a
    b.buttons.current = 1 ∧ b.offeredPreset = -1 := by
  intro a b
  have hrun : Run step (fun _ _ => True) (start [] none none) offering a :=
    Run.to_final (by decide +kernel)
  let c := ((a.applyPending (answering 23)).drainInput (answering 23).events).getD a
  have hc : (a.applyPending (answering 23)).drainInput (answering 23).events = some c :=
    eq_some_getD a (by decide +kernel)
  obtain ⟨hnone, -, huse⟩ := yes_is_yes hrun (by decide +kernel) hc (by decide +kernel) rfl
    (eq_some_getD a (by decide +kernel) : a.step (.frame (answering 23)) = some b)
  have hone : c.offeredPreset = 1 := by decide +kernel
  have hcurrent := huse (by rw [hone]; decide)
  rw [hone] at hcurrent
  exact ⟨by exact_mod_cast hcurrent, hnone⟩

end AppUi

end Digitiz
