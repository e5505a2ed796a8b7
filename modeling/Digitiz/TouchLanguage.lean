import Digitiz.TouchStrokes

/-!
The language of the router.

Motion events come as the system delivers them: a touch begins with a finger on an empty glass and
ends when the last one is gone. Between any two of them the app may call whatever it likes on the
router, and the widgets and the monitor list may answer whatever they like.
-/

namespace Digitiz

open scoped Computability

open Pointer (Absolute Relative)

/-! ### Words -/

/-- The actions of the messages about points of the desktop. -/
def absolutes (ms : List Pointer) : List PointerAction :=
  (ms.filter fun m => !m.relative).map Pointer.action

/-- The actions of the messages that carry deltas. -/
def relatives (ms : List Pointer) : List PointerAction :=
  (ms.filter Pointer.relative).map Pointer.action

/-- Strokes, each pressed, moved and released or called off. -/
def strokeLanguage : Language PointerAction :=
  ({[.down]} * {[.move]}∗ * ({[.up]} + {[.cancel]}))∗

/-- Moves and clicks. -/
def slideLanguage : Language PointerAction := ({[.move]} + {[.down, .up]})∗

/-- Every relative press is followed at once by its release. -/
def ClicksWhole (ms : List Pointer) : Prop :=
  ∀ i d, ms[i]? = some d → Relative .down d → ∃ u, ms[i + 1]? = some u ∧ Relative .up u

@[simp] lemma absolutes_append (ms ms' : List Pointer) :
    absolutes (ms ++ ms') = absolutes ms ++ absolutes ms' := by simp [absolutes]

@[simp] lemma relatives_append (ms ms' : List Pointer) :
    relatives (ms ++ ms') = relatives ms ++ relatives ms' := by simp [relatives]

lemma ClicksWhole.append {ms ms' : List Pointer} (h : ClicksWhole ms) (h' : ClicksWhole ms') :
    ClicksWhole (ms ++ ms') := by
  intro i d hi hd
  by_cases hlt : i < ms.length
  · rw [List.getElem?_append_left hlt] at hi
    obtain ⟨u, hu, hrel⟩ := h i d hi hd
    obtain ⟨hlt', -⟩ := List.getElem?_eq_some_iff.mp hu
    exact ⟨u, by rw [List.getElem?_append_left hlt', hu], hrel⟩
  · have hle : ms.length ≤ i := Nat.le_of_not_lt hlt
    rw [List.getElem?_append_right hle] at hi
    obtain ⟨u, hu, hrel⟩ := h' _ d hi hd
    refine ⟨u, ?_, hrel⟩
    rw [List.getElem?_append_right (by omega), Nat.sub_add_comm hle, hu]

/-- What can have been said so far about points of the desktop, given whether a stroke is open. -/
def spokenStrokes (isOpen : Bool) : Language PointerAction :=
  if isOpen then openPhrases {[.down]} {[.move]} ({[.up]} + {[.cancel]}) else strokeLanguage

/-- The words of the router so far, given whether a stroke is open. -/
structure Spoken (ms : List Pointer) (isOpen : Bool) : Prop where
  strokes : absolutes ms ∈ spokenStrokes isOpen
  slides : relatives ms ∈ slideLanguage
  clicks : ClicksWhole ms

/-- A message about a point of the desktop adds its action to the strokes. -/
lemma absolutes_singleton {a : PointerAction} {m : Pointer} (h : Absolute a m) :
    absolutes [m] = [a] ∧ relatives [m] = [] := by
  simp [absolutes, relatives, h.1, h.2]

lemma relatives_singleton {a : PointerAction} {m : Pointer} (h : Relative a m) :
    absolutes [m] = [] ∧ relatives [m] = [a] := by
  simp [absolutes, relatives, h.1, h.2]

/-- A message that is no relative press breaks no click. -/
lemma clicksWhole_singleton {m : Pointer} (h : ¬Relative .down m) : ClicksWhole [m] := by
  intro i d hi hd
  obtain ⟨-, rfl⟩ : i = 0 ∧ m = d := by
    obtain ⟨hlt, he⟩ := List.getElem?_eq_some_iff.mp hi
    have : i = 0 := by simpa using hlt
    subst this
    exact ⟨rfl, he⟩
  exact absurd hd h

namespace Spoken

variable {ms : List Pointer} {b b' : Bool} {a : PointerAction} {d m u : Pointer}

/-- A message about a point of the desktop is a matter of the strokes alone. -/
lemma absolute (h : Spoken ms b) (hm : Absolute a m)
    (ha : absolutes ms ++ [a] ∈ spokenStrokes b') : Spoken (ms ++ [m]) b' := by
  obtain ⟨habs, hrel⟩ := absolutes_singleton hm
  refine ⟨?_, ?_, h.clicks.append (clicksWhole_singleton fun hm' => ?_)⟩
  · rwa [absolutes_append, habs]
  · rw [relatives_append, hrel, List.append_nil]
    exact h.slides
  · exact Bool.false_ne_true (hm.1.symm.trans hm'.1)

lemma press (h : Spoken ms false) (hd : Absolute .down d) : Spoken (ms ++ [d]) true :=
  h.absolute hd (append_open h.strokes rfl)

lemma move (h : Spoken ms true) (hm : Absolute .move m) : Spoken (ms ++ [m]) true :=
  h.absolute hm (append_inner h.strokes rfl)

lemma finish (h : Spoken ms true) (hu : Absolute .up u ∨ Absolute .cancel u) :
    Spoken (ms ++ [u]) false := by
  obtain hu | hu := hu
  · exact h.absolute hu (append_close h.strokes (.inl rfl))
  · exact h.absolute hu (append_close h.strokes (.inr rfl))

lemma slide (h : Spoken ms b) (hm : Relative .move m) : Spoken (ms ++ [m]) b := by
  obtain ⟨habs, hrel⟩ := relatives_singleton hm
  refine ⟨?_, ?_, h.clicks.append (clicksWhole_singleton fun hm' => ?_)⟩
  · rw [absolutes_append, habs, List.append_nil]
    exact h.strokes
  · rw [relatives_append, hrel]
    exact append_mem_kstar h.slides (.inl rfl)
  · exact absurd (hm.2.symm.trans hm'.2) (by decide)

lemma click (h : Spoken ms b) (hd : Relative .down d) (hu : Relative .up u) :
    Spoken (ms ++ [d, u]) b := by
  obtain ⟨habs, hrel⟩ := relatives_singleton hd
  obtain ⟨habs', hrel'⟩ := relatives_singleton hu
  have hsplit : [d, u] = [d] ++ [u] := rfl
  refine ⟨?_, ?_, h.clicks.append ?_⟩
  · rw [absolutes_append, hsplit, absolutes_append, habs, habs', List.append_nil, List.append_nil]
    exact h.strokes
  · rw [relatives_append, hsplit, relatives_append, hrel, hrel']
    exact append_mem_kstar h.slides (.inr rfl)
  · intro i d' hi hd'
    obtain _ | _ | i := i
    · exact ⟨u, rfl, hu⟩
    · obtain rfl : u = d' := Option.some.inj hi
      exact absurd (hu.2.symm.trans hd'.2) (by decide)
    · simp at hi

end Spoken

/-- Every step of the small machine keeps to the language. -/
lemma Reply.spoken {h h' : Hold} {ms out : List Pointer} (hr : Reply h out h')
    (hs : Spoken ms h.drawing) : Spoken (ms ++ out) h'.drawing := by
  have hnil {b : Bool} (hs : Spoken ms b) : Spoken (ms ++ []) b := by rwa [List.append_nil]
  cases hr with
  | keep | capture | land | slideBegin | letGo | drop | abandon => exact hnil hs
  | press hd => exact hs.press hd
  | pressMove hd hm =>
    have := (hs.press hd).move hm
    rwa [List.append_assoc] at this
  | tap hd hu =>
    have := (hs.press hd).finish (.inl hu)
    rwa [List.append_assoc] at this
  | move hm => exact hs.move hm
  | up hu => exact hs.finish (.inl hu)
  | cancel hc => exact hs.finish (.inr hc)
  | slideMove b hm => exact hs.slide hm
  | @slideClick b ns d u hlen hm hd hu =>
    rw [← List.append_assoc]
    refine Spoken.click ?_ hd hu
    cases ns with
    | nil => exact hnil hs
    | cons n ns =>
      obtain rfl : ns = [] := by simpa using hlen
      exact hs.slide (hm n (by simp))
  | slideOff b hm => exact hs.slide hm

/-! ### Runs -/

/-- A call of the router from outside. -/
inductive TouchCall (R : Type)
  | handle (e : MotionEvent R) (ans : Answers R)
  | setMode (mode : InputMode)
  | cancelStroke
  | cancelUiCapture
  | setStylusOnly (on : Bool)
  | setMinIntervalUs (us : UInt64)
  | setMinDistancePx (px : R)
  | setDensity (density : R)
  | setView (view : ViewTransform R)

/-- Whether a finger is on the glass after an action, if the action can come at all. -/
def MotionAction.glass (touching : Bool) : MotionAction → Option Bool
  | .down => if touching then none else some true
  | .move | .pointerDown | .pointerUp => if touching then some true else none
  | .up | .cancel => if touching then some false else none
  | .other => some touching

namespace TouchCall

variable {R : Type}

def glass (touching : Bool) : TouchCall R → Option Bool
  | .handle e _ => e.maskedAction.glass touching
  | .setMode _ | .cancelStroke | .cancelUiCapture | .setStylusOnly _ | .setMinIntervalUs _
  | .setMinDistancePx _ | .setDensity _ | .setView _ => some touching

/-- The call delivers a motion event with this action. -/
def delivers (a : MotionAction) : TouchCall R → Bool
  | .handle e _ => e.maskedAction = a
  | .setMode _ | .cancelStroke | .cancelUiCapture | .setStylusOnly _ | .setMinIntervalUs _
  | .setMinDistancePx _ | .setDensity _ | .setView _ => false

end TouchCall

/-- The router and the glass above it. -/
structure Touch (R : Type) where
  router : TouchRouter R
  touching : Bool

namespace Touch

variable {R : Type} [Field R]

def init (view : ViewTransform R) : Touch R := ⟨.init view, false⟩

/-- What the router holds on to, with nothing held over an empty glass. -/
def Holds (s : Touch R) (h : Hold) : Prop :=
  s.router.In h ∧ (s.touching = false → h = .free)

/-- What was said keeps to the language, with the stroke open that the router holds open. -/
def Sound (s : Touch R) : Prop := ∃ h, s.Holds h ∧ Spoken s.router.sent h.drawing

lemma init_sound (view : ViewTransform R) : (init view).Sound :=
  ⟨.free, ⟨TouchRouter.init_in view, fun _ => rfl⟩, nil_mem_phrases, Language.nil_mem_kstar _,
    by intro i d hi; simp [init, TouchRouter.init] at hi⟩

variable [LinearOrder R] [FloatOps R]

def call (r : TouchRouter R) : TouchCall R → TouchRouter R
  | .handle e ans => r.handle e ans
  | .setMode mode => r.setMode mode
  | .cancelStroke => r.cancelStroke
  | .cancelUiCapture => r.cancelUiCapture
  | .setStylusOnly on => r.setStylusOnly on
  | .setMinIntervalUs us => r.setMinIntervalUs us
  | .setMinDistancePx px => r.setMinDistancePx px
  | .setDensity density => r.setDensity density
  | .setView view => r.setView view

def step (s : Touch R) (c : TouchCall R) : Option (Touch R) :=
  (c.glass s.touching).map fun touching => ⟨call s.router c, touching⟩

lemma handle_goes {r : TouchRouter R} {h : Hold} (hin : r.In h) {e : MotionEvent R}
    {ans : Answers R} {b b' : Bool} (hb : b = false → h = .free)
    (hg : e.maskedAction.glass b = some b') : ∃ h', r.Goes (r.handle e ans) h h' ∧
      (b' = false → h' = .free) ∧ (h = .free → e.maskedAction ≠ .down → h' = .free) := by
  unfold TouchRouter.handle
  cases ha : e.maskedAction with
  | down =>
    cases b with
    | true => simp [ha, MotionAction.glass] at hg
    | false =>
      obtain rfl := hb rfl
      obtain ⟨h', hgo⟩ := TouchRouter.onDown_goes hin e ans
      refine ⟨h', hgo, ?_, fun _ h => absurd rfl h⟩
      rintro rfl; simp [ha, MotionAction.glass] at hg
  | pointerDown =>
    refine ⟨h.rest, TouchRouter.onPointerDown_goes hin e, ?_, ?_⟩
    · rintro rfl; simp [ha, MotionAction.glass] at hg
    · rintro rfl -; rfl
  | move =>
    obtain ⟨h', hgo, hfree, -⟩ := TouchRouter.onMove_goes hin e ans
    refine ⟨h', hgo, ?_, fun h _ => hfree h⟩
    rintro rfl; simp [ha, MotionAction.glass] at hg
  | pointerUp =>
    refine ⟨h, TouchRouter.onPointerUp_goes hin e, ?_, fun h _ => h⟩
    rintro rfl; simp [ha, MotionAction.glass] at hg
  | up => exact ⟨.free, TouchRouter.onUp_goes hin e ans, fun _ => rfl, fun _ _ => rfl⟩
  | cancel => exact ⟨.free, TouchRouter.onCancel_goes hin e ans, fun _ => rfl, fun _ _ => rfl⟩
  | other =>
    obtain rfl : b = b' := by simpa [ha, MotionAction.glass] using hg
    exact ⟨h, TouchRouter.goes_self hin, hb, fun h _ => h⟩

/-- **One call.** It is a step of the small machine, with the words for it; only a finger that lands
on the empty glass makes something of an idle touch. -/
theorem step_goes {s t : Touch R} {h : Hold} {c : TouchCall R} (hs : s.step c = some t)
    (hh : s.Holds h) : ∃ h', t.Holds h' ∧
      (∃ out, t.router.sent = s.router.sent ++ out ∧ Reply h out h') ∧
      (h = .free → c.delivers .down = false → h' = .free) := by
  obtain ⟨b, hg, rfl⟩ := Option.map_eq_some_iff.mp hs
  obtain ⟨hin, hb⟩ := hh
  have hkeep (hc : c.glass s.touching = some s.touching) : b = s.touching :=
    Option.some.inj (hg.symm.trans hc)
  cases c with
  | handle e ans =>
    obtain ⟨h', ⟨hin', hout⟩, hb', hidle⟩ := handle_goes hin hb hg
    exact ⟨h', ⟨hin', hb'⟩, hout, fun h hd => hidle h (by simpa [TouchCall.delivers] using hd)⟩
  | setMode mode =>
    obtain ⟨hin', hout⟩ := TouchRouter.setMode_goes hin mode
    obtain rfl := hkeep rfl
    refine ⟨_, ⟨hin', fun h => ?_⟩, hout, fun h _ => ?_⟩
    · rw [hb h]; simp
    · rw [h]; simp
  | cancelStroke =>
    obtain ⟨hin', hout⟩ := TouchRouter.cancelStroke_goes hin
    obtain rfl := hkeep rfl
    refine ⟨_, ⟨hin', fun h => ?_⟩, hout, fun h _ => ?_⟩
    · rw [hb h]; simp
    · rw [h]; simp
  | cancelUiCapture =>
    obtain ⟨hin', hout⟩ := TouchRouter.cancelUiCapture_goes hin
    obtain rfl := hkeep rfl
    refine ⟨_, ⟨hin', fun h => ?_⟩, hout, fun h _ => ?_⟩
    · rw [hb h]; rfl
    · rw [h]; rfl
  | setStylusOnly | setMinIntervalUs | setMinDistancePx | setDensity | setView =>
    obtain rfl := hkeep rfl
    exact ⟨h, ⟨hin.keep rfl rfl rfl rfl rfl rfl, hb⟩, ⟨[], (List.append_nil _).symm, .keep h⟩,
      fun h _ => h⟩

/-- A second finger gives up strokes and slides, and has nothing to take back without a stroke. -/
lemma step_second {s t : Touch R} {h : Hold} {c : TouchCall R} (hs : s.step c = some t)
    (hh : s.Holds h) (hc : c.delivers .pointerDown = true) (hd : h.drawing = false) :
    t.Holds h.rest ∧ t.router.sent = s.router.sent := by
  obtain ⟨b, hg, rfl⟩ := Option.map_eq_some_iff.mp hs
  cases c with
  | handle e ans =>
    have ha : e.maskedAction = .pointerDown := by simpa [TouchCall.delivers] using hc
    have hb : b = true := by
      have hb : e.maskedAction.glass s.touching = some b := hg
      rw [ha, MotionAction.glass] at hb
      split_ifs at hb
      exact (Option.some.inj hb).symm
    have he : call s.router (.handle e ans) = s.router.onPointerDown e := by
      simp [call, TouchRouter.handle, ha]
    rw [he]
    exact ⟨⟨(TouchRouter.onPointerDown_goes hh.1 e).1, fun h => absurd (hb.symm.trans h) (by simp)⟩,
      TouchRouter.onPointerDown_silent (hh.1.drawing.trans hd) e⟩
  | setMode | cancelStroke | cancelUiCapture | setStylusOnly | setMinIntervalUs | setMinDistancePx
  | setDensity | setView => simp [TouchCall.delivers] at hc

lemma step_sound {s t : Touch R} {c : TouchCall R} (hs : s.step c = some t) (h : s.Sound) :
    t.Sound := by
  obtain ⟨h, hh, hsp⟩ := h
  obtain ⟨h', hh', ⟨out, hout, hrep⟩, -⟩ := step_goes hs hh
  exact ⟨h', hh', hout ▸ hrep.spoken hsp⟩

/-- **Whole runs.** -/
theorem run_sound {view : ViewTransform R} {calls : List (TouchCall R)} {s : Touch R}
    (hr : Run step (fun _ _ => True) (init view) calls s) : s.Sound :=
  hr.invariant Sound (fun _ _ _ h _ hs => step_sound hs h) (init_sound view)

/-- The messages that went out since an earlier moment. -/
def since (s t : Touch R) : List Pointer := t.router.sent.drop s.router.sent.length

/-- A touch whose press was held back, at a later moment: either nothing has gone out, or the press
was sent and is held back no more. -/
def HeldBack (s t : Touch R) : Prop :=
  ∃ h, t.Holds h ∧ (((h = .pending ∨ h = .free) ∧ t.router.sent = s.router.sent) ∨
    (h ≠ .pending ∧ ∃ rest, t.router.sent = s.router.sent ++ rest ∧ ∃ m ∈ rest, m.action = .down))

/-- A press that is held back stays so in silence, is dropped in silence or is sent. -/
lemma Reply.of_pending {h' : Hold} {out : List Pointer} (hr : Reply .pending out h') :
    ((h' = .pending ∨ h' = .free) ∧ out = []) ∨
    (h' ≠ .pending ∧ ∃ m ∈ out, m.action = .down) := by
  cases hr with
  | keep => exact .inl ⟨.inl rfl, rfl⟩
  | drop => exact .inl ⟨.inr rfl, rfl⟩
  | press hd => exact .inr ⟨by simp, _, by simp, hd.2⟩
  | pressMove hd hm => exact .inr ⟨by simp, _, by simp, hd.2⟩
  | tap hd hu => exact .inr ⟨by simp, _, by simp, hd.2⟩

/-- Only an idle touch comes to hold a press back. -/
lemma Reply.to_pending {h : Hold} {out : List Pointer} (hr : Reply h out .pending) :
    h = .pending ∨ h = .free := by
  cases hr with
  | keep => exact .inl rfl
  | land => exact .inr rfl

/-- Nothing is said about a touch nobody or a widget has. -/
lemma Reply.silent_of_idle {h h' : Hold} {out : List Pointer} (hr : Reply h out h')
    (hh : h = .free ∨ h = .widget) : out = [] := by
  obtain rfl | rfl := hh <;> cases hr <;> rfl

lemma step_heldBack {s t u : Touch R} {c : TouchCall R} (hs : t.step c = some u)
    (hc : c.delivers .down = false) (h : HeldBack s t) : HeldBack s u := by
  obtain ⟨h, hh, hcase⟩ := h
  obtain ⟨h', hh', ⟨out, hout, hrep⟩, hidle⟩ := step_goes hs hh
  refine ⟨h', hh', ?_⟩
  obtain ⟨rfl | rfl, hsent⟩ | ⟨hne, rest, hrest, m, hm, hdown⟩ := hcase
  · obtain ⟨hh', rfl⟩ | ⟨hne, m, hm, hdown⟩ := Reply.of_pending hrep
    · exact .inl ⟨hh', by rw [hout, hsent, List.append_nil]⟩
    · exact .inr ⟨hne, out, by rw [hout, hsent], m, hm, hdown⟩
  · obtain rfl := hidle rfl hc
    obtain rfl := Reply.silent_of_idle hrep (.inl rfl)
    exact .inl ⟨.inr rfl, by rw [hout, hsent, List.append_nil]⟩
  · refine .inr ⟨?_, rest ++ out, by rw [hout, hrest, List.append_assoc], m, ?_, hdown⟩
    · rintro rfl
      obtain rfl | rfl := Reply.to_pending hrep
      · exact hne rfl
      · exact absurd (hidle rfl hc) (by simp)
    · exact List.mem_append_left _ hm

/-- A touch nobody has stays idle and silent until the next finger lands on the empty glass. -/
lemma step_idle {s t u : Touch R} {c : TouchCall R} (hs : t.step c = some u)
    (hc : c.delivers .down = false) (h : t.Holds .free ∧ t.router.sent = s.router.sent) :
    u.Holds .free ∧ u.router.sent = s.router.sent := by
  obtain ⟨hh, hsent⟩ := h
  obtain ⟨h', hh', ⟨out, hout, hrep⟩, hidle⟩ := step_goes hs hh
  obtain rfl := hidle rfl hc
  obtain rfl := Reply.silent_of_idle hrep (.inl rfl)
  exact ⟨hh', by rw [hout, hsent, List.append_nil]⟩

/-- The calls of a run that come before the next finger lands on the empty glass. -/
def sameTouch (_ : Touch R) (c : TouchCall R) : Prop := c.delivers .down = false

/-- **A second finger in time.** A press that was still held back is never sent. -/
theorem silent_pinch {s landed t v u : Touch R} {mid later : List (TouchCall R)}
    {down finger : TouchCall R} (hsnd : s.Sound) (hdown : s.step down = some landed)
    (hpend : landed.router.pressPending = true) (hmid : Run step sameTouch landed mid t)
    (hheld : t.router.pressPending = true ∨ ∀ m ∈ since s t, m.action ≠ .down)
    (hfin : finger.delivers .pointerDown = true) (hfinger : t.step finger = some v)
    (hlater : Run step sameTouch v later u) : u.router.sent = s.router.sent := by
  obtain ⟨h, hh, -⟩ := hsnd
  obtain ⟨h₁, hh₁, ⟨out, hout, hrep⟩, -⟩ := step_goes hdown hh
  have hp : h₁ = .pending := by
    have hpr : h₁.pressed = true := hh₁.1.pressed.symm.trans hpend
    cases h₁ <;> simp at hpr
    rfl
  subst hp
  have hback : HeldBack s landed := by
    refine ⟨.pending, hh₁, .inl ⟨.inl rfl, ?_⟩⟩
    obtain rfl : out = [] := by cases hrep <;> rfl
    rw [hout, List.append_nil]
  obtain ⟨h₂, hh₂, hcase⟩ := hmid.invariant (HeldBack s)
    (fun _ _ _ hb hc hs => step_heldBack hs hc hb) hback
  -- what the finger finds: a press held back or dropped, and nothing said
  have hfound : (h₂ = .pending ∨ h₂ = .free) ∧ t.router.sent = s.router.sent := by
    obtain hfound | ⟨hne, rest, hrest, m, hm, hd⟩ := hcase
    · exact hfound
    · exfalso
      obtain hpend' | hnone := hheld
      · have hpr : h₂.pressed = true := hh₂.1.pressed.symm.trans hpend'
        cases h₂ <;> simp at hpr
        exact hne rfl
      · exact hnone m (by simpa [since, hrest] using hm) hd
  obtain ⟨hv, hsent⟩ := step_second hfinger hh₂ hfin
    (by obtain ⟨rfl | rfl, -⟩ := hfound <;> rfl)
  have hidle : v.Holds .free ∧ v.router.sent = s.router.sent :=
    ⟨by obtain ⟨rfl | rfl, -⟩ := hfound <;> exact hv, hsent.trans hfound.2⟩
  exact (hlater.invariant (fun u => u.Holds .free ∧ u.router.sent = s.router.sent)
    (fun _ _ _ hi hc hs => step_idle hs hc hi) hidle).2

/-- **The router speaks a well-formed language.** In every run: what is said about points of the
desktop is the beginning of a word of strokes; slides are moves and whole clicks; with no finger on
the glass no stroke is open; an event says nothing while the view alone is moved or a widget has the
finger; and a second finger that finds the press not sent yet keeps the whole touch silent. -/
theorem router_language {view : ViewTransform R} {calls : List (TouchCall R)} {s : Touch R}
    (hr : Run step (fun _ _ => True) (init view) calls s) :
    (∃ w ∈ strokeLanguage, absolutes s.router.sent <+: w) ∧
    (relatives s.router.sent ∈ slideLanguage ∧ ClicksWhole s.router.sent) ∧
    (s.touching = false → absolutes s.router.sent ∈ strokeLanguage) ∧
    (∀ e ans t, s.step (.handle e ans) = some t →
      s.router.mode = .pan ∨ s.router.uiCaptured = true ∨ t.router.uiCaptured = true →
      t.router.sent = s.router.sent) ∧
    (∀ down landed mid t finger v later u, down.delivers .down = true → s.step down = some landed →
      landed.router.pressPending = true → Run step sameTouch landed mid t →
      (t.router.pressPending = true ∨ ∀ m ∈ since s t, m.action ≠ .down) →
      finger.delivers .pointerDown = true → t.step finger = some v → Run step sameTouch v later u →
      u.router.sent = s.router.sent) := by
  have hsnd := run_sound hr
  obtain ⟨h, hh, hsp⟩ := id hsnd
  refine ⟨?_, ⟨hsp.slides, hsp.clicks⟩, ?_, ?_, ?_⟩
  · have hstrokes := hsp.strokes
    cases hd : h.drawing with
    | false =>
      rw [hd] at hstrokes
      exact ⟨_, hstrokes, List.prefix_rfl⟩
    | true =>
      -- an open stroke would be closed by a release
      rw [hd] at hstrokes
      exact ⟨_, append_close hstrokes (.inl rfl), List.prefix_append _ [PointerAction.up]⟩
  · intro hfree
    obtain rfl := hh.2 hfree
    exact hsp.strokes
  · intro e ans t hs hquiet
    obtain ⟨h', hh', ⟨out, hout, hrep⟩, -⟩ := step_goes hs hh
    obtain rfl : out = [] := by
      obtain hpan | hcap | hcap := hquiet
      · have hfits := hh.1.fits
        rw [hpan] at hfits
        cases h with
        | free => exact Reply.silent_of_idle hrep (.inl rfl)
        | widget => exact Reply.silent_of_idle hrep (.inr rfl)
        | pending | stroke | slide b => simp at hfits
      · have hw : h.captured = true := hh.1.captured.symm.trans hcap
        cases h <;> simp at hw
        exact Reply.silent_of_idle hrep (.inr rfl)
      · have hw : h'.captured = true := hh'.1.captured.symm.trans hcap
        cases h' <;> simp at hw
        cases hrep <;> rfl
    rw [hout, List.append_nil]
  · intro down landed mid t finger v later u _ hdown hpend hmid hheld hfin hfinger hlater
    exact silent_pinch hsnd hdown hpend hmid hheld hfin hfinger hlater

/-- A motion event of a few fingers, the first of them with id 0. -/
def fingers (action : UInt32) (ms : Int64) (at_ : List (ℚ × ℚ)) : TouchCall ℚ :=
  .handle ⟨action, ms, at_.zipIdx.map fun p => ⟨Int32.ofNat p.2, 1, ⟨p.1.1, p.1.2⟩⟩⟩ {}

/-- A line is drawn, then the view is pinched, then the cursor is slid and clicked. -/
def someTouches : List (TouchCall ℚ) :=
  [fingers 0 0 [(0, 0)], fingers 2 9 [(40, 0)], fingers 1 20 [(50, 0)],
    fingers 0 30 [(5, 5)], fingers 261 35 [(5, 5), (90, 90)], fingers 2 40 [(4, 4), (99, 99)],
    fingers 262 50 [(4, 4), (99, 99)], fingers 1 60 [(4, 4)],
    .setMode .slide, fingers 0 90 [(7, 7)], fingers 2 95 [(9, 7)], fingers 1 99 [(9, 7)]]

theorem router_language_some_touches :
    let s := Run.final step (fun _ _ => True) (init .init) someTouches
    (∃ w ∈ strokeLanguage, absolutes s.router.sent <+: w) ∧
      absolutes s.router.sent = [.down, .move, .up] ∧
      relatives s.router.sent = [.move, .down, .up] := by
  intro s
  have hrun : Run step (fun _ _ => True) (init .init) someTouches s :=
    Run.to_final (by decide +kernel)
  exact ⟨(router_language hrun).1, by decide +kernel, by decide +kernel⟩

end Touch

end Digitiz
