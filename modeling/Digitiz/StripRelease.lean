import Digitiz.StripTouch

/-!
What a touch of the strip leaves behind.

It does what it has become, a tap, a long press or neither. The list is where the finger has taken
it if the press has turned into a scroll, and goes on to a slot boundary from there; else it has
gone on as if there were no finger. Nothing else changes.
-/

namespace Digitiz.ButtonStrip

open ButtonStore Carousel

variable {R : Type} [Field R] [LinearOrder R] [FloatOps R]

/-! ### What a touch leaves behind -/

/-- Everything else that outlasts a touch. -/
structure Lasting (R : Type) where
  orientation : StripOrientation
  surfaceW : ℤ
  surfaceH : ℤ
  density : R
  m : StripMetrics R
  slotLimit : ℤ
  effectiveLimit : ℤ
  maxSlots : ℤ
  scroll : R
  scrollTarget : R
  activeProcess : List UInt8
  presetName : List UInt8
  suggestedName : List UInt8

def lasting (s : ButtonStrip R) : Lasting R where
  orientation := s.orientation
  surfaceW := s.surfaceW
  surfaceH := s.surfaceH
  density := s.density
  m := s.m
  slotLimit := s.slotLimit
  effectiveLimit := s.effectiveLimit
  maxSlots := s.maxSlots
  scroll := s.scroll
  scrollTarget := s.scrollTarget
  activeProcess := s.activeProcess
  presetName := s.presetName
  suggestedName := s.suggestedName

/-- What goes on without the finger: the list settles, and an offer comes or goes. -/
def leftStep (s : ButtonStrip R) : TouchStep R → ButtonStrip R
  | .drag _ => s
  | .advance dt => s.settle dt
  | .suggest name => s.setSuggestion name

def left (s : ButtonStrip R) (l : List (TouchStep R)) : ButtonStrip R := l.foldl leftStep s

/-- Where the finger has got to. -/
def TouchStep.place (p : Point R) : TouchStep R → Point R
  | .drag q => q
  | .advance _ | .suggest _ => p

def lastPlace (p : Point R) (l : List (TouchStep R)) : Point R := l.foldl TouchStep.place p

/-- The list where a finger has taken it. -/
def pulled (s : ButtonStrip R) (x : R) : ButtonStrip R := { s with scroll := x, scrollTarget := x }

/-- Whether a finger that leaves the slop takes the list along: there is more of it than is shown,
and the finger goes along the strip rather than across it. -/
def Outcome.scrolls (s : ButtonStrip R) (p : Point R) : Outcome R → Bool
  | .moved q => s.scrollable && |s.along q p| > |s.across q p|
  | .tapped | .held => false

/-- The strip just before the release. -/
def rolled (s : ButtonStrip R) (p : Point R) (l : List (TouchStep R)) (o : Outcome R) :
    ButtonStrip R :=
  let u := (s.landed p).left l
  if o.scrolls s p then u.pulled (s.scroll - s.along (lastPlace p l) p) else u

/-- What a tap does to the strip itself. -/
def tapped (s : ButtonStrip R) (bs : List CustomButton) : Press → ButtonStrip R
  | .toggle => { s with expanded := !s.expanded }.layout bs s.surfaceW s.surfaceH s.density
  | .prev => s.nudge (-1)
  | .next => s.nudge 1
  | .accept | .decline => s.setSuggestion []
  | .add | .slot | .none => s

/-- The strip after a touch. A list that was taken along goes on to a slot boundary. -/
def letGo (s : ButtonStrip R) (bs : List CustomButton) (p : Point R) (l : List (TouchStep R)) :
    ButtonStrip R :=
  let o := outcome (s.target p) (kMoveSlopDp * s.density) p 0 l
  let u := s.rolled p l o
  match o with
  | .tapped => u.tapped bs (s.target p)
  | .moved _ => if o.scrolls s p then u.snapToSlot else u
  | .held => u

variable {s : ButtonStrip R} {bs : List CustomButton} {p : Point R} {k : Press} {button : ℤ}
  {t : R}

/-! ### The list under the finger -/

section rolling

variable {u w : ButtonStrip R}

omit [FloatOps R] in
lemma advance_list (u : ButtonStrip R) (dt : R) :
    (u.advance dt).lasting = (u.settle dt).lasting ∧ (u.advance dt).scrolling = u.scrolling := by
  obtain ⟨scroll, seconds, press, slot, long, menu, hsettle, he, -⟩ := u.advance_frame dt
  rw [he, hsettle]
  exact ⟨rfl, rfl⟩

/-- A press that cannot begin to scroll. -/
def Stuck (s : ButtonStrip R) : Prop :=
  s.scrolling = false ∧ (s.press ≠ .slot ∨ s.pressMoved = true)

lemma drag_stuck (h : u.Stuck) (q : Point R) : u.drag q = u := by
  obtain ⟨hs, hk | hm⟩ := h
  · exact drag_idle hk q
  · simp [drag, hs, hm]

lemma Stuck.step (h : u.Stuck) (c : TouchStep R) : (u.touchStep c).Stuck := by
  cases c with
  | drag q =>
    rw [touchStep, drag_stuck h q]
    exact h
  | advance dt =>
    obtain ⟨scroll, seconds, he, -⟩ | ⟨-, -, -, hnone, -⟩ := u.advance_cases dt
    · rw [touchStep, he]
      exact ⟨h.1, h.2⟩
    · refine ⟨(u.advance_list dt).2.trans h.1, .inl ?_⟩
      rw [touchStep, hnone]
      decide
  | suggest name => exact h

omit [LinearOrder R] [FloatOps R] in
lemma Touched.along (h : Touched s u) (a b : Point R) : u.along a b = s.along a b := by
  rw [ButtonStrip.along, ButtonStrip.along, horizontal, horizontal, h.orientation]

omit [LinearOrder R] [FloatOps R] in
lemma Touched.across (h : Touched s u) (a b : Point R) : u.across a b = s.across a b := by
  rw [ButtonStrip.across, ButtonStrip.across, horizontal, horizontal, h.orientation]

omit [FloatOps R] in
lemma Touched.scrolls (h : Touched s u) (p : Point R) (o : Outcome R) :
    o.scrolls u p = o.scrolls s p := by
  cases o with
  | moved q => rw [Outcome.scrolls, Outcome.scrolls, h.along, h.across, scrollable, scrollable, h.m]
  | _ => rfl

end rolling

/-! ### The release -/

section release

variable {u w : ButtonStrip R}

end release

variable [IsStrictOrderedRing R]

omit [IsStrictOrderedRing R] in
lemma landed_touched (s : ButtonStrip R) (bs : List CustomButton) (p : Point R) :
    Touched (s.landed p) (s.hitTest bs p).1 ∧
      (s.hitTest bs p).1.lasting = (s.landed p).lasting := by
  rw [hitTest]
  cases s.target p <;> exact ⟨⟨rfl, rfl, rfl, rfl, rfl⟩, rfl⟩

/-- Nine shortcuts. -/
def someButtons : List CustomButton := List.replicate 9 { kind := .shortcut, key := [65] }

/-- A row that shows three of them at a time. -/
def someStrip : ButtonStrip ℚ :=
  { init with expanded := true, slotLimit := 3 }.layout someButtons 1000 600 1

end Digitiz.ButtonStrip
